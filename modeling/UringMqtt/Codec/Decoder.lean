import UringMqtt.Codec.Rmqtt

/-! `MqttDecoder`, the bounded wrapper around the codec, and the two ways of
reading a stream with it: fed read by read, and against a parser that takes one
frame at a time from the front of the whole stream. -/

namespace UringMqtt
open Lib

/-- `std::io::Error` as the broker builds and inspects it. -/
inductive IoError where
  | decode (error : DecodeError)
  | truncatedPacket
  | bytesRemaining
  | encode
  | transport (kind : Nat)
deriving DecidableEq, Repr

/-- `e.get_ref().and_then(|s| s.downcast_ref::<DecodeError>())`. -/
def IoError.decodeError : IoError → Option DecodeError
  | .decode error => some error
  | _ => none

abbrev Item := MqttPacket × Nat

structure MqttDecoder (rmqtt : Rmqtt) where
  inner : rmqtt.Codec
  maxInboundPacketSize : MaxInboundPacketSize
  atFrameStart : Bool

namespace MqttDecoder
variable {rmqtt : Rmqtt}

def new (rmqtt : Rmqtt) (version : ProtocolVersion) (bound : MaxInboundPacketSize) : MqttDecoder rmqtt where
  inner := rmqtt.new version bound.remainingLengthLimit
  maxInboundPacketSize := bound
  atFrameStart := true

/-- `Ok(Decoded::Some(_))` is `some`, `Ok(Decoded::Insufficient)` is `none`. -/
def decode (self : MqttDecoder rmqtt) (src : Bytes) : Except IoError (Option Item) × MqttDecoder rmqtt × Bytes :=
  if self.atFrameStart && self.maxInboundPacketSize.rejectsFixedHeader src then
    (.error (.decode .maxSizeExceeded), self, src)
  else if self.atFrameStart && rejectsMalformedFixedHeader src then
    (.error (.decode .malformedPacket), self, src)
  else
    let before := src.length
    match rmqtt.decode self.inner src with
    | (.ok (some packet), inner, rest) => (.ok (some packet), { self with inner, atFrameStart := true }, rest)
    | (.ok none, inner, rest) =>
      if rest.length < before then (.ok none, { self with inner, atFrameStart := false }, rest)
      else (.ok none, { self with inner }, rest)
    | (.error e, inner, rest) => (.error (.decode e), { self with inner }, rest)

def decodeEof (self : MqttDecoder rmqtt) (src : Bytes) : Except IoError (Option Item) × MqttDecoder rmqtt × Bytes :=
  match self.decode src with
  | (.error e, decoder, rest) => (.error e, decoder, rest)
  | (.ok (some item), decoder, rest) => (.ok (some item), decoder, rest)
  | (.ok none, decoder, rest) =>
    if rest.isEmpty && decoder.atFrameStart then (.ok none, decoder, rest)
    else (.error .truncatedPacket, decoder, rest)

end MqttDecoder

/-- How a stream ended. `unfinished` is a driver that ran out of calls, which no
stream of finite length reaches. -/
inductive Ending where
  | clean
  | error (error : IoError)
  | unfinished
deriving DecidableEq, Repr

namespace Stream
variable {rmqtt : Rmqtt}

inductive Drained (rmqtt : Rmqtt) where
  | insufficient (decoder : MqttDecoder rmqtt) (buffer : Bytes)
  | ended (ending : Ending)

def drain : Nat → MqttDecoder rmqtt → Bytes → List Item × Drained rmqtt
  | 0, _, _ => ([], .ended .unfinished)
  | calls + 1, decoder, buffer =>
    match decoder.decode buffer with
    | (.ok (some item), decoder, rest) =>
      let (items, drained) := drain calls decoder rest
      (item :: items, drained)
    | (.ok none, decoder, rest) => ([], .insufficient decoder rest)
    | (.error e, _, _) => ([], .ended (.error e))

def drainEof : Nat → MqttDecoder rmqtt → Bytes → List Item × Ending
  | 0, _, _ => ([], .unfinished)
  | calls + 1, decoder, buffer =>
    match decoder.decodeEof buffer with
    | (.ok (some item), decoder, rest) =>
      let (items, ending) := drainEof calls decoder rest
      (item :: items, ending)
    | (.ok none, _, _) => ([], .clean)
    | (.error e, _, _) => ([], .error e)

/-- Append each read to the buffer and drain it; at the end of the stream drain what is left
through `decode_eof`. Every packet consumes a byte, so one call more than there are bytes
suffices. -/
def feed (decoder : MqttDecoder rmqtt) (buffer : Bytes) : List Bytes → List Item × Ending
  | [] => drainEof (buffer.length + 1) decoder buffer
  | read :: reads =>
    match drain ((buffer ++ read).length + 1) decoder (buffer ++ read) with
    | (items, .ended ending) => (items, ending)
    | (items, .insufficient decoder rest) =>
      let (later, ending) := feed decoder rest reads
      (items ++ later, ending)

end Stream

/-! ### The one-shot reference parser -/

namespace Reference
variable (rmqtt : Rmqtt) (version : ProtocolVersion) (bound : MaxInboundPacketSize)

def headerError (first : UInt8) (width value : Nat) : Option DecodeError :=
  if bound.bytes < 1 + width + value then some .maxSizeExceeded
  else if (first = pingreqFirstByte ∧ value ≠ 0) ∨ Varint.width value < width then some .malformedPacket
  else none

/-- Take frames from the front of the stream until one is missing or offends. -/
def parse (stream : Bytes) : List Item × Ending :=
  match stream with
  | [] => ([], .clean)
  | first :: rest =>
    match Varint.read maxVarintBytes rest with
    | .incomplete => ([], .error .truncatedPacket)
    | .overlong => ([], .error (.decode .invalidLength))
    | .number width value =>
      match headerError bound first width value with
      | some e => ([], .error (.decode e))
      | none =>
        if rest.length < width + value then ([], .error .truncatedPacket)
        else match rmqtt.decodePacket version first ((rest.drop width).take value) with
          | .error e => ([], .error (.decode e))
          | .ok packet =>
            let (items, ending) := parse (rest.drop (width + value))
            ((packet, value) :: items, ending)
termination_by stream.length
decreasing_by
  simp only [List.length_drop, List.length_cons]
  omega

end Reference
end UringMqtt

import UringMqtt.Codec.FixedHeader

/-! rmqtt-codec as the broker uses it. The crate is not part of the repository,
so its codecs are parameters, and `Lawful` states the behaviour the broker's own
framing is written against. -/

namespace UringMqtt
open Lib

/-- Where an `MqttCodec` stands in the stream: before a fixed header, or behind
one it consumed while the body is still arriving. -/
inductive DecodeState where
  | frameHeader
  | frame (firstByte : UInt8) (remainingLength : Nat)
deriving DecidableEq

/-- The crate's codecs. `decode` answers with the packet and its Remaining
Length, the codec afterwards and the bytes it left in the buffer; `encode` gives
the bytes it appends, or nothing when the packet cannot be encoded. -/
structure Rmqtt where
  Codec : Type
  new : ProtocolVersion → Nat → Codec
  version : Codec → ProtocolVersion
  maxSize : Codec → Nat
  state : Codec → DecodeState
  decode : Codec → Bytes → Except DecodeError (Option (MqttPacket × Nat)) × Codec × Bytes
  decodePacket : ProtocolVersion → UInt8 → Bytes → Except DecodeError MqttPacket
  decodeVersion : Bytes → Except DecodeError (Option ProtocolVersion) × Bytes
  encode : ProtocolVersion → MqttPacket → Option Bytes

namespace Rmqtt
variable (rmqtt : Rmqtt)

structure Moved (before after : rmqtt.Codec) (state : DecodeState) : Prop where
  version : rmqtt.version after = rmqtt.version before
  maxSize : rmqtt.maxSize after = rmqtt.maxSize before
  state : rmqtt.state after = state

/-- `VersionCodec` looks at the buffer and takes nothing from it. -/
def ProbeLooks : Prop := ∀ src, (rmqtt.decodeVersion src).2 = src

/-- The packet decoder of a version only makes packets of its own variant. -/
def DecodesOwnVariant : Prop :=
  ∀ version first body packet, rmqtt.decodePacket version first body = .ok packet → packet.variant = some version

/-- `MqttCodec` splits a stream into frames by the Remaining Length, consumes a
header as soon as it is complete, and hands a whole body to its packet decoder. -/
structure LawfulFraming : Prop where
  new_version : ∀ version limit, rmqtt.version (rmqtt.new version limit) = version
  new_maxSize : ∀ version limit, rmqtt.maxSize (rmqtt.new version limit) = limit
  new_state : ∀ version limit, rmqtt.state (rmqtt.new version limit) = .frameHeader
  /-- An empty buffer or an unfinished header is left for the next read. -/
  header_empty : ∀ codec, rmqtt.state codec = .frameHeader → rmqtt.decode codec [] = (.ok none, codec, [])
  header_incomplete : ∀ codec first rest, rmqtt.state codec = .frameHeader →
    Varint.read maxVarintBytes rest = .incomplete →
    rmqtt.decode codec (first :: rest) = (.ok none, codec, first :: rest)
  /-- A fourth continuation byte is `InvalidLength`. -/
  header_overlong : ∀ codec first rest, rmqtt.state codec = .frameHeader →
    Varint.read maxVarintBytes rest = .overlong →
    (rmqtt.decode codec (first :: rest)).1 = .error .invalidLength
  /-- A non-zero limit rejects a longer Remaining Length. -/
  header_over : ∀ codec first rest width value, rmqtt.state codec = .frameHeader →
    Varint.read maxVarintBytes rest = .number width value →
    rmqtt.maxSize codec ≠ 0 → rmqtt.maxSize codec < value →
    (rmqtt.decode codec (first :: rest)).1 = .error .maxSizeExceeded
  /-- A header whose body is not all there is consumed and remembered. -/
  header_waits : ∀ codec first rest width value, rmqtt.state codec = .frameHeader →
    Varint.read maxVarintBytes rest = .number width value → value ≤ rmqtt.maxSize codec →
    rest.length < width + value →
    ∃ after, rmqtt.Moved codec after (.frame first value) ∧
      rmqtt.decode codec (first :: rest) = (.ok none, after, rest.drop width)
  /-- A header with its whole body is decoded in the same call. -/
  header_whole : ∀ codec first rest width value, rmqtt.state codec = .frameHeader →
    Varint.read maxVarintBytes rest = .number width value → value ≤ rmqtt.maxSize codec →
    width + value ≤ rest.length →
    match rmqtt.decodePacket (rmqtt.version codec) first ((rest.drop width).take value) with
    | .ok packet => ∃ after, rmqtt.Moved codec after .frameHeader ∧
        rmqtt.decode codec (first :: rest) = (.ok (some (packet, value)), after, rest.drop (width + value))
    | .error error => (rmqtt.decode codec (first :: rest)).1 = .error error
  frame_waits : ∀ codec first value src, rmqtt.state codec = .frame first value → src.length < value →
    rmqtt.decode codec src = (.ok none, codec, src)
  frame_whole : ∀ codec first value src, rmqtt.state codec = .frame first value → value ≤ src.length →
    match rmqtt.decodePacket (rmqtt.version codec) first (src.take value) with
    | .ok packet => ∃ after, rmqtt.Moved codec after .frameHeader ∧
        rmqtt.decode codec src = (.ok (some (packet, value)), after, src.drop value)
    | .error error => (rmqtt.decode codec src).1 = .error error

/-! ### A codec that keeps the laws

Framing by the letter of `LawfulFraming`, for any packet decoder, version probe
and encoder. It shows that the laws can be met and runs the examples. -/

section
variable (decodePacket : ProtocolVersion → UInt8 → Bytes → Except DecodeError MqttPacket)
  (decodeVersion : Bytes → Except DecodeError (Option ProtocolVersion) × Bytes)
  (encode : ProtocolVersion → MqttPacket → Option Bytes)

def plainBody (version : ProtocolVersion) (limit : Nat) (first : UInt8) (value : Nat) (src : Bytes) :
    Except DecodeError (Option (MqttPacket × Nat)) × (ProtocolVersion × Nat × DecodeState) × Bytes :=
  if src.length < value then (.ok none, (version, limit, .frame first value), src)
  else match decodePacket version first (src.take value) with
    | .ok packet => (.ok (some (packet, value)), (version, limit, .frameHeader), src.drop value)
    | .error error => (.error error, (version, limit, .frame first value), src.drop value)

def plainDecode : ProtocolVersion × Nat × DecodeState → Bytes →
    Except DecodeError (Option (MqttPacket × Nat)) × (ProtocolVersion × Nat × DecodeState) × Bytes
  | (version, limit, .frame first value), src => plainBody decodePacket version limit first value src
  | (version, limit, .frameHeader), [] => (.ok none, (version, limit, .frameHeader), [])
  | (version, limit, .frameHeader), first :: rest =>
    match Varint.read maxVarintBytes rest with
    | .incomplete => (.ok none, (version, limit, .frameHeader), first :: rest)
    | .overlong => (.error .invalidLength, (version, limit, .frameHeader), first :: rest)
    | .number width value =>
      if limit ≠ 0 ∧ limit < value then (.error .maxSizeExceeded, (version, limit, .frameHeader), first :: rest)
      else plainBody decodePacket version limit first value (rest.drop width)

def plain : Rmqtt where
  Codec := ProtocolVersion × Nat × DecodeState
  new version limit := (version, limit, .frameHeader)
  version codec := codec.1
  maxSize codec := codec.2.1
  state codec := codec.2.2
  decode := plainDecode decodePacket
  decodePacket := decodePacket
  decodeVersion := decodeVersion
  encode := encode

theorem plain_lawful : (plain decodePacket decodeVersion encode).LawfulFraming where
  new_version _ _ := rfl
  new_maxSize _ _ := rfl
  new_state _ _ := rfl
  header_empty := by
    rintro ⟨version, limit, state⟩ rfl
    rfl
  header_incomplete := by
    rintro ⟨version, limit, state⟩ first rest rfl found
    simp [plain, plainDecode, found]
  header_overlong := by
    rintro ⟨version, limit, state⟩ first rest rfl found
    simp [plain, plainDecode, found]
  header_over := by
    rintro ⟨version, limit, state⟩ first rest width value rfl found nonzero exceeds
    have rejected : limit ≠ 0 ∧ limit < value := ⟨nonzero, exceeds⟩
    simp only [plain, plainDecode, found, if_pos rejected]
  header_waits := by
    rintro ⟨version, limit, state⟩ first rest width value rfl found fits short
    have admitted : ¬ (limit ≠ 0 ∧ limit < value) := fun exceeds => absurd fits (by simpa [plain] using exceeds.2)
    have missing : (rest.drop width).length < value := by
      simp only [List.length_drop]
      have := (Varint.read_number found).2.2.1
      omega
    refine ⟨(version, limit, .frame first value), ⟨rfl, rfl, rfl⟩, ?_⟩
    simp only [plain, plainDecode, found, if_neg admitted, plainBody, if_pos missing]
  header_whole := by
    rintro ⟨version, limit, state⟩ first rest width value rfl found fits present
    have admitted : ¬ (limit ≠ 0 ∧ limit < value) := fun exceeds => absurd fits (by simpa [plain] using exceeds.2)
    have enough : ¬ (rest.drop width).length < value := by
      simp only [List.length_drop]
      omega
    simp only [plain, plainDecode, found, if_neg admitted, plainBody, if_neg enough, List.drop_drop]
    cases decodePacket version first ((rest.drop width).take value) with
    | error error => rfl
    | ok packet => exact ⟨(version, limit, .frameHeader), ⟨rfl, rfl, rfl⟩, rfl⟩
  frame_waits := by
    rintro ⟨version, limit, state⟩ first value src rfl short
    simp [plain, plainDecode, plainBody, short]
  frame_whole := by
    rintro ⟨version, limit, state⟩ first value src rfl present
    have enough : ¬ src.length < value := by omega
    simp only [plain, plainDecode, plainBody, if_neg enough]
    cases decodePacket version first (src.take value) with
    | error error => rfl
    | ok packet => exact ⟨(version, limit, .frameHeader), ⟨rfl, rfl, rfl⟩, rfl⟩

end
end Rmqtt
end UringMqtt

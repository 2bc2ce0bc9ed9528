import UringMqtt.Codec.Decoder

/-! The version probe, `src/codec/version.rs`: it reads the protocol version off
the first packet without consuming it, under the inbound packet-size bound. -/

namespace UringMqtt

def protocolNameMqtt : Bytes := [0x4d, 0x51, 0x54, 0x54]
def protocolNameMqisdp : Bytes := [0x4d, 0x51, 0x49, 0x73, 0x64, 0x70]
def protocolNameLenBytes : Nat := 2

/-- `src.get(start..end)`. -/
def slice (src : Bytes) (start finish : Nat) : Option Bytes :=
  if start ≤ finish ∧ finish ≤ src.length then some ((src.drop start).take (finish - start)) else none

theorem slice_eq_some {src part : Bytes} {start finish : Nat} :
    slice src start finish = some part ↔
      ∃ before after, src = before ++ (part ++ after) ∧ before.length = start ∧ start + part.length = finish := by
  unfold slice
  constructor
  · intro found
    split at found
    next inside =>
      cases found
      refine ⟨src.take start, (src.drop start).drop (finish - start), ?_, ?_, ?_⟩
      · rw [List.take_append_drop, List.take_append_drop]
      · rw [List.length_take]
        omega
      · rw [List.length_take, List.length_drop]
        omega
    next => cases found
  · rintro ⟨before, after, rfl, rfl, rfl⟩
    rw [if_pos (by simp), List.drop_left, Nat.add_sub_cancel_left, List.take_left]

/-- Whether the CONNECT at the front names a protocol the version codec accepts,
so that its refusal is about the level. -/
def namesAKnownProtocol (src : Bytes) : Bool :=
  match fixedHeader src with
  | none => false
  | some (headerLen, remainingLength) =>
    if rejectsMalformedFixedHeader src then false
    else
      let nameStart := headerLen + protocolNameLenBytes
      match slice src headerLen nameStart with
      | some [hi, lo] =>
        let nameEnd := nameStart + (hi.toNat * 256 + lo.toNat)
        let frameEnd := headerLen + remainingLength
        decide (nameEnd < frameEnd) &&
          (slice src nameStart nameEnd).any fun name => name == protocolNameMqtt || name == protocolNameMqisdp
      | _ => false

/-- `VersionCodec` as the broker relies on it. -/
structure Rmqtt.LawfulProbe (rmqtt : Rmqtt) : Prop where
  looks : rmqtt.ProbeLooks
  /-- An answer given on a part of the stream is the answer on every longer part. -/
  stable : ∀ src more, (rmqtt.decodeVersion src).1 ≠ .ok none →
    (rmqtt.decodeVersion (src ++ more)).1 = (rmqtt.decodeVersion src).1
  /-- The protocol, its name or its level, is refused only once the level byte is buffered. -/
  level : ∀ src error, (rmqtt.decodeVersion src).1 = .error error →
    error = .invalidProtocol ∨ error = .unsupportedProtocolLevel →
    ∃ headerLen remainingLength hi lo, fixedHeader src = some (headerLen, remainingLength) ∧
      slice src headerLen (headerLen + protocolNameLenBytes) = some [hi, lo] ∧
      headerLen + protocolNameLenBytes + (hi.toNat * 256 + lo.toNat) < src.length

structure VersionDecoder where
  maxInboundPacketSize : MaxInboundPacketSize

namespace VersionDecoder
variable (rmqtt : Rmqtt)

def decode (self : VersionDecoder) (src : Bytes) : Except IoError (Option ProtocolVersion) × Bytes :=
  if self.maxInboundPacketSize.rejectsFixedHeader src then (.error (.decode .maxSizeExceeded), src)
  else match rmqtt.decodeVersion src with
    | (.ok version, rest) => (.ok version, rest)
    | (.error .invalidProtocol, rest) =>
      if namesAKnownProtocol rest then (.error (.decode .unsupportedProtocolLevel), rest)
      else (.error (.decode .invalidProtocol), rest)
    | (.error e, rest) => (.error (.decode e), rest)

/-- monoio-codec's default `decode_eof`: bytes that are left are an error. -/
def decodeEof (self : VersionDecoder) (src : Bytes) : Except IoError (Option ProtocolVersion) × Bytes :=
  match self.decode rmqtt src with
  | (.ok none, rest) => if rest.isEmpty then (.ok none, rest) else (.error .bytesRemaining, rest)
  | answer => answer

end VersionDecoder
end UringMqtt

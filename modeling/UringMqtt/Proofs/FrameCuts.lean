import UringMqtt.Bench.Wire
import UringMqtt.Proofs.VersionProbe

/-! The fixed header of a packet is read back from the shortest way to write it, more
input does not change it, and a stream of the load generator's frames is cut where the
frames end. -/

namespace UringMqtt.Proofs.FrameCuts
open Lib Bench.Wire

def frameOf (first : UInt8) (body : Bytes) : Bytes := first :: (Varint.encode body.length ++ body)

inductive Written : Bytes → Prop
  | connect {clientId : String} {frame : Bytes} (encoded : encodeConnect clientId = some frame) : Written frame
  | publish {qos : UInt8} {packetId : Option NonZeroU16} {payload : Vector UInt8 Bench.payloadBytes} {dst frame : Bytes}
      (encoded : encodePublish dst qos packetId payload = some (dst ++ frame)) : Written frame
  | subscribe {packetId : NonZeroU16} {qos : UInt8} {frame : Bytes}
      (encoded : encodeSubscribe packetId qos = some frame) : Written frame
  | puback (packetId : NonZeroU16) : Written (encodePuback packetId)
  | disconnect : Written disconnect

/-- Cut a stream by the lengths its fixed headers declare, as long as whole packets come. -/
def cut (stream : Bytes) : List Bytes :=
  match _found : packetLen stream with
  | some len => if len ≤ stream.length then stream.take len :: cut (stream.drop len) else []
  | none => []
termination_by stream.length
decreasing_by
  obtain ⟨headerLen, remainingLength, complete, rfl⟩ := packetLen_eq_some.mp _found
  have := fixedHeader_bounds complete
  rw [List.length_drop]
  omega

variable {r : Nat} {first : UInt8} {src : Bytes}

theorem width_le_four (encodable : r ≤ maxRemainingLength) : Varint.width r ≤ maxVarintBytes := by
  refine Varint.width_le (by decide) ?_
  simp only [maxRemainingLength] at encodable
  simp only [maxVarintBytes]
  omega

theorem fixedHeader_encode (encodable : r ≤ maxRemainingLength) (first : UInt8) (tail : Bytes) :
    fixedHeader (first :: (Varint.encode r ++ tail)) = some (1 + varintLen r, r) := by
  rw [fixedHeader_cons, Varint.read_encode (width_le_four encodable), varintLen_eq]

theorem encode_not_malformed (encodable : r ≤ maxRemainingLength) (other : first ≠ pingreqFirstByte) (tail : Bytes) :
    rejectsMalformedFixedHeader (first :: (Varint.encode r ++ tail)) = false := by
  simp [rejectsMalformedFixedHeader, fixedHeader_encode encodable, other]

theorem minimal_of_not_malformed {headerLen : Nat} (complete : fixedHeader src = some (headerLen, r))
    (wellFormed : rejectsMalformedFixedHeader src = false) : (src.take headerLen).drop 1 = Varint.encode r := by
  obtain ⟨first, rest, width, rfl, rfl, found⟩ := fixedHeader_eq_some.mp complete
  have least := Varint.width_le_of_read found
  have most : width ≤ Varint.width r := by
    simp only [rejectsMalformedFixedHeader, complete, Bool.or_eq_false_iff, decide_eq_false_iff_not,
      varintLen_eq] at wellFormed
    omega
  obtain rfl : width = Varint.width r := Nat.le_antisymm most least
  rw [Nat.add_comm, List.take_succ_cons, List.drop_one, List.tail_cons]
  exact Varint.encode_of_read found

private theorem lengthBytes_some {len : Nat} {bytes : Bytes} (fits : lengthBytes len = some bytes) :
    len < 2 ^ 16 ∧ bytes.length = 2 := by
  unfold lengthBytes at fits
  split at fits
  next small =>
    cases fits
    exact ⟨small, rfl⟩
  next => cases fits

private theorem length_topic : (asBytes Bench.topic).length = 10 := by decide +kernel

private theorem Written.framed {frame : Bytes} (written : Written frame) :
    ∃ first body, frame = frameOf first body ∧ body.length ≤ maxRemainingLength := by
  cases written with
  | @connect clientId _ encoded =>
    simp only [encodeConnect, writeVarint_eq, bind, pure] at encoded
    obtain ⟨size, sized, whole⟩ := Option.bind_eq_some_iff.mp encoded
    cases whole
    obtain ⟨small, two⟩ := lengthBytes_some sized
    refine ⟨0x10, [0x00, 0x04, 0x4D, 0x51, 0x54, 0x54, 0x04, 0x02, 0x00, 0x00] ++ size ++ asBytes clientId, ?_, ?_⟩
    · have counted : 12 + (asBytes clientId).length =
          ([0x00, 0x04, 0x4D, 0x51, 0x54, 0x54, 0x04, 0x02, 0x00, 0x00] ++ size ++ asBytes clientId : Bytes).length := by
        simp only [List.length_append, List.length_cons, List.length_nil, two]
      rw [frameOf, ← counted]
      simp
    · simp only [List.length_append, List.length_cons, List.length_nil, two, maxRemainingLength]
      omega
  | @publish qos packetId payload dst _ encoded =>
    simp only [encodePublish, writeVarint_eq, bind, pure] at encoded
    obtain ⟨size, sized, rest⟩ := Option.bind_eq_some_iff.mp encoded
    have two := (lengthBytes_some sized).2
    -- the packet id is there exactly when the length counts it
    obtain ⟨ids, counted, whole⟩ : ∃ ids : Bytes, (ids.length = if qos > 0 then 2 else 0) ∧
        ((0x30 : UInt8) ||| (qos <<< 1)) ::
          (Varint.encode (2 + (asBytes Bench.topic).length + payload.toList.length + if qos > 0 then 2 else 0) ++
            (size ++ asBytes Bench.topic ++ ids ++ payload.toList)) = frame := by
      split at rest
      next above =>
        obtain ⟨named, chosen, whole⟩ := Option.bind_eq_some_iff.mp rest
        obtain ⟨id, _, rfl⟩ := Option.map_eq_some_iff.mp chosen
        refine ⟨idBytes id, by simp [above, idBytes], ?_⟩
        simpa [List.append_assoc, show 0 < qos from above] using whole
      next above =>
        refine ⟨[], by simp [above], ?_⟩
        simpa [List.append_assoc, show ¬ 0 < qos from above] using rest
    have total : 2 + (asBytes Bench.topic).length + payload.toList.length + (if qos > 0 then 2 else 0) =
        (size ++ asBytes Bench.topic ++ ids ++ payload.toList).length := by
      simp only [List.length_append, two, counted]
      omega
    refine ⟨(0x30 : UInt8) ||| (qos <<< 1), size ++ asBytes Bench.topic ++ ids ++ payload.toList, ?_, ?_⟩
    · rw [← whole, frameOf, total]
    · rw [← total, length_topic, Vector.length_toList, Bench.payloadBytes, maxRemainingLength]
      split <;> omega
  | @subscribe packetId qos _ encoded =>
    simp only [encodeSubscribe, writeVarint_eq, bind, pure] at encoded
    obtain ⟨size, sized, whole⟩ := Option.bind_eq_some_iff.mp encoded
    cases whole
    have two := (lengthBytes_some sized).2
    refine ⟨0x82, idBytes packetId ++ size ++ asBytes Bench.topic ++ [qos], ?_, ?_⟩
    · have counted : 2 + 2 + (asBytes Bench.topic).length + 1 =
          (idBytes packetId ++ size ++ asBytes Bench.topic ++ [qos]).length := by
        simp only [List.length_append, List.length_cons, List.length_nil, two, idBytes]
      rw [frameOf, ← counted]
      simp
    · simp [two, idBytes, length_topic, maxRemainingLength]
  | puback packetId =>
    exact ⟨0x40, idBytes packetId, by simp [frameOf, encodePuback, idBytes, Varint.encode], by simp [idBytes, maxRemainingLength]⟩
  | disconnect => exact ⟨0xE0, [], by simp [frameOf, Bench.Wire.disconnect, Varint.encode], by simp⟩

private theorem cut_frame {body : Bytes} (small : body.length ≤ maxRemainingLength) (rest : Bytes) :
    cut (frameOf first body ++ rest) = frameOf first body :: cut rest := by
  have complete : fixedHeader (frameOf first body ++ rest) = some (1 + varintLen body.length, body.length) := by
    rw [frameOf, List.cons_append, List.append_assoc]
    exact fixedHeader_encode small first (body ++ rest)
  have len : packetLen (frameOf first body ++ rest) = some (frameOf first body).length := by
    refine packetLen_eq_some.mpr ⟨_, _, complete, ?_⟩
    rw [frameOf, List.length_cons, List.length_append, Varint.length_encode, varintLen_eq]
    omega
  rw [cut]
  split
  next found =>
    rw [len] at found
    cases found
    rw [if_pos (by simp), List.take_left, List.drop_left]
  next found =>
    rw [len] at found
    cases found

private theorem cut_written {frames : List Bytes} (written : ∀ frame ∈ frames, Written frame) : cut frames.flatten = frames := by
  induction frames with
  | nil =>
    rw [List.flatten_nil, cut]
    rfl
  | cons frame rest ih =>
    obtain ⟨first, body, rfl, small⟩ := (written frame List.mem_cons_self).framed
    rw [List.flatten_cons, cut_frame small, ih fun other member => written other (List.mem_cons_of_mem _ member)]

private theorem rejectsMalformedFixedHeader_mono (rejected : rejectsMalformedFixedHeader src = true) (more : Bytes) :
    rejectsMalformedFixedHeader (src ++ more) = true := by
  cases header : fixedHeader src with
  | none => simp [rejectsMalformedFixedHeader, header] at rejected
  | some found => rw [VersionProbe.rejectsMalformedFixedHeader_append header, rejected]

private theorem holdsCompletePacket_mono (whole : holdsCompletePacket src = true) (more : Bytes) :
    holdsCompletePacket (src ++ more) = true := by
  obtain ⟨headerLen, remainingLength, complete, inside⟩ := (holdsCompletePacket_iff src).mp whole
  refine (holdsCompletePacket_iff _).mpr ⟨headerLen, remainingLength, fixedHeader_append more complete, ?_⟩
  rw [List.length_append]
  omega

/-- Reading a fixed header inverts the shortest way to write it, is stable under more
input, and cuts the load generator's stream at its frames. -/
theorem fixed_header_inverts :
    (∀ r len, Varint.read maxVarintBytes len = .number len.length r → (Varint.encode r).length ≤ len.length) ∧
    (∀ first r tail, r ≤ 268435455 →
      fixedHeader (first :: (Varint.encode r ++ tail)) = some (1 + varintLen r, r) ∧
        (first ≠ 0xC0 → rejectsMalformedFixedHeader (first :: (Varint.encode r ++ tail)) = false)) ∧
    (∀ src headerLen r, fixedHeader src = some (headerLen, r) → rejectsMalformedFixedHeader src = false →
      (src.take headerLen).drop 1 = Varint.encode r) ∧
    (∀ src ext header, fixedHeader src = some header → fixedHeader (src ++ ext) = some header) ∧
    (∀ src ext, (∀ bound : MaxInboundPacketSize, bound.rejectsFixedHeader src = true →
        bound.rejectsFixedHeader (src ++ ext) = true) ∧
      (rejectsMalformedFixedHeader src = true → rejectsMalformedFixedHeader (src ++ ext) = true) ∧
      (holdsCompletePacket src = true → holdsCompletePacket (src ++ ext) = true)) ∧
    (∀ r out, r ≤ 268435455 → writeVarint r out = out ++ Varint.encode r) ∧
    (∀ frames : List Bytes, (∀ frame ∈ frames, Written frame) → cut frames.flatten = frames) := by
  refine ⟨fun r len found => ?_, fun first r tail encodable => ⟨fixedHeader_encode encodable first tail, fun other => ?_⟩,
    fun src headerLen r => minimal_of_not_malformed, fun src ext header => fixedHeader_append ext,
    fun src ext => ⟨fun bound rejected => ?_, fun rejected => ?_, fun whole => ?_⟩,
    fun r out _ => writeVarint_eq r out, fun frames => cut_written⟩
  · rw [Varint.length_encode]
    exact Varint.width_le_of_read found
  · exact encode_not_malformed encodable other tail
  · exact VersionProbe.rejectsFixedHeader_mono bound rejected ext
  · exact rejectsMalformedFixedHeader_mono rejected ext
  · exact holdsCompletePacket_mono whole ext

theorem fixed_header_inverts_acks :
    cut ([encodePuback ⟨7, by decide⟩, disconnect].flatten) = [[0x40, 0x02, 0x00, 0x07], [0xE0, 0x00]] := by
  obtain ⟨_, _, _, _, _, _, cuts⟩ := fixed_header_inverts
  refine cuts [encodePuback ⟨7, by decide⟩, disconnect] fun frame member => ?_
  rcases List.mem_cons.mp member with rfl | last
  · exact .puback _
  · rw [List.mem_singleton.mp last]
    exact .disconnect

end UringMqtt.Proofs.FrameCuts

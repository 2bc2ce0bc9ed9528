import UringMqtt.Codec.Packets
import UringMqtt.Lib.Checked
import UringMqtt.Lib.Varint

/-! The fixed header of a packet as `src/codec/mqtt.rs` reads it: one type byte
and a Remaining Length varint of at most four bytes. Lengths are natural
numbers; a Remaining Length stays below 2^28, so no `u32` or `u64` sum of the
source wraps. -/

namespace UringMqtt
open Lib

def minInboundPacketSize : Nat := 3
def maxRemainingLength : Nat := 268435455
def maxInboundPacketSize : Nat := 268435460
def varintPayloadBits : Nat := 7
def varintPayloadMask : UInt8 := 0x7F
def varintContinuationBit : UInt8 := 0x80
def maxVarintBytes : Nat := 4
def pingreqFirstByte : UInt8 := 0xC0

def varintLenLoop (len rest : Nat) : Nat :=
  if rest > 0 then varintLenLoop (len + 1) (rest >>> varintPayloadBits) else len
termination_by rest
decreasing_by
  simp only [varintPayloadBits, Nat.shiftRight_eq_div_pow]
  omega

def varintLen (r : Nat) : Nat := varintLenLoop 1 (r >>> varintPayloadBits)

/-- A bound that `MaxInboundPacketSize::new` accepted. -/
structure MaxInboundPacketSize where
  bytes : Nat
  floor : minInboundPacketSize ≤ bytes
  ceiling : bytes ≤ maxInboundPacketSize

namespace MaxInboundPacketSize

def new (bytes : Nat) : Option MaxInboundPacketSize :=
  if refused : bytes < minInboundPacketSize ∨ bytes > maxInboundPacketSize then none
  else some ⟨bytes, by omega, by omega⟩

/-- `MaxInboundPacketSize::DEFAULT`, 128 KiB. -/
def default : MaxInboundPacketSize := ⟨131072, by decide, by decide⟩

def get (bound : MaxInboundPacketSize) : Nat := bound.bytes

/-- The countdown of `remaining_length_limit`. It never reaches zero, because a
bound is at least three bytes, so the source's decrement cannot underflow. -/
def remainingLengthLimitLoop (bytes : Nat) : Nat → Nat
  | 0 => 0
  | r + 1 =>
    if 1 + varintLen (r + 1) + (r + 1) > bytes then remainingLengthLimitLoop bytes r else r + 1

def remainingLengthLimit (bound : MaxInboundPacketSize) : Nat :=
  remainingLengthLimitLoop bound.bytes (min (bound.bytes - 2) maxRemainingLength)

end MaxInboundPacketSize

/-! `remaining_length_limit` once more on `u32`, where an operation that leaves the range
is a panic and `none`. -/

def varintLenCheckedLoop (len rest : Nat) : Option Nat :=
  if rest > 0 then
    (Checked.add 32 len 1).bind fun len => varintLenCheckedLoop len (rest >>> varintPayloadBits)
  else some len
termination_by rest
decreasing_by
  simp only [varintPayloadBits, Nat.shiftRight_eq_div_pow]
  omega

def varintLenChecked (r : Nat) : Option Nat := varintLenCheckedLoop 1 (r >>> varintPayloadBits)

def exceedsChecked (bytes r : Nat) : Option Bool := do
  let total ← Checked.add 32 (← Checked.add 32 1 (← varintLenChecked r)) r
  return decide (total > bytes)

def remainingLengthLimitCheckedLoop (bytes : Nat) : Nat → Option Nat
  | 0 => (exceedsChecked bytes 0).bind fun exceeds => if exceeds then none else some 0
  | r + 1 =>
    (exceedsChecked bytes (r + 1)).bind fun exceeds =>
      if exceeds then remainingLengthLimitCheckedLoop bytes r else some (r + 1)

def remainingLengthLimitChecked (bytes : Nat) : Option Nat := do
  let start ← Checked.sub bytes 2
  remainingLengthLimitCheckedLoop bytes (min start maxRemainingLength)

def fixedHeaderLoop (i remainingLength : Nat) : Bytes → Option (Nat × Nat)
  | [] => none
  | byte :: rest =>
    let remainingLength :=
      remainingLength ||| ((byte &&& varintPayloadMask).toNat <<< (varintPayloadBits * i))
    if byte &&& varintContinuationBit = 0 then some (2 + i, remainingLength)
    else fixedHeaderLoop (i + 1) remainingLength rest

def fixedHeader (src : Bytes) : Option (Nat × Nat) :=
  fixedHeaderLoop 0 0 ((src.drop 1).take maxVarintBytes)

def packetLen (src : Bytes) : Option Nat :=
  (fixedHeader src).map fun (headerLen, remainingLength) => headerLen + remainingLength

def MaxInboundPacketSize.rejectsFixedHeader (bound : MaxInboundPacketSize) (src : Bytes) : Bool :=
  (packetLen src).any fun len => decide (len > bound.bytes)

def holdsCompletePacket (src : Bytes) : Bool :=
  (packetLen src).any fun len => decide (src.length ≥ len)

def rejectsMalformedFixedHeader (src : Bytes) : Bool :=
  match fixedHeader src with
  | none => false
  | some (headerLen, remainingLength) =>
    let pingreqWithBody := src.head? == some pingreqFirstByte && remainingLength != 0
    let nonMinimal := decide (headerLen - 1 > varintLen remainingLength)
    pingreqWithBody || nonMinimal

/-! ### What the loops compute -/

private theorem varintLenLoop_eq (len rest : Nat) :
    varintLenLoop len rest = if rest = 0 then len else len + Varint.width rest := by
  induction rest using Nat.strongRecOn generalizing len with
  | ind rest ih =>
    rw [varintLenLoop]
    by_cases empty : rest = 0
    · simp [empty]
    · have shifted : rest >>> varintPayloadBits = rest / 128 := by
        simp [varintPayloadBits, Nat.shiftRight_eq_div_pow]
      rw [if_pos (by omega), shifted, ih (rest / 128) (by omega), if_neg empty]
      conv_rhs => rw [Varint.width]
      by_cases small : rest < 128
      · simp [small]
      · have more : rest / 128 ≠ 0 := by omega
        rw [if_neg more, if_neg small]
        omega

theorem varintLen_eq (r : Nat) : varintLen r = Varint.width r := by
  rw [varintLen, varintLenLoop_eq]
  simp only [varintPayloadBits, Nat.shiftRight_eq_div_pow]
  conv_rhs => rw [Varint.width]
  by_cases small : r < 128
  · simp [small]
  · have more : r / 2 ^ 7 ≠ 0 := by omega
    rw [if_neg more, if_neg small]
    simp [Nat.add_comm]

private theorem payload_toNat (byte : UInt8) : (byte &&& varintPayloadMask).toNat = byte.toNat % 128 := by
  rw [UInt8.toNat_and]
  exact Nat.and_two_pow_sub_one_eq_mod byte.toNat 7

private theorem continuation_clear (byte : UInt8) : byte &&& varintContinuationBit = 0 ↔ byte.toNat < 128 := by
  have table : ∀ value : Fin 256, (UInt8.ofNat value.val &&& varintContinuationBit = 0 ↔ value.val < 128) := by
    decide +kernel
  have found := table ⟨byte.toNat, byte.toNat_lt⟩
  simpa using found

private theorem fixedHeaderLoop_eq (limit i collected : Nat) (src : Bytes) (below : collected < 2 ^ (7 * i)) :
    fixedHeaderLoop i collected (src.take limit) =
      match Varint.read limit src with
      | .number width value => some (1 + i + width, collected + 2 ^ (7 * i) * value)
      | _ => none := by
  induction limit generalizing i collected src with
  | zero => simp [fixedHeaderLoop, Varint.read]
  | succ limit ih =>
    cases src with
    | nil => simp [fixedHeaderLoop, Varint.read]
    | cons byte rest =>
      have joined : collected ||| ((byte &&& varintPayloadMask).toNat <<< (varintPayloadBits * i)) =
          collected + 2 ^ (7 * i) * (byte.toNat % 128) := by
        rw [payload_toNat, varintPayloadBits, Nat.shiftLeft_eq, Nat.or_comm, Nat.mul_comm,
          ← Nat.two_pow_add_eq_or_of_lt below]
        omega
      have grown : collected + 2 ^ (7 * i) * (byte.toNat % 128) < 2 ^ (7 * (i + 1)) := by
        have group : byte.toNat % 128 ≤ 127 := by omega
        have scaled := Nat.mul_le_mul_left (2 ^ (7 * i)) group
        have next : 2 ^ (7 * (i + 1)) = 2 ^ (7 * i) * 128 := by rw [Nat.mul_add, Nat.pow_add]
        omega
      rw [List.take_succ_cons, fixedHeaderLoop, Varint.read]
      simp only [continuation_clear, joined]
      by_cases last : byte.toNat < 128
      · rw [if_pos last, if_pos last, Nat.mod_eq_of_lt last]
        simp only [Option.some.injEq, Prod.mk.injEq, and_true]
        omega
      · rw [if_neg last, if_neg last, ih (i + 1) _ rest grown]
        cases Varint.read limit rest with
        | incomplete => rfl
        | overlong => rfl
        | number width value =>
          simp only [Option.some.injEq, Prod.mk.injEq]
          refine ⟨by omega, ?_⟩
          have next : 2 ^ (7 * (i + 1)) = 2 ^ (7 * i) * 128 := by rw [Nat.mul_add, Nat.pow_add]
          rw [next]
          ring

theorem fixedHeader_nil : fixedHeader [] = none := rfl

theorem fixedHeader_cons (first : UInt8) (rest : Bytes) :
    fixedHeader (first :: rest) =
      match Varint.read maxVarintBytes rest with
      | .number width value => some (1 + width, value)
      | _ => none := by
  have read := fixedHeaderLoop_eq maxVarintBytes 0 0 rest (by decide)
  simpa [fixedHeader] using read

theorem fixedHeader_eq_some {src : Bytes} {headerLen remainingLength : Nat} :
    fixedHeader src = some (headerLen, remainingLength) ↔
      ∃ first rest width, src = first :: rest ∧ headerLen = 1 + width ∧
        Varint.read maxVarintBytes rest = .number width remainingLength := by
  cases src with
  | nil => simp [fixedHeader_nil]
  | cons first rest =>
    rw [fixedHeader_cons]
    cases found : Varint.read maxVarintBytes rest with
    | incomplete => simp [found]
    | overlong => simp [found]
    | number width value =>
      simp only [Option.some.injEq, Prod.mk.injEq, List.cons.injEq]
      constructor
      · rintro ⟨rfl, rfl⟩
        exact ⟨first, rest, width, ⟨rfl, rfl⟩, rfl, found⟩
      · rintro ⟨_, _, other, ⟨rfl, rfl⟩, rfl, same⟩
        rw [found] at same
        cases same
        exact ⟨rfl, rfl⟩

theorem fixedHeader_append {src : Bytes} {header : Nat × Nat} (more : Bytes)
    (complete : fixedHeader src = some header) : fixedHeader (src ++ more) = some header := by
  obtain ⟨first, rest, width, rfl, same, found⟩ := fixedHeader_eq_some.mp complete
  exact fixedHeader_eq_some.mpr ⟨first, rest ++ more, width, rfl, same, Varint.read_number_append more found⟩

theorem fixedHeader_bounds {src : Bytes} {headerLen remainingLength : Nat}
    (complete : fixedHeader src = some (headerLen, remainingLength)) :
    2 ≤ headerLen ∧ headerLen ≤ 5 ∧ headerLen ≤ src.length ∧ remainingLength ≤ maxRemainingLength ∧
      1 + varintLen remainingLength ≤ headerLen := by
  obtain ⟨first, rest, width, rfl, rfl, found⟩ := fixedHeader_eq_some.mp complete
  obtain ⟨positive, limited, inside, fits⟩ := Varint.read_number found
  have minimal := Varint.width_le_of_read found
  have widest : 128 ^ width ≤ 128 ^ maxVarintBytes := Nat.pow_le_pow_right (by decide) limited
  simp only [maxVarintBytes] at limited widest
  refine ⟨by omega, by omega, by simpa [Nat.add_comm] using inside, ?_, by rw [varintLen_eq]; omega⟩
  simp only [maxRemainingLength]
  omega

theorem packetLen_eq_some {src : Bytes} {len : Nat} :
    packetLen src = some len ↔
      ∃ headerLen remainingLength, fixedHeader src = some (headerLen, remainingLength) ∧
        len = headerLen + remainingLength := by
  simp only [packetLen, Option.map_eq_some_iff, Prod.exists]
  constructor
  · rintro ⟨headerLen, remainingLength, found, rfl⟩
    exact ⟨headerLen, remainingLength, found, rfl⟩
  · rintro ⟨headerLen, remainingLength, found, rfl⟩
    exact ⟨headerLen, remainingLength, found, rfl⟩

theorem holdsCompletePacket_iff (src : Bytes) :
    holdsCompletePacket src = true ↔
      ∃ headerLen remainingLength, fixedHeader src = some (headerLen, remainingLength) ∧
        headerLen + remainingLength ≤ src.length := by
  simp only [holdsCompletePacket, packetLen]
  cases fixedHeader src with
  | none => simp
  | some header =>
    obtain ⟨headerLen, remainingLength⟩ := header
    simp

namespace MaxInboundPacketSize

private theorem le_limitLoop {bytes start r : Nat} (le : r ≤ start) (fits : 1 + varintLen r + r ≤ bytes) :
    r ≤ remainingLengthLimitLoop bytes start := by
  induction start with
  | zero => omega
  | succ start ih =>
    rw [remainingLengthLimitLoop]
    split
    next large =>
      apply ih
      by_cases same : r = start + 1
      · subst r
        omega
      · omega
    next => exact le

/-- The codec's own limit admits every Remaining Length whose packet fits the
bound, so the limit never rejects what the header check let through. -/
theorem le_remainingLengthLimit (bound : MaxInboundPacketSize) {headerLen r : Nat}
    (minimal : 1 + varintLen r ≤ headerLen) (encodable : r ≤ maxRemainingLength)
    (fits : headerLen + r ≤ bound.bytes) : r ≤ bound.remainingLengthLimit := by
  have width : 0 < varintLen r := by rw [varintLen_eq]; exact Varint.width_pos r
  exact le_limitLoop (by omega) (by omega)

end MaxInboundPacketSize
end UringMqtt

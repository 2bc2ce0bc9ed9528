import UringMqtt.Proofs.Framing
import Mathlib.Order.Bounds.Basic

/-! The bound on a packet and the limit on its Remaining Length agree: the limit is the
longest body that fits, computed without leaving the range of `u32`. -/

namespace UringMqtt.Proofs.InboundLimit
open Lib

/-! ### The arithmetic stays in range -/

private theorem varintLenCheckedLoop_eq {len rest : Nat} (small : len + rest < 2 ^ 32) :
    varintLenCheckedLoop len rest = some (varintLenLoop len rest) := by
  induction rest using Nat.strongRecOn generalizing len with
  | ind rest ih =>
    rw [varintLenCheckedLoop, varintLenLoop]
    split
    next more =>
      have shifted : rest >>> varintPayloadBits = rest / 128 := Nat.shiftRight_eq_div_pow rest 7
      rw [Checked.add_some (by omega), Option.bind_some, shifted]
      exact ih (rest / 128) (by omega) (by omega)
    next => rfl

variable {bytes r headerLen : Nat} {src : Bytes}

private theorem exceedsChecked_eq (encodable : r ≤ maxRemainingLength) :
    exceedsChecked bytes r = some (decide (1 + varintLen r + r > bytes)) := by
  simp only [maxRemainingLength] at encodable
  have shifted : r >>> varintPayloadBits = r / 128 := Nat.shiftRight_eq_div_pow r 7
  have len : varintLenChecked r = some (varintLen r) := varintLenCheckedLoop_eq (by omega)
  have narrow : varintLen r ≤ 4 := by
    rw [varintLen_eq]
    exact Varint.width_le (by decide) (by omega)
  simp only [exceedsChecked, len, bind, Option.bind_some]
  rw [Checked.add_some (by omega), Option.bind_some, Checked.add_some (by omega)]
  rfl

private theorem limitLoopChecked_eq (floor : minInboundPacketSize ≤ bytes) (encodable : r ≤ maxRemainingLength) :
    remainingLengthLimitCheckedLoop bytes r = some (MaxInboundPacketSize.remainingLengthLimitLoop bytes r) := by
  induction r with
  | zero =>
    have stops : ¬ 1 + varintLen 0 + 0 > bytes := by
      have one : varintLen 0 = 1 := by rw [varintLen_eq, Varint.width]; rfl
      simp only [minInboundPacketSize] at floor
      omega
    rw [remainingLengthLimitCheckedLoop, exceedsChecked_eq encodable, Option.bind_some, decide_eq_false stops]
    rfl
  | succ r ih =>
    rw [remainingLengthLimitCheckedLoop, exceedsChecked_eq encodable, Option.bind_some,
      MaxInboundPacketSize.remainingLengthLimitLoop]
    by_cases exceeds : 1 + varintLen (r + 1) + (r + 1) > bytes
    · rw [decide_eq_true exceeds, if_pos rfl, if_pos exceeds]
      exact ih (by omega)
    · rw [decide_eq_false exceeds, if_neg exceeds]
      rfl

section
variable (bound : MaxInboundPacketSize)

private theorem remainingLengthLimitChecked_eq :
    remainingLengthLimitChecked bound.bytes = some bound.remainingLengthLimit := by
  have floor := bound.floor
  simp only [minInboundPacketSize] at floor
  simp only [remainingLengthLimitChecked, bind]
  rw [Checked.sub_some (by omega), Option.bind_some]
  exact limitLoopChecked_eq bound.floor (Nat.min_le_right _ _)

/-! ### The limit is the longest body that fits -/

private theorem limitLoop_fits {bytes start : Nat} (floor : minInboundPacketSize ≤ bytes) :
    MaxInboundPacketSize.remainingLengthLimitLoop bytes start ≤ start ∧
      1 + varintLen (MaxInboundPacketSize.remainingLengthLimitLoop bytes start) +
        MaxInboundPacketSize.remainingLengthLimitLoop bytes start ≤ bytes := by
  induction start with
  | zero =>
    have one : varintLen 0 = 1 := by rw [varintLen_eq, Varint.width]; rfl
    simp only [minInboundPacketSize] at floor
    simp only [MaxInboundPacketSize.remainingLengthLimitLoop, one]
    omega
  | succ start ih =>
    rw [MaxInboundPacketSize.remainingLengthLimitLoop]
    split
    next => exact ⟨Nat.le_succ_of_le ih.1, ih.2⟩
    next fits => exact ⟨Nat.le_refl _, Nat.le_of_not_lt fits⟩

theorem limit_greatest :
    IsGreatest {r | 1 ≤ r ∧ r ≤ 268435455 ∧ 1 + varintLen r + r ≤ bound.bytes} bound.remainingLengthLimit := by
  have floor := bound.floor
  simp only [minInboundPacketSize] at floor
  obtain ⟨start, fits⟩ := @limitLoop_fits bound.bytes (min (bound.bytes - 2) maxRemainingLength) bound.floor
  have one : varintLen 1 = 1 := by rw [varintLen_eq, Varint.width]; rfl
  refine ⟨⟨?_, start.trans (Nat.min_le_right _ _), fits⟩, ?_⟩
  · exact bound.le_remainingLengthLimit (Nat.le_refl _) (by decide) (by omega)
  · rintro r ⟨_, encodable, within⟩
    exact bound.le_remainingLengthLimit (Nat.le_refl _) encodable within

/-! ### The two checks -/

theorem rejectsFixedHeader_false_iff (complete : fixedHeader src = some (headerLen, r)) :
    bound.rejectsFixedHeader src = false ↔ headerLen + r ≤ bound.bytes := by
  simp [MaxInboundPacketSize.rejectsFixedHeader, packetLen, complete]

theorem admitted_le_limit
    (complete : fixedHeader src = some (headerLen, r)) (admitted : bound.rejectsFixedHeader src = false) :
    r ≤ bound.remainingLengthLimit := by
  obtain ⟨_, _, _, encodable, minimal⟩ := fixedHeader_bounds complete
  exact bound.le_remainingLengthLimit minimal encodable ((rejectsFixedHeader_false_iff bound complete).mp admitted)

private theorem minimal_admitted_iff (complete : fixedHeader src = some (headerLen, r)) (minimal : headerLen = 1 + varintLen r) :
    bound.rejectsFixedHeader src = false ↔ r ≤ bound.remainingLengthLimit := by
  refine ⟨admitted_le_limit bound complete, fun below => ?_⟩
  obtain ⟨⟨_, _, fits⟩, _⟩ := limit_greatest bound
  have shorter : varintLen r ≤ varintLen bound.remainingLengthLimit := by
    rw [varintLen_eq, varintLen_eq]
    exact Varint.width_mono below
  rw [rejectsFixedHeader_false_iff bound complete]
  omega

end

private theorem admitted_decodes {rmqtt : Rmqtt} (lawful : rmqtt.LawfulFraming) (version : ProtocolVersion)
    (bound : MaxInboundPacketSize) (complete : fixedHeader src = some (headerLen, r))
    (admitted : bound.rejectsFixedHeader src = false) :
    (rmqtt.decode (MqttDecoder.new rmqtt version bound).inner src).1 =
      if src.length < headerLen + r then .ok none
      else (rmqtt.decodePacket version (src.headD 0) ((src.drop headerLen).take r)).map fun packet => some (packet, r) := by
  have below := admitted_le_limit bound complete admitted
  obtain ⟨first, rest, width, rfl, rfl, found⟩ := fixedHeader_eq_some.mp complete
  have state := lawful.new_state version bound.remainingLengthLimit
  have limit : r ≤ rmqtt.maxSize (rmqtt.new version bound.remainingLengthLimit) := by rwa [lawful.new_maxSize]
  simp only [MqttDecoder.new, List.length_cons, List.headD_cons, Nat.add_comm 1 width, List.drop_succ_cons]
  split
  next short =>
    obtain ⟨after, _, called⟩ := lawful.header_waits _ first rest width r state found limit (by omega)
    rw [called]
  next whole =>
    have called := lawful.header_whole _ first rest width r state found limit (by omega)
    rw [lawful.new_version] at called
    cases decoded : rmqtt.decodePacket version first ((rest.drop width).take r) with
    | error error =>
      simp only [decoded] at called
      exact called
    | ok packet =>
      simp only [decoded] at called
      obtain ⟨after, _, called⟩ := called
      rw [called]
      rfl

/-- One bound, two checks. The limit on the Remaining Length is the longest body whose packet
fits into the bound; the check of the fixed header refuses every longer body, and no other if
the length is written minimally; what passes it is never too large for the codec. -/
theorem inbound_limits_agree {bytes : Nat} {bound : MaxInboundPacketSize}
    (accepted : MaxInboundPacketSize.new bytes = some bound) :
    ∃ limit, remainingLengthLimitChecked bytes = some limit ∧ bound.remainingLengthLimit = limit ∧
      IsGreatest {r | 1 ≤ r ∧ r ≤ 268435455 ∧ 1 + varintLen r + r ≤ bytes} limit ∧
      (∀ src headerLen r, fixedHeader src = some (headerLen, r) → bound.rejectsFixedHeader src = false →
        headerLen + r ≤ bytes ∧ r ≤ limit) ∧
      (∀ src headerLen r, fixedHeader src = some (headerLen, r) → headerLen = 1 + varintLen r →
        (bound.rejectsFixedHeader src = false ↔ r ≤ limit)) ∧
      ∀ (rmqtt : Rmqtt) (version : ProtocolVersion), rmqtt.LawfulFraming →
        rmqtt.maxSize (MqttDecoder.new rmqtt version bound).inner = limit ∧
        ∀ src headerLen r, fixedHeader src = some (headerLen, r) → bound.rejectsFixedHeader src = false →
          (rmqtt.decode (MqttDecoder.new rmqtt version bound).inner src).1 =
            if src.length < headerLen + r then .ok none
            else (rmqtt.decodePacket version (src.headD 0) ((src.drop headerLen).take r)).map
              fun packet => some (packet, r) := by
  obtain rfl : bound.bytes = bytes := by
    unfold MaxInboundPacketSize.new at accepted
    split at accepted
    · cases accepted
    · cases accepted
      rfl
  refine ⟨bound.remainingLengthLimit, remainingLengthLimitChecked_eq bound, rfl, limit_greatest bound,
    fun src headerLen r complete admitted => ⟨?_, admitted_le_limit bound complete admitted⟩,
    fun src headerLen r => minimal_admitted_iff bound, fun rmqtt version lawful => ⟨lawful.new_maxSize _ _, ?_⟩⟩
  · exact (rejectsFixedHeader_false_iff bound complete).mp admitted
  · exact fun src headerLen r => admitted_decodes lawful version bound

theorem inbound_limits_agree_smallest :
    ∃ limit, remainingLengthLimitChecked 3 = some limit ∧
      IsGreatest {r | 1 ≤ r ∧ r ≤ 268435455 ∧ 1 + varintLen r + r ≤ 3} limit := by
  obtain ⟨limit, checked, _, greatest, _⟩ := @inbound_limits_agree 3 ⟨3, by decide, by decide⟩ rfl
  exact ⟨limit, checked, greatest⟩

end UringMqtt.Proofs.InboundLimit

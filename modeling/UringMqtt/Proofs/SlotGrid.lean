import UringMqtt.Bench.Schedule
import UringMqtt.Lib.Firsts
import Mathlib.Data.Set.Card
import Mathlib.Order.Interval.Finset.Nat

/-! The slots of the schedule. Due times round down and the closed-form counts round
up, and the two agree: a slot is due before a time exactly if its number is below the
count for that time. -/

namespace UringMqtt.Bench
open Lib

/-- The number of slots due before `limitNs` after the origin. -/
def dueCount (rate limitNs : Nat) : Nat := limitNs * rate ⌈/⌉ 1000000000

variable {rate limitNs j connId connections bound : Nat}

theorem lt_dueCount : j < dueCount rate limitNs ↔ j * 1000000000 < limitNs * rate := by
  rw [dueCount, ← Nat.not_le, ceilDiv_le_iff_le_smul (by decide), Nat.not_le, smul_eq_mul, Nat.mul_comm]

private theorem dueCount_mono {laterNs : Nat} (later : limitNs ≤ laterNs) :
    dueCount rate limitNs ≤ dueCount rate laterNs := by
  apply Nat.le_of_not_lt
  intro above
  have reached := Nat.lt_of_lt_of_le (lt_dueCount.mp above) (Nat.mul_le_mul_right rate later)
  exact Nat.lt_irrefl _ (lt_dueCount.mpr reached)

private theorem div_lt_iff_lt_dueCount (positive : 0 < rate) :
    j * 1000000000 / rate < limitNs ↔ j < dueCount rate limitNs := by
  rw [lt_dueCount, Nat.div_lt_iff_lt_mul positive]

theorem lt_ownSlotCount {slotK : Nat} (some : 0 < connections) :
    slotK < ownSlotCount connId connections bound ↔ connId + slotK * connections < bound := by
  rw [ownSlotCount, ← Nat.not_le, ceilDiv_le_iff_le_smul some, Nat.not_le, smul_eq_mul, Nat.mul_comm]
  omega

theorem saturatingMul128_exact {one two : Nat} (small : one ≤ u64Max) (also : two ≤ u64Max) :
    saturatingMul128 one two = one * two := by
  apply Nat.min_eq_left
  calc one * two ≤ u64Max * u64Max := Nat.mul_le_mul small also
    _ ≤ 2 ^ 128 - 1 := by decide

section Due
variable {connId slotK connections rate originNs limitNs : Nat} (positive : 0 < rate) (small : rate ≤ u64Max)
include positive small

theorem slotDueNs_fits (fits : (connId + slotK * connections) * 1000000000 / rate ≤ u64Max) :
    slotDueNs connId slotK connections rate originNs =
      some (saturatingAdd originNs ((connId + slotK * connections) * 1000000000 / rate)) := by
  have scaled : (connId + slotK * connections) * 1000000000 < 2 ^ 64 * u64Max :=
    calc (connId + slotK * connections) * 1000000000
      _ < 2 ^ 64 * rate := (Nat.div_lt_iff_lt_mul positive).mp (Nat.lt_succ_of_le fits)
      _ ≤ 2 ^ 64 * u64Max := Nat.mul_le_mul_left _ small
  have exact : saturatingMul128 (connId + slotK * connections) 1000000000 = (connId + slotK * connections) * 1000000000 :=
    Nat.min_eq_left (Nat.le_trans (Nat.le_of_lt scaled) (by decide))
  simp only [slotDueNs, if_neg (Nat.ne_of_gt positive), exact, if_neg (Nat.not_lt.mpr fits)]

private theorem slotDueNs_panics (large : u64Max < (connId + slotK * connections) * 1000000000 / rate) :
    slotDueNs connId slotK connections rate originNs = none := by
  have above : u64Max < saturatingMul128 (connId + slotK * connections) 1000000000 / rate := by
    rw [Nat.lt_iff_add_one_le, Nat.le_div_iff_mul_le positive] at large ⊢
    refine Nat.le_min.mpr ⟨large, ?_⟩
    calc (u64Max + 1) * rate ≤ (u64Max + 1) * u64Max := Nat.mul_le_mul_left _ small
      _ ≤ 2 ^ 128 - 1 := by decide
  simp only [slotDueNs, if_neg (Nat.ne_of_gt positive), if_pos above]

theorem due_before_iff (limit : limitNs ≤ u64Max) :
    (∃ due, slotDueNs connId slotK connections rate originNs = some due ∧ due < limitNs) ↔
      connId + slotK * connections < dueCount rate (limitNs - originNs) := by
  rw [← div_lt_iff_lt_dueCount positive]
  by_cases fits : (connId + slotK * connections) * 1000000000 / rate ≤ u64Max
  · rw [slotDueNs_fits positive small fits]
    generalize (connId + slotK * connections) * 1000000000 / rate = offset
    simp only [Option.some.injEq, exists_eq_left', saturatingAdd]
    omega
  · rw [slotDueNs_panics positive small (Nat.not_le.mp fits)]
    simp only [reduceCtorEq, false_and, exists_false, false_iff]
    omega

end Due

namespace GenConfig
variable (config : GenConfig) (connId : UInt32) (rate : Nat)

def ownSlots : Nat := ownSlotCount connId.toNat config.connections.toNat (config.windowDueJCount rate)

/-- Every slot offset the run computes fits in 64 bits. -/
def SlotsFit : Prop :=
  slotGridEndNs config.window - config.originNs.toNat + config.connections.toNat * 1000000000 / rate < 2 ^ 64

structure Paced : Prop where
  positive : 0 < rate
  small : rate ≤ u64Max
  connected : 0 < config.connections.toNat
  proper : config.window.startNs < config.window.endNs
  after : config.originNs.toNat ≤ config.window.startNs
  countable : config.windowDueJCount rate ≤ u64Max

variable {config connId rate}

theorem gridEnd_le : slotGridEndNs config.window ≤ u64Max := by
  have ends := config.window_fits
  unfold slotGridEndNs
  omega

theorem windowDueJCount_eq (small : rate ≤ u64Max) :
    config.windowDueJCount rate = dueCount rate (slotGridEndNs config.window - config.originNs.toNat) := by
  have reach := config.gridEnd_le
  rw [windowDueJCount, scheduledSlots, saturatingMul128_exact (by omega) small]
  rfl

namespace Paced
variable (paced : config.Paced rate)
include paced

variable {slotK : Nat}

theorem lt_ownSlots : slotK < config.ownSlots connId rate ↔
    ∃ due, slotDueNs connId.toNat slotK config.connections.toNat rate config.originNs.toNat = some due ∧
      due < slotGridEndNs config.window := by
  rw [ownSlots, lt_ownSlotCount paced.connected, windowDueJCount_eq paced.small]
  exact (due_before_iff paced.positive paced.small config.gridEnd_le).symm

theorem ownSlots_le : config.ownSlots connId rate ≤ u64Max := by
  refine Nat.le_trans ?_ paced.countable
  by_contra above
  have inside := (lt_ownSlotCount paced.connected).mp (Nat.not_le.mp above)
  have grows := Nat.le_mul_of_pos_right (config.windowDueJCount rate) paced.connected
  omega

theorem due_fits (fits : config.SlotsFit rate) (inside : slotK ≤ config.ownSlots connId rate)
    (member : connId < config.connections) :
    ∃ due, slotDueNs connId.toNat slotK config.connections.toNat rate config.originNs.toNat = some due := by
  have own : connId.toNat < config.connections.toNat := member
  refine ⟨_, slotDueNs_fits paced.positive paced.small (Nat.le_of_lt_succ (Nat.lt_of_le_of_lt ?_ fits))⟩
  cases slotK with
  | zero =>
    refine Nat.le_trans (Nat.div_le_div_right ?_) (Nat.le_add_left _ _)
    omega
  | succ before =>
    have counted : connId.toNat + before * config.connections.toNat < config.windowDueJCount rate :=
      (lt_ownSlotCount paced.connected).mp (Nat.lt_of_succ_le inside)
    rw [windowDueJCount_eq paced.small, lt_dueCount] at counted
    rw [← Nat.mul_add_div paced.positive, Nat.mul_comm rate]
    apply Nat.div_le_div_right
    rw [Nat.succ_mul]
    omega

end Paced

theorem paced_of_validate {rate : UInt64} (mode : config.mode = .latency rate) (valid : config.validate = .ok ()) :
    config.Paced rate.toNat := by
  have small : rate.toNat ≤ u64Max := Nat.le_of_lt_succ rate.toNat_lt
  unfold validate at valid
  split at valid
  · cases valid
  split at valid
  · cases valid
  next members =>
  split at valid
  · cases valid
  split at valid
  · cases valid
  next rated =>
  split at valid
  · cases valid
  next proper =>
  split at valid
  · cases valid
  next after =>
  simp only [validateRate, mode] at rated
  split at rated
  · cases rated
  next positive =>
  split at rated
  · cases rated
  next countable =>
  refine ⟨?_, small, ?_, Nat.not_le.mp proper, Nat.not_lt.mp after, Nat.not_lt.mp countable⟩
  · exact Nat.pos_of_ne_zero fun zero => positive (UInt64.toNat_inj.mp zero)
  · exact Nat.pos_of_ne_zero fun zero => members (.inl (UInt32.toNat_inj.mp zero))

end GenConfig

private theorem ownSlotCount_succ (member : connId < connections) :
    ownSlotCount connId connections (bound + 1) =
      ownSlotCount connId connections bound + if bound % connections = connId then 1 else 0 := by
  unfold ownSlotCount
  by_cases below : bound < connId
  · have apart : bound % connections ≠ connId := by
      rw [Nat.mod_eq_of_lt (Nat.lt_trans below member)]
      exact Nat.ne_of_lt below
    rw [if_neg apart, Nat.sub_eq_zero_of_le below, Nat.sub_eq_zero_of_le (Nat.le_of_lt below), Nat.add_zero]
  · have positive : 0 < connections := Nat.zero_lt_of_lt member
    have reached := Nat.not_lt.mp below
    have next : bound + 1 - connId + connections - 1 = bound - connId + connections - 1 + 1 := by omega
    have own : connections ∣ bound - connId + connections - 1 + 1 ↔ bound % connections = connId := by
      have whole : bound - connId + connections - 1 + 1 = bound - connId + connections := by omega
      rw [whole, Nat.dvd_add_self_right, ← Nat.modEq_iff_dvd' reached, Nat.ModEq, Nat.mod_eq_of_lt member]
      exact eq_comm
    rw [Nat.ceilDiv_eq_add_pred_div, Nat.ceilDiv_eq_add_pred_div, next, Nat.succ_div]
    simp only [own]

private theorem sum_ownSlotCount (connections bound : Nat) (some : 0 < connections) :
    ((List.range connections).map fun connId => ownSlotCount connId connections bound).sum = bound := by
  have each (connId : Nat) (member : connId < connections) :
      ((List.range bound).filter fun j => j % connections = connId).length = ownSlotCount connId connections bound := by
    induction bound with
    | zero => simp [ownSlotCount]
    | succ bound ih =>
      rw [List.range_succ, List.filter_append, List.length_append, ih, ownSlotCount_succ member]
      by_cases own : bound % connections = connId <;> simp [own]
  have perm := perm_classes (· % connections) (List.range bound) connections fun j _ => Nat.mod_lt j some
  calc ((List.range connections).map fun connId => ownSlotCount connId connections bound).sum
    _ = ((List.range connections).flatMap fun connId => (List.range bound).filter fun j => j % connections = connId).length := by
      rw [List.length_flatMap]
      congr 1
      apply List.map_congr_left
      intro connId member
      exact (each connId (List.mem_range.mp member)).symm
    _ = bound := by rw [perm.length_eq, List.length_range]

namespace GenConfig.Paced
variable {config : GenConfig} {rate : Nat} (paced : config.Paced rate)
include paced

theorem ncard_ownSlots (connId : UInt32) :
    Set.ncard {slotK | ∃ due, slotDueNs connId.toNat slotK config.connections.toNat rate config.originNs.toNat = some due ∧
      due < slotGridEndNs config.window} = config.ownSlots connId rate := by
  have range : {slotK | ∃ due, slotDueNs connId.toNat slotK config.connections.toNat rate config.originNs.toNat = some due ∧
      due < slotGridEndNs config.window} = (Finset.range (config.ownSlots connId rate) : Set Nat) := by
    ext slotK
    rw [Set.mem_ofPred_eq, ← paced.lt_ownSlots, Finset.mem_coe, Finset.mem_range]
  rw [range, Set.ncard_coe_finset, Finset.card_range]

theorem sum_ownSlots :
    ((List.range config.connections.toNat).map fun number => config.ownSlots (.ofNat number) rate).sum =
      config.windowDueJCount rate := by
  rw [← sum_ownSlotCount config.connections.toNat (config.windowDueJCount rate) paced.connected]
  congr 1
  apply List.map_congr_left
  intro number member
  have exact : (UInt32.ofNat number).toNat = number :=
    UInt32.toNat_ofNat_of_lt' (Nat.lt_trans (List.mem_range.mp member) config.connections.toNat_lt)
  rw [ownSlots, exact]

theorem slotCounts_exact : ∃ windowScheduled,
    slotCounts rate config.originNs.toNat config.window = some (config.windowDueJCount rate, windowScheduled) ∧
      Set.ncard {j | ∃ due, slotDueNs (j % config.connections.toNat) (j / config.connections.toNat)
          config.connections.toNat rate config.originNs.toNat = some due ∧
        config.window.startNs ≤ due ∧ due < slotGridEndNs config.window} = windowScheduled := by
  have fits := config.window_fits
  have later : config.window.startNs ≤ slotGridEndNs config.window := Nat.le_max_right _ _
  have started : saturatingMul128 (config.window.startNs - config.originNs.toNat) rate ⌈/⌉ oneSecondNs =
      dueCount rate (config.window.startNs - config.originNs.toNat) := by
    rw [saturatingMul128_exact (by omega) paced.small]
    rfl
  have fewer : dueCount rate (config.window.startNs - config.originNs.toNat) ≤ config.windowDueJCount rate := by
    rw [windowDueJCount_eq paced.small]
    exact dueCount_mono (Nat.sub_le_sub_right later _)
  have countable := paced.countable
  refine ⟨config.windowDueJCount rate - dueCount rate (config.window.startNs - config.originNs.toNat), ?_, ?_⟩
  · simp only [slotCounts, started]
    rw [show saturatingMul128 (slotGridEndNs config.window - config.originNs.toNat) rate ⌈/⌉ oneSecondNs =
      config.windowDueJCount rate from rfl, if_neg (by omega), if_neg (by omega), if_neg (by omega)]
  · have between : {j | ∃ due, slotDueNs (j % config.connections.toNat) (j / config.connections.toNat)
          config.connections.toNat rate config.originNs.toNat = some due ∧
        config.window.startNs ≤ due ∧ due < slotGridEndNs config.window} =
        (Finset.Ico (dueCount rate (config.window.startNs - config.originNs.toNat)) (config.windowDueJCount rate) : Set Nat) := by
      ext j
      have whole : j % config.connections.toNat + j / config.connections.toNat * config.connections.toNat = j :=
        Nat.mod_add_div' j _
      have before (limitNs : Nat) (limit : limitNs ≤ u64Max) := @due_before_iff (j % config.connections.toNat)
        (j / config.connections.toNat) config.connections.toNat rate config.originNs.toNat limitNs paced.positive paced.small limit
      rw [whole] at before
      rw [Set.mem_ofPred_eq, Finset.mem_coe, Finset.mem_Ico, windowDueJCount_eq paced.small,
        ← before _ config.gridEnd_le, ← Nat.not_lt, ← before _ fits.1]
      constructor
      · rintro ⟨due, known, start, ends⟩
        refine ⟨?_, due, known, ends⟩
        rintro ⟨other, same, early⟩
        cases known.symm.trans same
        omega
      · rintro ⟨late, due, known, ends⟩
        exact ⟨due, known, Nat.not_lt.mp fun early => late ⟨due, known, early⟩, ends⟩
    rw [between, Set.ncard_coe_finset, Nat.card_Ico]

end GenConfig.Paced
end UringMqtt.Bench

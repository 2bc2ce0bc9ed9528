import Mathlib.Algebra.GroupWithZero.Nat

/-! Counters that stop at a ceiling. Below it they add up exactly. -/

namespace UringMqtt.Lib

def u64Max : Nat := 2 ^ 64 - 1

def saturatingAdd (one two : Nat) : Nat := min (one + two) u64Max

namespace Saturating

variable {one two start : Nat} {α : Type}

theorem saturatingAdd_exact (below : one + two ≤ u64Max) : saturatingAdd one two = one + two :=
  Nat.min_eq_left below

theorem saturatingAdd_eq_zero : saturatingAdd one two = 0 ↔ one = 0 ∧ two = 0 := by
  unfold saturatingAdd u64Max
  omega

theorem foldl_eq_zero {weight : α → Nat} {list : List α}
    (none : list.foldl (fun total element => saturatingAdd total (weight element)) start = 0) :
    start = 0 ∧ ∀ element ∈ list, weight element = 0 := by
  induction list generalizing start with
  | nil => exact ⟨none, fun _ member => absurd member List.not_mem_nil⟩
  | cons element rest ih =>
    obtain ⟨both, later⟩ := ih none
    obtain ⟨first, here⟩ := saturatingAdd_eq_zero.mp both
    refine ⟨first, fun other member => ?_⟩
    rcases List.mem_cons.mp member with rfl | member
    · exact here
    · exact later other member

theorem foldl_le (weight : α → Nat) (list : List α) (below : start ≤ u64Max) :
    list.foldl (fun total element => saturatingAdd total (weight element)) start ≤ u64Max := by
  induction list generalizing start with
  | nil => exact below
  | cons element rest ih => exact ih (Nat.min_le_right _ _)

theorem foldl_eq_min (weight : α → Nat) (list : List α) (below : start ≤ u64Max) :
    list.foldl (fun total element => saturatingAdd total (weight element)) start = min (start + (list.map weight).sum) u64Max := by
  induction list generalizing start with
  | nil => exact (Nat.min_eq_left below).symm
  | cons element rest ih =>
    have small : saturatingAdd start (weight element) ≤ u64Max := Nat.min_le_right _ _
    rw [List.foldl_cons, ih small, List.map_cons, List.sum_cons, saturatingAdd]
    omega

theorem foldl_exact (weight : α → Nat) (list : List α) (start : Nat) (below : start + (list.map weight).sum ≤ u64Max) :
    list.foldl (fun total element => saturatingAdd total (weight element)) start = start + (list.map weight).sum := by
  rw [foldl_eq_min weight list (Nat.le_trans (Nat.le_add_right _ _) below), Nat.min_eq_left below]

theorem min_sum_min (weight : α → Nat) (list : List α) :
    min (list.map fun element => min (weight element) u64Max).sum u64Max = min (list.map weight).sum u64Max := by
  induction list with
  | nil => rfl
  | cons element rest ih =>
    simp only [List.map_cons, List.sum_cons]
    omega

end Saturating
end UringMqtt.Lib

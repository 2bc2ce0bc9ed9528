import Mathlib.Data.List.GetD
import Mathlib.Data.List.Induction

/-! A row of counters over the natural numbers, kept from an origin on. What lies
outside the row counts nothing, so the row may grow at either end. -/

namespace UringMqtt.Lib.Bins

def count (origin : Nat) (counts : List Nat) (place : Nat) : Nat :=
  if origin ≤ place then counts.getD (place - origin) 0 else 0

variable {origin : Nat} {counts : List Nat}

@[simp] theorem count_nil (place : Nat) : count origin [] place = 0 := by
  simp [count]

theorem getD_zeros (length index : Nat) : (List.replicate length 0).getD index 0 = 0 := by
  rw [List.getD_eq_getElem?_getD, List.getElem?_replicate]
  split <;> rfl

theorem count_outside {place : Nat} (outside : place < origin ∨ origin + counts.length ≤ place) :
    count origin counts place = 0 := by
  unfold count
  split
  next inside =>
    rw [List.getD_eq_default]
    omega
  next => rfl

theorem count_grown_down {shift : Nat} (room : shift ≤ origin) (place : Nat) :
    count (origin - shift) (List.replicate shift 0 ++ counts) place = count origin counts place := by
  unfold count
  by_cases inside : origin ≤ place
  · rw [if_pos inside, if_pos (by omega), List.getD_append_right _ _ _ _ (by rw [List.length_replicate]; omega),
      List.length_replicate]
    congr 1
    omega
  · rw [if_neg inside]
    split
    next =>
      rw [List.getD_append _ _ _ _ (by rw [List.length_replicate]; omega), getD_zeros]
    next => rfl

theorem count_grown_up (more : Nat) (place : Nat) :
    count origin (counts ++ List.replicate more 0) place = count origin counts place := by
  unfold count
  split
  next inside =>
    by_cases within : place - origin < counts.length
    · rw [List.getD_append _ _ _ _ within]
    · rw [List.getD_append_right _ _ _ _ (by omega), getD_zeros, List.getD_eq_default _ _ (by omega)]
  next => rfl

theorem count_modify {index : Nat} (inside : index < counts.length) (change : Nat → Nat) (place : Nat) :
    count origin (counts.modify index change) place =
      if place = origin + index then change (count origin counts place) else count origin counts place := by
  unfold count
  simp only [List.getD_eq_getElem?_getD, List.getElem?_modify]
  by_cases here : place = origin + index
  · subst place
    simp [List.getElem?_eq_getElem inside]
  · rw [if_neg here]
    split
    next reached =>
      have apart : index ≠ place - origin := by omega
      cases counts[place - origin]? <;> simp [apart]
    next => rfl

theorem ext {other : List Nat} (length : counts.length = other.length)
    (same : ∀ place, count origin counts place = count origin other place) : counts = other := by
  apply List.ext_getElem length
  intro index within _
  have equal := same (origin + index)
  simp only [count, Nat.le_add_right, if_true, Nat.add_sub_cancel_left] at equal
  rwa [List.getD_eq_getElem _ _ within, List.getD_eq_getElem _ _ (length ▸ within)] at equal

theorem count_cons (head place : Nat) :
    count origin (head :: counts) place = if place = origin then head else count (origin + 1) counts place := by
  unfold count
  by_cases here : place = origin
  · subst place
    simp
  · rw [if_neg here]
    by_cases inside : origin ≤ place
    · have next : place - origin = place - (origin + 1) + 1 := by omega
      rw [if_pos inside, if_pos (by omega), next, List.getD_cons_succ]
    · rw [if_neg inside, if_neg (by omega)]

/-- Where a row that started at `start` begins after the events. -/
def low (start : Nat) (events : List Nat) : Nat := events.foldl min start

def high (start : Nat) (events : List Nat) : Nat := events.foldl (fun top event => max top (event + 1)) start

theorem low_le (start : Nat) (events : List Nat) : low start events ≤ start := by
  induction events generalizing start with
  | nil => exact Nat.le_refl _
  | cons event rest ih => exact Nat.le_trans (ih _) (Nat.min_le_left _ _)

theorem le_high (start : Nat) (events : List Nat) : start ≤ high start events := by
  induction events generalizing start with
  | nil => exact Nat.le_refl _
  | cons event rest ih => exact Nat.le_trans (Nat.le_max_left _ _) (ih _)

theorem low_snoc (start : Nat) (events : List Nat) (event : Nat) :
    low start (events ++ [event]) = min (low start events) event := by
  rw [low, List.foldl_append]
  rfl

theorem high_snoc (start : Nat) (events : List Nat) (event : Nat) :
    high start (events ++ [event]) = max (high start events) (event + 1) := by
  rw [high, List.foldl_append]
  rfl

theorem low_append (start : Nat) (events more : List Nat) :
    low start (events ++ more) = min (low start events) (low start more) := by
  induction more using List.reverseRecOn with
  | nil => rw [List.append_nil, show low start [] = start from rfl, Nat.min_eq_left (low_le start events)]
  | append_singleton more event ih => rw [← List.append_assoc, low_snoc, low_snoc, ih, Nat.min_assoc]

theorem high_append (start : Nat) (events more : List Nat) :
    high start (events ++ more) = max (high start events) (high start more) := by
  induction more using List.reverseRecOn with
  | nil => rw [List.append_nil, show high start [] = start from rfl, Nat.max_eq_left (le_high start events)]
  | append_singleton more event ih => rw [← List.append_assoc, high_snoc, high_snoc, ih, Nat.max_assoc]

theorem low_perm {start : Nat} {events other : List Nat} (same : events.Perm other) : low start events = low start other :=
  same.foldl_eq' (fun _ _ _ _ _ => by omega) start

theorem high_perm {start : Nat} {events other : List Nat} (same : events.Perm other) :
    high start events = high start other :=
  same.foldl_eq' (fun _ _ _ _ _ => by omega) start

/-- A row that was opened at `start` and has counted the events, no place missing. -/
structure Logged (start : Nat) (events : List Nat) (origin : Nat) (counts : List Nat) : Prop where
  low : origin = low start events
  high : origin + counts.length = high start events
  counted : ∀ place, count origin counts place = events.count place

namespace Logged
variable {start origin : Nat} {events other counts : List Nat}

theorem empty : Logged start [] start [] := ⟨rfl, rfl, fun place => count_nil place⟩

theorem perm (logged : Logged start events origin counts) (same : events.Perm other) :
    Logged start other origin counts := by
  refine ⟨?_, ?_, fun place => ?_⟩
  · rw [logged.low, low_perm same]
  · rw [logged.high, high_perm same]
  · rw [logged.counted, same.count_eq]

theorem unique {otherOrigin : Nat} {otherCounts : List Nat} (logged : Logged start events origin counts)
    (second : Logged start events otherOrigin otherCounts) : origin = otherOrigin ∧ counts = otherCounts := by
  obtain rfl : origin = otherOrigin := logged.low.trans second.low.symm
  refine ⟨rfl, @ext origin _ _ ?_ fun place => ?_⟩
  · apply Nat.add_left_cancel (n := origin)
    rw [logged.high, second.high]
  · rw [logged.counted, second.counted]

end Logged
end UringMqtt.Lib.Bins

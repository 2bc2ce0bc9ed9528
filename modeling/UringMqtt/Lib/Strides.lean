import Mathlib.Data.List.Sort
import Mathlib.Data.Set.Card
import Mathlib.Order.Interval.Set.Nat

/-! Arithmetic progressions of natural numbers: how many of their points lie within bounds,
and the order in which several of them are merged. -/

namespace UringMqtt.Lib

/-! ### Rounding up -/

def divCeil (one two : Nat) : Nat := if 0 < one % two then one / two + 1 else one / two

theorem divCeil_le_iff {one two count : Nat} (positive : 0 < two) : divCeil one two ≤ count ↔ one ≤ count * two := by
  have whole : one / two * two + one % two = one := Nat.div_add_mod' one two
  have below := Nat.mod_lt one positive
  unfold divCeil
  split
  next partly =>
    constructor
    · intro least
      have product := Nat.mul_le_mul_right two least
      rw [Nat.add_mul] at product
      omega
    · intro enough
      exact Nat.lt_of_mul_lt_mul_right (a := two) (by omega)
  next evenly =>
    rw [← Nat.mul_le_mul_right_iff positive]
    omega

/-! ### Strides -/

/-- The numbers `start`, `start + step`, `start + 2 * step` and so on. -/
structure Stride where
  start : Nat
  step : Nat
  moves : 0 < step

namespace Stride

def points (stride : Stride) : Set Nat := {point | ∃ count, point = stride.start + count * stride.step}

def next (stride : Stride) : Stride := ⟨stride.start + stride.step, stride.step, stride.moves⟩

/-- The stride from `bound` on. -/
def catchUp (stride : Stride) (bound : Nat) : Stride :=
  ⟨stride.start + divCeil (bound - stride.start) stride.step * stride.step, stride.step, stride.moves⟩

variable {stride : Stride} {point bound : Nat}

theorem start_le (member : point ∈ stride.points) : stride.start ≤ point := by
  obtain ⟨count, rfl⟩ := member
  exact Nat.le_add_right _ _

theorem start_mem : stride.start ∈ stride.points := ⟨0, by simp⟩

theorem points_next (stride : Stride) : stride.points = insert stride.start stride.next.points := by
  ext point
  constructor
  · rintro ⟨_ | count, rfl⟩
    · exact .inl (by simp)
    · exact .inr ⟨count, by simp only [next, Nat.add_mul]; omega⟩
  · rintro (rfl | ⟨count, rfl⟩)
    · exact start_mem
    · exact ⟨count + 1, by simp only [next, Nat.add_mul]; omega⟩

theorem mem_points_of_step_one (one : stride.step = 1) (above : stride.start ≤ point) : point ∈ stride.points :=
  ⟨point - stride.start, by rw [one]; omega⟩

theorem points_catchUp (stride : Stride) (bound : Nat) :
    (stride.catchUp bound).points = {point ∈ stride.points | bound ≤ point} := by
  have reaches (count : Nat) := @divCeil_le_iff (bound - stride.start) stride.step count stride.moves
  ext point
  constructor
  · rintro ⟨count, rfl⟩
    have enough := (reaches _).mp (Nat.le_add_right (divCeil (bound - stride.start) stride.step) count)
    simp only [catchUp]
    rw [Nat.add_assoc, ← Nat.add_mul]
    exact ⟨⟨_, rfl⟩, by omega⟩
  · rintro ⟨⟨count, rfl⟩, above⟩
    obtain ⟨further, same⟩ := Nat.exists_eq_add_of_le ((reaches count).mpr (by omega))
    exact ⟨further, by simp only [catchUp]; rw [same, Nat.add_mul, Nat.add_assoc]⟩

theorem catchUp_start_lt (after : stride.start ≤ bound) : (stride.catchUp bound).start < bound + stride.step := by
  simp only [catchUp, divCeil]
  have whole := Nat.div_add_mod' (bound - stride.start) stride.step
  have := stride.moves
  split
  · rw [Nat.add_mul]
    omega
  · omega

theorem ncard_points_below (stride : Stride) (bound : Nat) :
    {point ∈ stride.points | point < bound}.ncard =
      if stride.start < bound then (bound - 1 - stride.start) / stride.step + 1 else 0 := by
  split
  next within =>
    have counted : {point ∈ stride.points | point < bound} =
        (fun count => stride.start + count * stride.step) '' Set.Iio ((bound - 1 - stride.start) / stride.step + 1) := by
      ext point
      have reaches (count : Nat) : count < (bound - 1 - stride.start) / stride.step + 1 ↔
          count * stride.step ≤ bound - 1 - stride.start := by
        rw [Nat.lt_succ_iff, Nat.le_div_iff_mul_le stride.moves]
      simp only [points, Set.mem_image, Set.mem_Iio, reaches]
      constructor
      · rintro ⟨⟨count, rfl⟩, below⟩
        exact ⟨count, by omega, rfl⟩
      · rintro ⟨count, below, rfl⟩
        exact ⟨⟨count, rfl⟩, by omega⟩
    rw [counted, Set.ncard_image_of_injective, Set.ncard_Iio_nat]
    intro one two same
    exact Nat.eq_of_mul_eq_mul_right stride.moves (Nat.add_left_cancel same)
  next beyond =>
    have none : {point ∈ stride.points | point < bound} = ∅ := by
      ext point
      simp only [Set.mem_ofPred_eq, Set.mem_empty_iff_false, iff_false, not_and]
      intro member
      have := start_le member
      omega
    rw [none, Set.ncard_empty]

/-! ### Several strides -/

/-- The order of a merge: by the next point, then by the step. -/
def le (one two : Stride) : Prop := one.start < two.start ∨ one.start = two.start ∧ one.step ≤ two.step

instance : DecidableRel le := fun _ _ => inferInstanceAs (Decidable (_ ∨ _))

instance : Std.Total le where
  total one two := by unfold le; omega

instance : IsTrans Stride le where
  trans one two three := by unfold le; omega

/-- The points that some of the strides has. -/
def union (strides : List Stride) : Set Nat := {point | ∃ stride ∈ strides, point ∈ stride.points}

variable {strides : List Stride} {last : Option Nat}

theorem union_cons (stride : Stride) (strides : List Stride) : union (stride :: strides) = stride.points ∪ union strides := by
  ext point
  simp [union]

theorem union_perm {others : List Stride} (same : strides.Perm others) : union strides = union others := by
  simp only [union, same.mem_iff]

/-- The points below `bound` that a merge still has to count, the last one apart. -/
def remaining (strides : List Stride) (bound : Nat) (last : Option Nat) : Set Nat :=
  {point | point ∈ union strides ∧ point < bound ∧ last ≠ some point}

theorem remaining_finite (strides : List Stride) (bound : Nat) (last : Option Nat) : (remaining strides bound last).Finite :=
  (Set.finite_Iio bound).subset fun _ member => member.2.1

theorem remaining_perm {others : List Stride} (same : strides.Perm others) : remaining strides bound last = remaining others bound last := by
  simp only [remaining, union_perm same]

theorem remaining_beyond (beyond : bound ≤ stride.start) : remaining (stride :: strides) bound last = remaining strides bound last := by
  ext point
  simp only [remaining, union_cons]
  refine and_congr_left fun ⟨below, _⟩ => ⟨fun found => found.resolve_left fun member => ?_, .inr⟩
  exact absurd (start_le member) (by omega)

theorem remaining_next (stride : Stride) (strides : List Stride) (bound : Nat) :
    remaining (stride :: strides) bound (some stride.start) = remaining (stride.next :: strides) bound (some stride.start) := by
  ext point
  simp only [remaining, union_cons, points_next stride]
  constructor
  · rintro ⟨(rfl | later) | other, below, fresh⟩
    · exact absurd rfl fresh
    · exact ⟨.inl later, below, fresh⟩
    · exact ⟨.inr other, below, fresh⟩
  · rintro ⟨later | other, below, fresh⟩
    · exact ⟨.inl (.inr later), below, fresh⟩
    · exact ⟨.inr other, below, fresh⟩

theorem ncard_remaining_next (least : ∀ other ∈ strides, stride.start ≤ other.start) (within : stride.start < bound)
    (earlier : ∀ point, last = some point → point ≤ stride.start) :
    (remaining (stride :: strides) bound last).ncard =
      (remaining (stride.next :: strides) bound (some stride.start)).ncard + if last = some stride.start then 0 else 1 := by
  split
  next again => rw [again, remaining_next, Nat.add_zero]
  next fresh =>
    have above : ∀ point ∈ union (stride :: strides), stride.start ≤ point := by
      rintro point ⟨other, among, member⟩
      rcases List.mem_cons.mp among with rfl | among
      · exact start_le member
      · exact Nat.le_trans (least other among) (start_le member)
    have first : stride.start ∈ remaining (stride :: strides) bound last :=
      ⟨⟨stride, List.mem_cons_self, start_mem⟩, within, fresh⟩
    have rest : remaining (stride :: strides) bound last \ {stride.start} = remaining (stride :: strides) bound (some stride.start) := by
      ext point
      constructor
      · rintro ⟨⟨member, below, _⟩, other⟩
        exact ⟨member, below, fun same => other (Option.some.inj same).symm⟩
      · rintro ⟨member, below, other⟩
        refine ⟨⟨member, below, fun same => ?_⟩, fun same => other (congrArg some (Eq.symm same))⟩
        exact other (congrArg some (Nat.le_antisymm (above point member) (earlier point same)))
    rw [← remaining_next, ← rest, Set.ncard_sdiff_singleton_add_one first (remaining_finite _ _ _)]

end Stride

end UringMqtt.Lib

import Mathlib.Data.Nat.Bitwise

/-! Sets of small numbers kept as one bit each in a row of machine words. A
number names its word by division and its bit by remainder; setting or clearing
that bit changes the membership of that number and of no other. -/

namespace UringMqtt.Lib.Bitset

variable {width count : Nat}

def mask (width bit : Nat) : BitVec width := BitVec.ofNat width 1 <<< bit

theorem getLsbD_mask (bit other : Nat) (inside : other < width) :
    (mask width bit).getLsbD other = decide (other = bit) := by
  simp only [mask, BitVec.getLsbD_shiftLeft, BitVec.getLsbD_one, inside, decide_true, Bool.true_and]
  by_cases same : other = bit
  · subst other
    simpa using Nat.zero_lt_of_lt inside
  · by_cases below : other < bit
    · simp [same, below]
    · have apart : other - bit ≠ 0 := by omega
      simp [same, apart]

theorem and_mask_eq_zero (word : BitVec width) (bit : Nat) (inside : bit < width) :
    word &&& mask width bit = BitVec.ofNat width 0 ↔ word.getLsbD bit = false := by
  constructor
  · intro empty
    have cleared := congrArg (fun value => value.getLsbD bit) empty
    simpa [BitVec.getLsbD_and, getLsbD_mask bit bit inside] using cleared
  · intro clear
    apply BitVec.eq_of_getLsbD_eq
    intro other within
    by_cases same : other = bit
    · subst other
      simp [BitVec.getLsbD_and, clear]
    · simp [BitVec.getLsbD_and, getLsbD_mask bit other within, same]

theorem getLsbD_or_mask (word : BitVec width) (bit other : Nat) (inside : other < width) :
    (word ||| mask width bit).getLsbD other = (word.getLsbD other || decide (other = bit)) := by
  rw [BitVec.getLsbD_or, getLsbD_mask bit other inside]

theorem getLsbD_and_not_mask (word : BitVec width) (bit other : Nat) (inside : other < width) :
    (word &&& ~~~mask width bit).getLsbD other = (word.getLsbD other && !decide (other = bit)) := by
  rw [BitVec.getLsbD_and, BitVec.getLsbD_not, getLsbD_mask bit other inside]
  simp [inside]

section
variable (words : Vector (BitVec width) count)

theorem erase_unset (index : Fin count) {bits : BitVec width}
    (unset : words[index] &&& bits = 0) : words.set index (words[index] &&& ~~~bits) = words := by
  have same : words[index] &&& ~~~bits = words[index] := by
    apply BitVec.eq_of_getLsbD_eq
    intro bit inside
    have apart := congrArg (BitVec.getLsbD · bit) unset
    simpa [inside] using apart
  rw [same]
  exact Vector.set_getElem_self _

def mem (words : Vector (BitVec width) count) (index : Nat) : Bool :=
  match words[index / width]? with
  | some word => word.getLsbD (index % width)
  | none => false

theorem mem_of_lt (index : Nat) (inside : index / width < count) :
    mem words index = (words[index / width]).getLsbD (index % width) := by
  simp [mem, Vector.getElem?_eq_getElem inside]

theorem mem_replicate_zero (index : Nat) : mem (Vector.replicate count (BitVec.ofNat width 0)) index = false := by
  unfold mem
  split
  next word found =>
    obtain ⟨_, rfl⟩ := Vector.getElem?_eq_some_iff.mp found
    simp
  next => rfl

private theorem same_index {index other : Nat} (words : index / width = other / width)
    (bits : index % width = other % width) : index = other := by
  rw [← Nat.div_add_mod index width, ← Nat.div_add_mod other width, words, bits]

/-- Writing one word through a function of one of its bits moves the membership
of that bit's number and leaves every other number alone. -/
theorem mem_set (index other : Nat) (positive : 0 < width)
    (inside : index / width < count) (updated : BitVec width) (value : Bool)
    (chosen : updated.getLsbD (index % width) = value)
    (kept : ∀ bit, bit < width → bit ≠ index % width →
      updated.getLsbD bit = (words[index / width]).getLsbD bit) :
    mem (words.set (index / width) updated) other = if other = index then value else mem words other := by
  have bound : other % width < width := Nat.mod_lt _ positive
  by_cases same : other / width = index / width
  · have within : other / width < count := same ▸ inside
    rw [mem_of_lt _ _ within, mem_of_lt words _ within]
    by_cases equal : other = index
    · subst other
      simpa using chosen
    · have apart : other % width ≠ index % width := fun bits => equal (same_index same bits)
      have word : (words.set (index / width) updated)[other / width] = updated := by simp [same]
      have old : words[other / width] = words[index / width] := by simp only [same]
      rw [word, old, if_neg equal]
      exact kept _ bound apart
  · have apart : other ≠ index := fun equal => same (by rw [equal])
    have untouched : (words.set (index / width) updated)[other / width]? = words[other / width]? := by
      rw [Vector.getElem?_set_ne _ (Ne.symm same)]
    simp only [mem, untouched, if_neg apart]

theorem mem_insert (index other : Nat) (positive : 0 < width)
    (inside : index / width < count) :
    mem (words.set (index / width) (words[index / width] ||| mask width (index % width))) other =
      if other = index then true else mem words other := by
  have bound : index % width < width := Nat.mod_lt _ positive
  apply mem_set words index other positive inside
  · simp [getLsbD_or_mask _ _ _ bound]
  · intro bit within apart
    simp [getLsbD_or_mask _ _ _ within, apart]

theorem mem_erase (index other : Nat) (positive : 0 < width)
    (inside : index / width < count) :
    mem (words.set (index / width) (words[index / width] &&& ~~~mask width (index % width))) other =
      if other = index then false else mem words other := by
  have bound : index % width < width := Nat.mod_lt _ positive
  apply mem_set words index other positive inside
  · simp [getLsbD_and_not_mask _ _ _ bound]
  · intro bit within apart
    simp [getLsbD_and_not_mask _ _ _ within, apart]

theorem and_mask_eq_zero_iff_mem (index : Nat) (positive : 0 < width)
    (inside : index / width < count) :
    words[index / width] &&& mask width (index % width) = BitVec.ofNat width 0 ↔ mem words index = false := by
  rw [mem_of_lt _ _ inside]
  exact and_mask_eq_zero _ _ (Nat.mod_lt _ positive)

end

end UringMqtt.Lib.Bitset

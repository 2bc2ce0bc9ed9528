import Mathlib.Data.List.Basic

/-! Taking a pattern out of a text. -/

namespace UringMqtt.Lib

/-- `text` without the occurrences of `pattern`, from left to right and none inside
another; the first `skip` characters belong to the one found last. -/
def without (pattern : List Char) : (skip : Nat) → (text : List Char) → List Char
  | _, [] => []
  | skip + 1, _ :: rest => without pattern skip rest
  | 0, char :: rest =>
    if pattern.isPrefixOf (char :: rest) then without pattern (pattern.length - 1) rest else char :: without pattern 0 rest

variable {head : Char} {tail : List Char}

/-- No occurrence starts in a part that does not hold the pattern's first character. -/
theorem without_append {part : List Char} (rest : List Char) (absent : head ∉ part) :
    without (head :: tail) 0 (part ++ rest) = part ++ without (head :: tail) 0 rest := by
  induction part with
  | nil => rfl
  | cons char part ih =>
    obtain ⟨other, absent⟩ := not_or.mp (List.mem_cons.not.mp absent)
    have starts : (head :: tail).isPrefixOf (char :: (part ++ rest)) = false := by simp [List.isPrefixOf, other]
    rw [List.cons_append, without, starts, if_neg Bool.false_ne_true, ih absent, List.cons_append]

theorem without_skip (pattern part rest : List Char) : without pattern part.length (part ++ rest) = without pattern 0 rest := by
  induction part with
  | nil => rfl
  | cons char part ih => exact ih

theorem without_self : without (head :: tail) 0 (head :: tail) = [] := by
  have starts : (head :: tail).isPrefixOf (head :: tail) = true := List.isPrefixOf_iff_prefix.mpr List.prefix_rfl
  have rest := without_skip (head :: tail) tail []
  rw [List.append_nil] at rest
  rw [without, starts, if_pos rfl]
  exact rest

end UringMqtt.Lib

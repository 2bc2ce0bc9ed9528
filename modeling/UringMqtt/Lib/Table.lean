import Mathlib.Data.List.Basic

/-! Rows of a table whose cells end at a pipe. A pipe after an odd run of backslashes is
escaped and belongs to its cell. -/

namespace UringMqtt.Lib

/-- The pieces of a row between its pipes that are not escaped; `run` backslashes stand
just before it. -/
def pieces (run : Nat) : List Char → List (List Char)
  | [] => [[]]
  | char :: rest =>
    if char = '|' ∧ run % 2 = 0 then [] :: pieces 0 rest
    else (pieces (if char = '\\' then run + 1 else 0) rest).modifyHead (char :: ·)

/-- The text without its escapes: a backslash gives way to what follows it. -/
def unescape : List Char → List Char
  | [] => []
  | [char] => [char]
  | first :: second :: rest => if first = '\\' then second :: unescape rest else first :: unescape (second :: rest)

namespace Table

/-- A text without a pipe that ends its cell: the scan takes it whole, and what follows is
not escaped. -/
def Inert (text : List Char) : Prop :=
  ∀ run rest, run % 2 = 0 → ∃ after, after % 2 = 0 ∧ pieces run (text ++ rest) = (pieces after rest).modifyHead (text ++ ·)

variable {one two : List Char} {char : Char}

theorem modifyHead_append (list : List (List Char)) (one two : List Char) :
    (list.modifyHead (two ++ ·)).modifyHead (one ++ ·) = list.modifyHead (one ++ two ++ ·) := by
  cases list <;> simp

theorem Inert.nil : Inert [] := by
  intro run rest even
  refine ⟨run, even, ?_⟩
  rw [List.nil_append]
  cases pieces run rest <;> rfl

theorem Inert.append (first : Inert one) (second : Inert two) : Inert (one ++ two) := by
  intro run rest even
  obtain ⟨middle, evenThen, here⟩ := first run (two ++ rest) even
  obtain ⟨after, evenAfter, there⟩ := second middle rest evenThen
  exact ⟨after, evenAfter, by rw [List.append_assoc, here, there, modifyHead_append]⟩

theorem Inert.plain (pipe : char ≠ '|') (backslash : char ≠ '\\') : Inert [char] := by
  intro run rest _
  refine ⟨0, rfl, ?_⟩
  rw [List.singleton_append, pieces, if_neg (fun both => pipe both.1), if_neg backslash]
  rfl

theorem Inert.escaped (char : Char) : Inert ['\\', char] := by
  intro run rest even
  have odd : ¬(char = '|' ∧ (run + 1) % 2 = 0) := by omega
  have backslash : ¬('\\' = '|' ∧ run % 2 = 0) := fun both => absurd both.1 (by decide)
  refine ⟨if char = '\\' then run + 1 + 1 else 0, by split <;> omega, ?_⟩
  rw [show ['\\', char] ++ rest = '\\' :: char :: rest from rfl, pieces, if_neg backslash, if_pos rfl, pieces, if_neg odd]
  cases pieces (if char = '\\' then run + 1 + 1 else 0) rest <;> rfl

theorem Inert.text {text : List Char} (plain : ∀ char ∈ text, char ≠ '|' ∧ char ≠ '\\') : Inert text := by
  induction text with
  | nil => exact .nil
  | cons char text ih =>
    have here := plain char List.mem_cons_self
    exact (Inert.plain here.1 here.2).append (ih fun other member => plain other (List.mem_cons_of_mem _ member))

theorem pieces_row {name value : List Char} (first : Inert name) (second : Inert value) :
    pieces 0 ('|' :: (name ++ '|' :: (value ++ ['|']))) = [[], name, value, []] := by
  have opens (run : Nat) (even : run % 2 = 0) (rest : List Char) : pieces run ('|' :: rest) = [] :: pieces 0 rest := by
    rw [pieces, if_pos ⟨rfl, even⟩]
  obtain ⟨after, evenAfter, names⟩ := first 0 ('|' :: (value ++ ['|'])) rfl
  obtain ⟨last, evenLast, values⟩ := second 0 ['|'] rfl
  rw [opens 0 rfl, names, opens after evenAfter, values, opens last evenLast]
  simp [pieces]

end Table
end UringMqtt.Lib

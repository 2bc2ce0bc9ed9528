import UringMqtt.Bench.Doc
import UringMqtt.Lib.Table

/-! What a cell of the document can hold, and how the document falls into lines. -/

namespace UringMqtt.Bench
open Lib Table

/-! ### Cells -/

theorem toList_cell (text : String) : (cell text).toList = text.toList.flatMap cellChar := String.toList_ofList

theorem cellChar_plain {char : Char} (backslash : char ≠ '\\') (pipe : char ≠ '|') :
    cellChar char = [if isControl char then ' ' else char] := by
  rw [cellChar, if_neg backslash, if_neg pipe]
  split <;> rfl

private theorem cellChar_inert (char : Char) : Inert (cellChar char) := by
  by_cases backslash : char = '\\'
  · rw [cellChar, if_pos backslash]
    exact .escaped '\\'
  by_cases pipe : char = '|'
  · rw [cellChar, if_neg backslash, if_pos pipe]
    exact .escaped '|'
  rw [cellChar_plain backslash pipe]
  split
  · exact .plain (by decide) (by decide)
  · exact .plain pipe backslash

theorem cell_inert (text : String) : Inert (cell text).toList := by
  rw [toList_cell]
  induction text.toList with
  | nil => exact .nil
  | cons char rest ih =>
    rw [List.flatMap_cons]
    exact (cellChar_inert char).append ih

theorem cell_no_control (text : String) : ∀ char ∈ (cell text).toList, isControl char = false := by
  intro char member
  rw [toList_cell] at member
  obtain ⟨source, _, written⟩ := List.mem_flatMap.mp member
  by_cases backslash : source = '\\'
  · rw [cellChar, if_pos backslash] at written
    have same : char = '\\' := by simpa using written
    rw [same]
    rfl
  by_cases pipe : source = '|'
  · rw [cellChar, if_neg backslash, if_pos pipe] at written
    rcases List.mem_cons.mp written with rfl | written
    · rfl
    · rw [List.mem_singleton.mp written]
      rfl
  rw [cellChar_plain backslash pipe, List.mem_singleton] at written
  rw [written]
  split
  · rfl
  next printable => exact Bool.eq_false_iff.mpr printable

private theorem unescape_plain {char : Char} (backslash : char ≠ '\\') (rest : List Char) : unescape (char :: rest) = char :: unescape rest := by
  cases rest with
  | nil => rfl
  | cons next rest => rw [unescape, if_neg backslash]

theorem unescape_cell (text : String) :
    unescape (cell text).toList = text.toList.map fun char => if isControl char then ' ' else char := by
  rw [toList_cell]
  induction text.toList with
  | nil => rfl
  | cons char rest ih =>
    rw [List.flatMap_cons, List.map_cons]
    by_cases backslash : char = '\\'
    · subst backslash
      exact congrArg _ ih
    by_cases pipe : char = '|'
    · subst pipe
      exact congrArg _ ih
    rw [cellChar_plain backslash pipe, List.singleton_append, unescape_plain, ih]
    split
    · decide
    · exact backslash

/-! ### Lines -/

def Plain (line : String) : Prop := ∀ char ∈ line.toList, isControl char = false

theorem Plain.cell (text : String) : Plain (cell text) := cell_no_control text

theorem Plain.append {one two : String} (first : Plain one) (second : Plain two) : Plain (one ++ two) := by
  intro char member
  rw [String.toList_append] at member
  rcases List.mem_append.mp member with left | right
  · exact first char left
  · exact second char right

private theorem toList_writeLines (text : List String) : (writeLines text).toList = text.flatMap fun line => line.toList ++ ['\n'] := by
  have general (out : String) : (text.foldl (fun out line => out ++ line ++ "\n") out).toList =
      out.toList ++ text.flatMap fun line => line.toList ++ ['\n'] := by
    induction text generalizing out with
    | nil => exact (List.append_nil _).symm
    | cons line rest ih =>
      rw [List.foldl_cons, ih, List.flatMap_cons]
      simp
  exact general ""

private theorem lines_cons {line : List Char} (plain : ∀ char ∈ line, isControl char = false) (rest : List Char) :
    lines (line ++ '\n' :: rest) = line :: lines rest := by
  have whole : '\n' ∉ line := fun member => absurd (plain '\n' member) (by decide)
  have ends : ¬line.getLast? = some '\r' := fun last => absurd (plain '\r' (List.mem_of_getLast? last)) (by decide)
  have split : (line ++ '\n' :: rest).splitOn '\n' = line :: rest.splitOn '\n' := List.splitOn_append_cons_self_of_not_mem whole rest
  obtain ⟨piece, others, parts⟩ := List.exists_cons_of_ne_nil (List.splitOn_ne_nil '\n' rest)
  simp only [lines, split, parts, List.getLast?_cons_cons, List.dropLast_cons_cons]
  split <;> simp [ends]

theorem lines_writeLines {plain : List String} (all : ∀ line ∈ plain, Plain line) (rest : List String) :
    lines (writeLines (plain ++ rest)).toList = plain.map String.toList ++ lines (writeLines rest).toList := by
  rw [toList_writeLines, toList_writeLines, List.flatMap_append]
  induction plain with
  | nil => rfl
  | cons line others ih =>
    have here := lines_cons (all line List.mem_cons_self)
    have later := ih fun other member => all other (List.mem_cons_of_mem _ member)
    rw [List.flatMap_cons, List.append_assoc, List.append_assoc, List.singleton_append, here, later, List.map_cons, List.cons_append]

end UringMqtt.Bench

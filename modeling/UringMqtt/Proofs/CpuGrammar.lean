import UringMqtt.Bench.CpuList
import Mathlib.Data.Nat.Digits.Defs

/-! The grammar of a CPU list, and that the parser accepts it and nothing else. -/

namespace UringMqtt.Bench
open Lib

/-! ### The grammar -/

def Blank (text : List Char) : Prop := ∀ char ∈ text, isWhitespace char = true

/-- The number that decimal digits stand for, the most significant first. -/
def decimal (digits : List Char) : Nat := Nat.ofDigits 10 (digits.reverse.map fun digit => digit.toNat - 48)

inductive Numeral : List Char → Nat → Prop
  | plain {digits : List Char} (some_ : digits ≠ []) (all : ∀ char ∈ digits, char.isDigit = true) : Numeral digits (decimal digits)
  | signed {digits : List Char} (some_ : digits ≠ []) (all : ∀ char ∈ digits, char.isDigit = true) :
      Numeral ('+' :: digits) (decimal digits)

def Number (text : List Char) (value : Nat) : Prop :=
  ∃ before numeral after, Blank before ∧ Numeral numeral value ∧ Blank after ∧ text = before ++ (numeral ++ after)

inductive CpuText : List Char → CpuElement → Prop
  | cpu {text : List Char} {element : CpuElement} (first : Number text element.first.toNat) (alone : element.last = element.first)
      (plain : element.stride = 1) : CpuText text element
  | range {one two : List Char} {element : CpuElement} (first : Number one element.first.toNat)
      (last : Number two element.last.toNat) (plain : element.stride = 1) : CpuText (one ++ '-' :: two) element
  | stride {one two three : List Char} {element : CpuElement} (first : Number one element.first.toNat)
      (last : Number two element.last.toNat) (step : Number three element.stride.toNat) :
      CpuText (one ++ '-' :: (two ++ ':' :: three)) element

def CpuList (text : List Char) (elements : List CpuElement) : Prop :=
  ∃ parts, parts ≠ [] ∧ text = [','].intercalate parts ∧ List.Forall₂ CpuText parts elements

/-! ### Numerals -/

theorem decimal_eq_foldl (digits : List Char) :
    digits.foldl (fun value digit => value * 10 + (digit.toNat - 48)) 0 = decimal digits := by
  rw [decimal, Nat.ofDigits_eq_foldr, List.foldr_map, List.foldr_reverse]
  congr 1
  funext value digit
  simp
  omega

variable {text before after span : List Char} {value : Nat} {char : Char} {element : CpuElement} {elements : List CpuElement}

theorem Numeral.chars (numeral : Numeral text value) :
    ∀ char ∈ text, char = '+' ∨ char.isDigit = true := by
  cases numeral with
  | plain _ all => exact fun char member => .inr (all char member)
  | signed _ all =>
    intro char member
    exact (List.mem_cons.mp member).imp id (all char)

private theorem isDigit_not_blank (digit : char.isDigit = true) : isWhitespace char = false := by
  have low : 48 ≤ char.toNat ∧ char.toNat ≤ 57 := by simpa [Char.isDigit, UInt32.le_iff_toNat_le] using digit
  have outside : char.toNat ∉ [32, 133, 160, 5760, 8232, 8233, 8239, 8287, 12288] := by
    intro member
    simp only [List.mem_cons, List.not_mem_nil, or_false] at member
    omega
  have tabs : ¬(9 ≤ char.toNat ∧ char.toNat ≤ 13) := by omega
  have spaces : ¬(8192 ≤ char.toNat ∧ char.toNat ≤ 8202) := by omega
  simp only [isWhitespace, tabs, spaces, decide_false, Bool.false_or, List.contains_eq_mem, outside]

private theorem Numeral.not_blank (numeral : Numeral text value) :
    ∀ char ∈ text, isWhitespace char = false := by
  intro char member
  rcases numeral.chars char member with rfl | digit
  · decide
  · exact isDigit_not_blank digit

theorem Numeral.ne_nil (numeral : Numeral text value) : text ≠ [] := by
  cases numeral with
  | plain some_ => exact some_
  | signed => exact List.cons_ne_nil _ _

structure Digits (digits : List Char) (value : Nat) : Prop where
  some_ : digits ≠ []
  all : ∀ char ∈ digits, char.isDigit = true
  read : decimal digits = value

private theorem numeral_signed {digits : List Char} : Numeral ('+' :: digits) value ↔ Digits digits value := by
  constructor
  · intro numeral
    cases numeral with
    | plain _ all => exact absurd (all '+' List.mem_cons_self) (by decide)
    | signed some_ all => exact ⟨some_, all, rfl⟩
  · rintro ⟨some_, all, rfl⟩
    exact .signed some_ all

private theorem numeral_plain (unsigned : text.head? ≠ some '+') : Numeral text value ↔ Digits text value := by
  constructor
  · intro numeral
    cases numeral with
    | plain some_ all => exact ⟨some_, all, rfl⟩
    | signed => exact absurd rfl unsigned
  · rintro ⟨some_, all, rfl⟩
    exact .plain some_ all

theorem parseU64_eq_some : parseU64 text = some value ↔ Numeral text value ∧ value ≤ u64Max := by
  have read (digits : List Char) : (if digits.isEmpty || !digits.all Char.isDigit then none
      else if decimal digits > u64Max then none else some (decimal digits)) = some value ↔ Digits digits value ∧ value ≤ u64Max := by
    constructor
    · intro found
      split at found
      · cases found
      next whole =>
        split at found
        · cases found
        next fits =>
          cases found
          have whole : digits ≠ [] ∧ ∀ char ∈ digits, char.isDigit = true := by simpa using whole
          exact ⟨⟨whole.1, whole.2, rfl⟩, Nat.le_of_not_gt fits⟩
    · rintro ⟨⟨some_, all, rfl⟩, fits⟩
      rw [if_neg (by simpa [some_] using all), if_neg (Nat.not_lt.mpr fits)]
  unfold parseU64
  simp only [decimal_eq_foldl]
  split
  next plus =>
    obtain ⟨digits, rfl⟩ := List.head?_eq_some_iff.mp plus
    rw [numeral_signed]
    exact read digits
  next unsigned =>
    rw [numeral_plain unsigned]
    exact read text

theorem parseU32_eq_some {value : UInt32} : parseU32 text = some value ↔ Numeral text value.toNat := by
  have narrow := value.toNat_lt
  simp only [parseU32, Option.bind_eq_some_iff, parseU64_eq_some]
  constructor
  · rintro ⟨wide, ⟨numeral, _⟩, fits⟩
    split at fits
    · rw [← Option.some.inj fits, UInt32.toNat_ofNat_of_lt' (by assumption)]
      exact numeral
    · cases fits
  · intro numeral
    exact ⟨value.toNat, ⟨numeral, by unfold u64Max; omega⟩, by simp [narrow]⟩

/-! ### Blanks -/

theorem trim_spec (text : List Char) : ∃ before after, Blank before ∧ Blank after ∧ text = before ++ (trim text ++ after) := by
  refine ⟨text.takeWhile isWhitespace, (text.dropWhile isWhitespace).rtakeWhile isWhitespace, ?_, ?_, ?_⟩
  · exact fun char => List.mem_takeWhile_imp
  · exact fun char => List.mem_rtakeWhile_imp
  · rw [trim, List.rdropWhile_append_rtakeWhile, List.takeWhile_append_dropWhile]

structure Bare (text : List Char) : Prop where
  starts : ∃ char rest, text = char :: rest ∧ isWhitespace char = false
  ends : ∃ front char, text = front ++ [char] ∧ isWhitespace char = false

private theorem dropWhile_blank (blank : Blank before) (starts : ∃ char rest, text = char :: rest ∧ isWhitespace char = false) :
    (before ++ text).dropWhile isWhitespace = text := by
  obtain ⟨char, rest, rfl, dark⟩ := starts
  rw [List.dropWhile_append_of_pos blank, List.dropWhile_cons_of_neg (by simp [dark])]

theorem trim_bare (blank : Blank before) (bare : Bare text) (blank' : Blank after) :
    trim (before ++ (text ++ after)) = text := by
  obtain ⟨⟨head, rest, starts, dark⟩, ends⟩ := bare
  rw [trim, dropWhile_blank blank ⟨head, rest ++ after, by rw [starts, List.cons_append], dark⟩, List.rdropWhile, List.reverse_append,
    dropWhile_blank (fun char member => blank' char (List.mem_reverse.mp member)), List.reverse_reverse]
  obtain ⟨front, last, rfl, dark⟩ := ends
  exact ⟨last, front.reverse, by simp, dark⟩

theorem Numeral.bare (numeral : Numeral text value) : Bare text := by
  obtain ⟨head, rest, starts⟩ := List.exists_cons_of_ne_nil numeral.ne_nil
  obtain ⟨front, last, ends⟩ : ∃ front last, text = front ++ [last] :=
    ⟨_, _, (List.dropLast_append_getLast numeral.ne_nil).symm⟩
  exact ⟨⟨head, rest, starts, numeral.not_blank head (by simp [starts])⟩,
    front, last, ends, numeral.not_blank last (by simp [ends])⟩

theorem number_iff {value : UInt32} : parseU32 (trim text) = some value ↔ Number text value.toNat := by
  rw [parseU32_eq_some]
  constructor
  · intro numeral
    obtain ⟨before, after, blank, blank', same⟩ := trim_spec text
    exact ⟨before, trim text, after, blank, numeral, blank', same⟩
  · rintro ⟨before, numeral, after, blank, reads, blank', rfl⟩
    rw [trim_bare blank reads.bare blank']
    exact reads

section
variable (number : Number text value)
include number

theorem Number.not_mem (dark : isWhitespace char = false)
    (other : char ≠ '+') (letter : char.isDigit = false) : char ∉ text := by
  obtain ⟨before, numeral, after, blank, reads, blank', rfl⟩ := number
  simp only [List.mem_append]
  rintro (member | member | member)
  · rw [blank char member] at dark
    cases dark
  · rcases reads.chars char member with same | digit
    · exact other same
    · rw [digit] at letter
      cases letter
  · rw [blank' char member] at dark
    cases dark

private theorem Number.no_dash : '-' ∉ text :=
  number.not_mem (by decide) (by decide) (by decide)

private theorem Number.no_colon : ':' ∉ text :=
  number.not_mem (by decide) (by decide) (by decide)

private theorem Number.no_comma : ',' ∉ text :=
  number.not_mem (by decide) (by decide) (by decide)

end

/-! ### The separators -/

theorem splitOnce_none : splitOnce [char] text = none ↔ char ∉ text := by
  induction text with
  | nil => simp [splitOnce]
  | cons head rest ih =>
    by_cases here : char = head
    · simp [splitOnce, here]
    · simp [splitOnce, here, ih]

theorem splitOnce_some :
    splitOnce [char] text = some (before, after) ↔ text = before ++ char :: after ∧ char ∉ before := by
  induction text generalizing before with
  | nil => simp [splitOnce]
  | cons head rest ih =>
    by_cases here : char = head
    · subst here
      cases before with
      | nil => simp [splitOnce]
      | cons first before =>
        have whole : splitOnce [char] (char :: rest) = some ([], rest) := by simp [splitOnce]
        rw [whole]
        constructor
        · intro same
          cases same
        · rintro ⟨same, apart⟩
          exact absurd (by rw [List.cons.inj same |>.1]; exact List.mem_cons_self) apart
    · have later : splitOnce [char] (head :: rest) = (splitOnce [char] rest).map fun pair => (head :: pair.1, pair.2) := by
        simp [splitOnce, here]
      rw [later]
      constructor
      · intro found
        obtain ⟨⟨front, tail⟩, split, same⟩ := Option.map_eq_some_iff.mp found
        cases same
        obtain ⟨rfl, apart⟩ := ih.mp split
        exact ⟨rfl, List.not_mem_cons_of_ne_of_not_mem here apart⟩
      · rintro ⟨same, apart⟩
        cases before with
        | nil => exact absurd (List.cons.inj same).1.symm here
        | cons first before =>
          obtain ⟨rfl, rfl⟩ := List.cons.inj same
          rw [ih.mpr ⟨rfl, fun member => apart (List.mem_cons_of_mem _ member)⟩]
          rfl

/-! ### An element -/

private theorem splitStride_eq_some {part : List Char} {stride : {stride : UInt32 // stride ≠ 0}} :
    splitStride part = some (span, stride) ↔ (':' ∉ part ∧ span = part ∧ stride.val = 1) ∨
      ∃ three, part = span ++ ':' :: three ∧ ':' ∉ span ∧ Number three stride.val.toNat ∧ '-' ∈ span := by
  unfold splitStride
  cases found : splitOnce [':'] part with
  | none =>
    have absent := splitOnce_none.mp found
    constructor
    · intro same
      cases same
      exact .inl ⟨absent, rfl, rfl⟩
    · rintro (⟨_, rfl, one⟩ | ⟨three, rfl, _⟩)
      · exact congrArg some (Prod.ext rfl (Subtype.ext one.symm))
      · exact absurd (List.mem_append_right _ List.mem_cons_self) absent
  | some pair =>
    obtain ⟨before, after⟩ := pair
    obtain ⟨rfl, apart⟩ := splitOnce_some.mp found
    simp only [Option.bind_eq_bind, Option.bind_eq_some_iff, number_iff]
    constructor
    · rintro ⟨step, number, same⟩
      split at same
      next moves =>
        split at same
        next dash =>
          cases same
          exact .inr ⟨after, rfl, apart, number, by simpa using dash⟩
        · cases same
      · cases same
    · rintro (⟨absent, _⟩ | ⟨three, same, apart', number, dash⟩)
      · exact absurd (List.mem_append_right _ List.mem_cons_self) absent
      · have again := splitOnce_some.mpr ⟨same, apart'⟩
        rw [found] at again
        cases again
        refine ⟨stride.val, number, ?_⟩
        rw [dif_pos stride.property, if_pos (by simpa using dash)]

private theorem parseSpan_eq_some {ends : {ends : UInt32 × UInt32 // ends.1 ≤ ends.2}} :
    parseSpan span = some ends ↔ ('-' ∉ span ∧ Numeral span ends.val.1.toNat ∧ ends.val.2 = ends.val.1) ∨
      ∃ one two, span = one ++ '-' :: two ∧ '-' ∉ one ∧ Number one ends.val.1.toNat ∧ Number two ends.val.2.toNat := by
  unfold parseSpan
  cases found : splitOnce ['-'] span with
  | none =>
    have absent := splitOnce_none.mp found
    simp only [Option.bind_eq_bind, Option.bind_eq_some_iff, parseU32_eq_some]
    constructor
    · rintro ⟨cpu, numeral, same⟩
      cases same
      exact .inl ⟨absent, numeral, rfl⟩
    · rintro (⟨_, numeral, alone⟩ | ⟨one, two, rfl, _⟩)
      · exact ⟨ends.val.1, numeral, congrArg some (Subtype.ext (Prod.ext rfl alone.symm))⟩
      · exact absurd (List.mem_append_right _ List.mem_cons_self) absent
  | some pair =>
    obtain ⟨before, after⟩ := pair
    obtain ⟨rfl, apart⟩ := splitOnce_some.mp found
    simp only [Option.bind_eq_bind, Option.bind_eq_some_iff, number_iff]
    constructor
    · rintro ⟨first, low, last, high, same⟩
      split at same
      · cases same
        exact .inr ⟨before, after, rfl, apart, low, high⟩
      · cases same
    · rintro (⟨absent, _⟩ | ⟨one, two, same, apart', low, high⟩)
      · exact absurd (List.mem_append_right _ List.mem_cons_self) absent
      · have again := splitOnce_some.mpr ⟨same, apart'⟩
        rw [found] at again
        cases again
        exact ⟨ends.val.1, low, ends.val.2, high, dif_pos ends.property⟩

private theorem Number.padded (number : Number text value) (blank : Blank before)
    (blank' : Blank after) : Number (before ++ (text ++ after)) value := by
  obtain ⟨front, numeral, back, clear, reads, clear', rfl⟩ := number
  refine ⟨before ++ front, numeral, back ++ after, fun char member => ?_, reads, fun char member => ?_, by simp⟩
  · exact (List.mem_append.mp member).elim (blank char) (clear char)
  · exact (List.mem_append.mp member).elim (clear' char) (blank' char)

private theorem trim_numbers {one two : List Char} {first last : Nat} (starts : Number one first) (ends : Number two last) (middle : List Char) :
    ∃ one' two', trim (one ++ (middle ++ two)) = one' ++ (middle ++ two') ∧ Number one' first ∧ Number two' last := by
  obtain ⟨before, low, gap, blank, reads, clear, rfl⟩ := starts
  obtain ⟨gap', high, after, clear', reads', blank', rfl⟩ := ends
  refine ⟨low ++ gap, gap' ++ high, ?_, ⟨[], low, gap, List.forall_mem_nil _, reads, clear, rfl⟩,
    gap', high, [], clear', reads', List.forall_mem_nil _, by simp⟩
  have bare : Bare (low ++ gap ++ (middle ++ (gap' ++ high))) := by
    obtain ⟨char, rest, rfl, dark⟩ := reads.bare.starts
    obtain ⟨front, char', rfl, dark'⟩ := reads'.bare.ends
    exact ⟨⟨char, _, rfl, dark⟩, ⟨char :: rest ++ gap ++ (middle ++ (gap' ++ front)), char', by simp, dark'⟩⟩
  have whole : before ++ (low ++ gap) ++ (middle ++ (gap' ++ (high ++ after))) =
      before ++ (low ++ gap ++ (middle ++ (gap' ++ high)) ++ after) := by simp
  rw [whole, trim_bare blank bare blank']

private theorem parseElement_parts :
    parseElement text = some element ↔ trim text ≠ [] ∧
      ∃ span, splitStride (trim text) = some (span, ⟨element.stride, element.moves⟩) ∧
        parseSpan span = some ⟨(element.first, element.last), element.ordered⟩ := by
  simp only [parseElement, List.isEmpty_iff]
  by_cases empty : trim text = []
  · simp [empty]
  · rw [if_neg empty]
    simp only [Option.bind_eq_bind, Option.bind_eq_some_iff]
    constructor
    · rintro ⟨⟨span, stride⟩, split, ends, parsed, same⟩
      cases same
      exact ⟨empty, span, split, parsed⟩
    · rintro ⟨_, span, split, parsed⟩
      exact ⟨_, split, _, parsed, rfl⟩

private theorem parseElement_eq_some : parseElement text = some element ↔ CpuText text element := by
  rw [parseElement_parts]
  constructor
  · rintro ⟨_, span, split, parsed⟩
    obtain ⟨before, after, blank, blank', whole⟩ := trim_spec text
    generalize trim text = part at split whole
    subst whole
    rcases splitStride_eq_some.mp split with ⟨_, rfl, one⟩ | ⟨three, rfl, _, step, dash⟩
    · rcases parseSpan_eq_some.mp parsed with ⟨_, numeral, alone⟩ | ⟨low, high, rfl, _, first, last⟩
      · exact .cpu ⟨before, span, after, blank, numeral, blank', rfl⟩ alone one
      · have padded := CpuText.range (first.padded blank (List.forall_mem_nil _)) (last.padded (List.forall_mem_nil _) blank') one
        simpa using padded
    · rcases parseSpan_eq_some.mp parsed with ⟨absent, _⟩ | ⟨low, high, rfl, _, first, last⟩
      · exact absurd dash absent
      · have padded := CpuText.stride (first.padded blank (List.forall_mem_nil _)) last (step.padded (List.forall_mem_nil _) blank')
        simpa using padded
  · intro written
    cases written with
    | cpu first alone plain =>
      have dash := first.no_dash
      have colon := first.no_colon
      obtain ⟨before, numeral, after, blank, reads, blank', rfl⟩ := first
      rw [trim_bare blank reads.bare blank']
      simp only [List.mem_append, not_or] at dash colon
      exact ⟨reads.ne_nil, numeral, splitStride_eq_some.mpr (.inl ⟨colon.2.1, rfl, plain⟩),
        parseSpan_eq_some.mpr (.inl ⟨dash.2.1, reads, alone⟩)⟩
    | range first last plain =>
      obtain ⟨one, two, trimmed, low, high⟩ := trim_numbers first last ['-']
      rw [List.singleton_append, List.singleton_append] at trimmed
      rw [trimmed]
      refine ⟨by simp, _, splitStride_eq_some.mpr (.inl ⟨?_, rfl, plain⟩),
        parseSpan_eq_some.mpr (.inr ⟨one, two, rfl, low.no_dash, low, high⟩)⟩
      simp [low.no_colon, high.no_colon]
    | @stride _ two _ _ first last step =>
      obtain ⟨one, three, trimmed, low, moves⟩ := trim_numbers first step ('-' :: (two ++ [':']))
      simp only [List.cons_append, List.append_assoc, List.nil_append] at trimmed
      rw [trimmed]
      refine ⟨by simp, one ++ '-' :: two, splitStride_eq_some.mpr (.inr ⟨three, by simp, ?_, moves, by simp⟩),
        parseSpan_eq_some.mpr (.inr ⟨one, two, rfl, low.no_dash, low, last⟩)⟩
      simp [low.no_colon, last.no_colon]

/-! ### A list -/

private theorem CpuText.no_comma (written : CpuText text element) : ',' ∉ text := by
  cases written with
  | cpu first => exact first.no_comma
  | range first last => simp [first.no_comma, last.no_comma]
  | stride first last step => simp [first.no_comma, last.no_comma, step.no_comma]

theorem mapM_eq_some {α β : Type} {read : α → Option β} {values : List α} {results : List β} :
    values.mapM read = some results ↔ List.Forall₂ (fun value result => read value = some result) values results := by
  induction values generalizing results with
  | nil => simp [eq_comm]
  | cons value rest ih =>
    simp only [List.mapM_cons, Option.bind_eq_bind, Option.bind_eq_some_iff, ih, List.forall₂_cons_left_iff]
    constructor
    · rintro ⟨result, first, others, later, same⟩
      exact ⟨result, others, first, later, (Option.some.inj same).symm⟩
    · rintro ⟨result, others, first, later, rfl⟩
      exact ⟨result, first, others, later, rfl⟩

theorem parseElements_eq_some :
    (text.splitOn ',').mapM parseElement = some elements ↔ CpuList text elements := by
  simp only [mapM_eq_some, parseElement_eq_some]
  constructor
  · intro written
    exact ⟨text.splitOn ',', List.splitOn_ne_nil _ _, (List.intercalate_splitOn ',').symm, written⟩
  · rintro ⟨parts, some_, rfl, written⟩
    have apart : ∀ part ∈ parts, ',' ∉ part := by
      clear some_
      induction written with
      | nil => exact List.forall_mem_nil _
      | cons first _ ih => exact List.forall_mem_cons.mpr ⟨first.no_comma, ih⟩
    rw [List.splitOn_intercalate ',' apart some_]
    exact written

/-! ### Every element has a text -/

private theorem exists_numeral (value : Nat) : ∃ text, Numeral text value := by
  suffices ∃ digits, Digits digits value by
    obtain ⟨digits, some_, all, rfl⟩ := this
    exact ⟨digits, .plain some_ all⟩
  have digit : ∀ value < 10, value.digitChar.isDigit = true ∧ value.digitChar.toNat - 48 = value := by decide
  have one (value : Nat) (small : value < 10) : Digits [value.digitChar] value :=
    ⟨by simp, by simp [(digit value small).1], by simp [← decimal_eq_foldl, (digit value small).2]⟩
  induction value using Nat.strongRecOn with
  | ind value ih =>
    rcases Nat.lt_or_ge value 10 with small | large
    · exact ⟨_, one value small⟩
    · -- the last digit behind those of the quotient
      obtain ⟨digits, _, all, read⟩ := ih (value / 10) (by omega)
      obtain ⟨_, last, _⟩ := one (value % 10) (by omega)
      refine ⟨digits ++ [(value % 10).digitChar], by simp, fun char member => ?_, ?_⟩
      · exact (List.mem_append.mp member).elim (all char) (last char)
      · rw [← decimal_eq_foldl, List.foldl_append, decimal_eq_foldl, read]
        have := (digit (value % 10) (by omega)).2
        simp only [List.foldl_cons, List.foldl_nil, this]
        omega

private theorem exists_cpuText (element : CpuElement) : ∃ text, CpuText text element := by
  have number (value : Nat) : ∃ text, Number text value := by
    obtain ⟨numeral, reads⟩ := exists_numeral value
    exact ⟨numeral, [], numeral, [], List.forall_mem_nil _, reads, List.forall_mem_nil _, by simp⟩
  obtain ⟨one, first⟩ := number element.first.toNat
  obtain ⟨two, last⟩ := number element.last.toNat
  obtain ⟨three, step⟩ := number element.stride.toNat
  exact ⟨_, .stride first last step⟩

theorem exists_cpuList (some_ : elements ≠ []) : ∃ text, CpuList text elements := by
  have parts : ∃ parts, List.Forall₂ CpuText parts elements := by
    clear some_
    induction elements with
    | nil => exact ⟨[], .nil⟩
    | cons element rest ih =>
      obtain ⟨part, first⟩ := exists_cpuText element
      obtain ⟨parts, later⟩ := ih
      exact ⟨part :: parts, .cons first later⟩
  obtain ⟨parts, written⟩ := parts
  refine ⟨_, parts, fun none => ?_, rfl, written⟩
  subst none
  exact some_ (List.forall₂_nil_left_iff.mp written)

end UringMqtt.Bench

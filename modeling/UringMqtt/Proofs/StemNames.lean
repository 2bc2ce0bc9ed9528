import UringMqtt.Bench.Names

/-! The name of a repetition's files tells its configuration, its attempt and its number:
no two runs share one. -/

namespace UringMqtt.Bench
open Lib

theorem toDigits_inj {one two : Nat} (same : Nat.toDigits 10 one = Nat.toDigits 10 two) : one = two := by
  rw [← Nat.ofDigitChars_ten_toDigits (n := one), same, Nat.ofDigitChars_ten_toDigits]

theorem not_mem_toDigits {value : Nat} {char : Char} (letter : char.isDigit = false) : char ∉ Nat.toDigits 10 value := by
  intro member
  rw [Nat.isDigit_of_mem_toDigits (by decide) (by decide) member] at letter
  cases letter

def ConfigKey.parts (key : ConfigKey) (attempt repetition : UInt32) : List (List Char) :=
  (serverLower key.server).toList :: ('w' :: Nat.toDigits 10 key.workers.toNat) ::
    ((key.qos.elim [] fun qos => ['q' :: Nat.toDigits 10 qos.toNat]) ++ (kindLower key.kind).toList ::
      ((key.offeredRate.elim [] fun rate => ['a' :: 't' :: Nat.toDigits 10 rate.toNat]) ++
        ['a' :: Nat.toDigits 10 attempt.toNat, 'r' :: Nat.toDigits 10 repetition.toNat]))

theorem ConfigKey.stem_parts (key : ConfigKey) (attempt repetition : UInt32) :
    (key.stem attempt repetition).toList = ['-'].intercalate (key.parts attempt repetition) := by
  have shown (value : Nat) : (toString value).toList = Nat.toDigits 10 value := Nat.toList_repr
  have number (value : UInt32) : (toString value).toList = Nat.toDigits 10 value.toNat := shown value.toNat
  have small (value : UInt8) : (toString value).toList = Nat.toDigits 10 value.toNat := shown value.toNat
  have large (value : UInt64) : (toString value).toList = Nat.toDigits 10 value.toNat := shown value.toNat
  have text (value : String) : toString value = value := rfl
  obtain ⟨server, workers, qos, kind, rate⟩ := key
  cases qos <;> cases rate <;>
    simp [ConfigKey.stem, ConfigKey.parts, List.intercalate, text, number, small, large]

private theorem ConfigKey.parts_whole (key : ConfigKey) (attempt repetition : UInt32) :
    ∀ part ∈ key.parts attempt repetition, '-' ∉ part := by
  have digits (value : Nat) : '-' ∉ Nat.toDigits 10 value := not_mem_toDigits (by decide)
  obtain ⟨server, workers, qos, kind, rate⟩ := key
  have serverName : '-' ∉ (serverLower server).toList := by cases server <;> decide
  have kindName : '-' ∉ (kindLower kind).toList := by cases kind <;> decide
  cases qos <;> cases rate <;> simp [ConfigKey.parts, digits, serverName, kindName]

private theorem serverLower_inj {one two : ServerKind} (same : (serverLower one).toList = (serverLower two).toList) : one = two := by
  revert same
  cases one <;> cases two <;> decide

private theorem kindLower_inj {one two : RunKind} (same : (kindLower one).toList = (kindLower two).toList) : one = two := by
  revert same
  cases one <;> cases two <;> decide

variable {kind : RunKind} {digits : List Char} {attempt attempt' repetition repetition' : UInt32}

private theorem kindLower_ne_qos : (kindLower kind).toList ≠ 'q' :: digits := by
  cases kind <;> simp [kindLower]

private theorem attempt_ne_rate {attempt : Nat} : 'a' :: Nat.toDigits 10 attempt ≠ 'a' :: 't' :: digits := by
  intro same
  have starts : Nat.toDigits 10 attempt = 't' :: digits := (List.cons.inj same).2
  exact @not_mem_toDigits attempt 't' (by decide) (starts ▸ List.mem_cons_self)

private theorem tail_inj {kind' : RunKind} {rate rate' : Option UInt64}
    (same : (kindLower kind).toList :: ((rate.elim [] fun rate => ['a' :: 't' :: Nat.toDigits 10 rate.toNat]) ++
        ['a' :: Nat.toDigits 10 attempt.toNat, 'r' :: Nat.toDigits 10 repetition.toNat]) =
      (kindLower kind').toList :: ((rate'.elim [] fun rate => ['a' :: 't' :: Nat.toDigits 10 rate.toNat]) ++
        ['a' :: Nat.toDigits 10 attempt'.toNat, 'r' :: Nat.toDigits 10 repetition'.toNat])) :
    kind = kind' ∧ rate = rate' ∧ attempt = attempt' ∧ repetition = repetition' := by
  obtain ⟨kinds, rest⟩ := List.cons.inj same
  refine ⟨kindLower_inj kinds, ?_⟩
  cases rate with
  | none =>
    cases rate' with
    | none =>
      simp only [Option.elim_none, List.nil_append, List.cons.injEq, true_and, and_true] at rest
      exact ⟨rfl, UInt32.toNat_inj.mp (toDigits_inj rest.1), UInt32.toNat_inj.mp (toDigits_inj rest.2)⟩
    | some => exact absurd (List.cons.inj rest).1 attempt_ne_rate
  | some value =>
    cases rate' with
    | none => exact absurd (List.cons.inj rest).1.symm attempt_ne_rate
    | some value' =>
      simp only [Option.elim_some, List.cons_append, List.nil_append, List.cons.injEq, true_and, and_true] at rest
      exact ⟨congrArg some (UInt64.toNat_inj.mp (toDigits_inj rest.1)), UInt32.toNat_inj.mp (toDigits_inj rest.2.1),
        UInt32.toNat_inj.mp (toDigits_inj rest.2.2)⟩

private theorem ConfigKey.stem_inj {one two : ConfigKey}
    (same : one.stem attempt repetition = two.stem attempt' repetition') : one = two ∧ attempt = attempt' ∧ repetition = repetition' := by
  have parts : one.parts attempt repetition = two.parts attempt' repetition' := by
    have joined := congrArg String.toList same
    rw [stem_parts, stem_parts] at joined
    rw [← List.splitOn_intercalate '-' (one.parts_whole attempt repetition) (by simp [ConfigKey.parts]), joined,
      List.splitOn_intercalate '-' (two.parts_whole attempt' repetition') (by simp [ConfigKey.parts])]
  obtain ⟨server, workers, qos, kind, rate⟩ := one
  obtain ⟨server', workers', qos', kind', rate'⟩ := two
  obtain ⟨servers, rest⟩ := List.cons.inj parts
  obtain ⟨counts, rest⟩ := List.cons.inj rest
  obtain rfl := serverLower_inj servers
  obtain rfl := UInt32.toNat_inj.mp (toDigits_inj (List.cons.inj counts).2)
  cases qos with
  | none =>
    cases qos' with
    | none =>
      obtain ⟨rfl, rfl, attempts, repetitions⟩ := tail_inj rest
      exact ⟨rfl, attempts, repetitions⟩
    | some => exact absurd (List.cons.inj rest).1 kindLower_ne_qos
  | some level =>
    cases qos' with
    | none => exact absurd (List.cons.inj rest).1.symm kindLower_ne_qos
    | some level' =>
      obtain ⟨levels, rest⟩ := List.cons.inj rest
      obtain rfl := UInt8.toNat_inj.mp (toDigits_inj (List.cons.inj levels).2)
      obtain ⟨rfl, rfl, attempts, repetitions⟩ := tail_inj rest
      exact ⟨rfl, attempts, repetitions⟩

/-! ### File names -/

theorem ConfigKey.stem_dotless (key : ConfigKey) (attempt repetition : UInt32) : '.' ∉ (key.stem attempt repetition).toList := by
  have digits (value : Nat) : '.' ∉ Nat.toDigits 10 value := not_mem_toDigits (by decide)
  rw [stem_parts]
  obtain ⟨server, workers, qos, kind, rate⟩ := key
  have serverName : '.' ∉ (serverLower server).toList := by cases server <;> decide
  have kindName : '.' ∉ (kindLower kind).toList := by cases kind <;> decide
  cases qos <;> cases rate <;> simp [ConfigKey.parts, List.intercalate, digits, serverName, kindName]

theorem withoutJson_stem (key : ConfigKey) (attempt repetition : UInt32) :
    withoutJson (key.stem attempt repetition ++ ".json") = key.stem attempt repetition := by
  have suffix : without ".json".toList 0 ".json".toList = [] := without_self
  have taken : without ".json".toList 0 ((key.stem attempt repetition).toList ++ ".json".toList) =
      (key.stem attempt repetition).toList ++ without ".json".toList 0 ".json".toList :=
    without_append _ (key.stem_dotless attempt repetition)
  rw [withoutJson, String.toList_append, taken, suffix, List.append_nil, String.ofList_toList]

private theorem RunSpec.stemFor_eq (f64 : F64) (spec : RunSpec) : spec.stemFor f64 = Bench.stemFor spec :=
  withoutJson_stem (keyOf spec) spec.attempt spec.repetition

private theorem append_json_inj {one two : String} (same : one ++ ".json" = two ++ ".json") : one = two :=
  (String.append_left_inj _).mp same

variable {f64 : F64}

namespace RunRecord

private theorem scratchStem_eq (record : RunRecord f64) : record.scratchStem = record.stem :=
  withoutJson_stem record.key record.attempt record.repetition

private theorem fileName_inj {one two : RunRecord f64} (same : one.fileName = two.fileName) :
    one.key = two.key ∧ one.attempt = two.attempt ∧ one.repetition = two.repetition :=
  ConfigKey.stem_inj (append_json_inj same)

private theorem fileName_ne_temporaryName (one two : RunRecord f64) : one.fileName ≠ two.temporaryName := by
  intro same
  have ends := congrArg (fun name : String => name.toList.getLast?) same
  simp [fileName, temporaryName] at ends

private theorem fileName_ne_stem (one : RunRecord f64) (key : ConfigKey) (attempt repetition : UInt32) :
    one.fileName ≠ key.stem attempt repetition := by
  intro same
  have dotless := key.stem_dotless attempt repetition
  rw [← same] at dotless
  simp [fileName] at dotless

end RunRecord

/-- The name of a record's file tells the run it is of: it is shared by the records of one
configuration, attempt and repetition only, it is the stem of their spec with `.json`, and
no temporary record and no scratch directory has it. -/
theorem record_names_apart (one two : RunRecord f64) (spec : RunSpec) :
    (one.fileName = two.fileName ↔
      one.server = two.server ∧ one.workers = two.workers ∧ one.qos = two.qos ∧ one.kind = two.kind ∧
        one.offeredRate = two.offeredRate ∧ one.attempt = two.attempt ∧ one.repetition = two.repetition) ∧
    (spec.stemFor f64 ++ ".json" = one.fileName ↔
      one.server = spec.server ∧ one.workers = spec.workers ∧ one.qos = spec.qos ∧ one.kind = spec.kind ∧
        one.offeredRate = spec.offeredRate ∧ one.attempt = spec.attempt ∧ one.repetition = spec.repetition) ∧
    one.fileName ≠ two.temporaryName ∧ one.fileName ≠ two.scratchStem ∧ one.fileName ≠ spec.stemFor f64 := by
  have names (one two : RunRecord f64) : one.fileName = two.fileName ↔
      one.server = two.server ∧ one.workers = two.workers ∧ one.qos = two.qos ∧ one.kind = two.kind ∧
        one.offeredRate = two.offeredRate ∧ one.attempt = two.attempt ∧ one.repetition = two.repetition := by
    constructor
    · intro same
      obtain ⟨keys, attempts, repetitions⟩ := RunRecord.fileName_inj same
      obtain ⟨servers, workers, qos, kinds, rates⟩ := ConfigKey.mk.inj keys
      exact ⟨servers, workers, qos, kinds, rates, attempts, repetitions⟩
    · rintro ⟨servers, workers, qos, kinds, rates, attempts, repetitions⟩
      rw [RunRecord.fileName, RunRecord.fileName, RunRecord.stem, RunRecord.stem, RunRecord.key, RunRecord.key, servers, workers, qos,
        kinds, rates, attempts, repetitions]
  -- A spec's stem is that of the minimal record, whose name it therefore completes.
  have minimal : spec.stemFor f64 ++ ".json" = (buildMinimalRecord f64 spec).fileName := by
    rw [RunSpec.stemFor_eq]
    rfl
  refine ⟨names one two, ?_, one.fileName_ne_temporaryName two, ?_, ?_⟩
  · rw [minimal, eq_comm]
    exact names one (buildMinimalRecord f64 spec)
  · rw [RunRecord.scratchStem_eq]
    exact one.fileName_ne_stem two.key two.attempt two.repetition
  · rw [RunSpec.stemFor_eq]
    exact one.fileName_ne_stem (keyOf spec) spec.attempt spec.repetition

end UringMqtt.Bench

import UringMqtt.Bench.Doc
import UringMqtt.Proofs.OutcomeLaws

/-! What `bench doc` publishes. A recorded document is rendered for exactly the record sets
that cover the recorded matrix, each configuration passed or not sustained. -/

namespace UringMqtt.Bench

variable {f64 : F64} {records runs : List (RunRecord f64)}

def Uniform {α β : Type} (values : List α) (of : α → β) : Prop := ∀ one ∈ values, ∀ two ∈ values, of one = of two

theorem dedup_le_one {α β : Type} [DecidableEq β] {values : List α} {of : α → β} :
    ¬(values.map of).dedup.length > 1 ↔ Uniform values of := by
  have uniform : Uniform values of ↔ ∀ one ∈ (values.map of).dedup, ∀ two ∈ (values.map of).dedup, one = two := by simp [Uniform]
  have distinct := List.nodup_dedup (values.map of)
  rw [uniform]
  generalize (values.map of).dedup = listed at distinct ⊢
  rcases listed with _ | ⟨first, _ | ⟨second, rest⟩⟩
  · simp
  · simp
  · have apart : first ≠ second := by grind
    simp [apart]

/-! ### The records -/

/-- A record of the recorded protocol that agrees with its own observations, from a clean
release build, with a text in each cell it is shown in. -/
structure SoundRecord [DecidableEq f64.Value] (quote : String → String) (record : RunRecord f64) : Prop where
  schema : record.schema = schemaVersion
  consistent : recompute record quote = []
  profile : record.profile = .recorded
  build : record.build = .release
  clean : record.env.gitDirty = false
  protocol : record.warmupSecs = 10 ∧ record.windowSecs = 60 ∧ record.drainGraceSecs = 5 ∧ record.connections = runnerConnections ∧
    record.payloadBytes = UInt32.ofNat payloadBytes ∧ record.qos1Window = runnerQos1Window
  texts : ∀ text ∈ [record.env.gitSha, record.env.kernel, record.env.host, record.env.cpuModel], blankCell text = false
  sets : blankCell record.cpuSets.server = false ∧ blankCell record.cpuSets.generator = false
  tools : record.env.tools ≠ [] ∧ ∀ tool ∈ record.env.tools, blankCell tool.1 = false ∧ blankCell tool.2 = false

private theorem cpuSetRefusal_eq_none {quote : String → String} :
    cpuSetRefusal quote records = none ↔ Uniform records RunRecord.cpuSets ∧
      ∀ record ∈ records, blankCell record.cpuSets.server = false ∧ blankCell record.cpuSets.generator = false := by
  have sets_eq (one two : CpuSets) : one = two ↔ (one.server, one.generator) = (two.server, two.generator) := by
    cases one
    cases two
    simp
  have uniform : Uniform records RunRecord.cpuSets ↔ Uniform records fun record => (record.cpuSets.server, record.cpuSets.generator) := by
    simp only [Uniform, sets_eq]
  rw [uniform, ← dedup_le_one, cpuSetRefusal]
  set listed := (records.map fun record => (record.cpuSets.server, record.cpuSets.generator)).dedup
  have kept (record) (member : record ∈ records) : (record.cpuSets.server, record.cpuSets.generator) ∈ listed :=
    List.mem_dedup.mpr (List.mem_map_of_mem member)
  have from_ (pair) (member : pair ∈ listed) : ∃ record ∈ records, (record.cpuSets.server, record.cpuSets.generator) = pair :=
    List.mem_map.mp (List.mem_dedup.mp member)
  rcases listed with _ | ⟨pair, _ | ⟨second, rest⟩⟩
  · simp only [sortBy, List.insertionSort_nil]
    grind
  · obtain ⟨record, member, rfl⟩ := from_ _ List.mem_cons_self
    have all (other) (among : other ∈ records) := Prod.mk.inj (List.mem_singleton.mp (kept other among))
    simp only [sortBy, List.insertionSort_cons, List.insertionSort_nil, List.orderedInsert_nil]
    grind
  · simp [(sortBy_perm _).length_eq]

private theorem checks_eq_none [DecidableEq f64.Value] {quote : String → String} :
    (schemaRefusal records).or ((recomputeRefusal quote records).or (recordedRefusal quote records)) = none ↔
      (∀ record ∈ records, SoundRecord quote record) ∧ Uniform records RunRecord.env ∧ Uniform records RunRecord.cpuSets := by
  have build (build : Build) : ¬build = .debug ↔ build = .release := by cases build <;> decide
  have profile (profile : Profile) : ¬profile = .smoke ↔ profile = .recorded := by cases profile <;> decide
  have env_eq (one two : Env) : one = two ↔ one.gitSha = two.gitSha ∧ one.kernel = two.kernel ∧ one.host = two.host ∧
      one.cpuModel = two.cpuModel ∧ one.tools = two.tools ∧ one.gitDirty = two.gitDirty := by
    cases one
    cases two
    simp only [Env.mk.injEq]
    tauto
  have tools {tool : String × String} : tool ∈ ((records.map fun record => record.env.tools).dedup).flatten ↔
      ∃ record ∈ records, tool ∈ record.env.tools := by simp
  simp only [schemaRefusal, recomputeRefusal, recordedRefusal, profileRefusal, environmentRefusal, mixedRefusal, blankRefusal,
    protocolRefusal, constantRefusal, ProtocolConstants.forProfile, cpuSetRefusal_eq_none, Option.or_eq_none_iff,
    Option.map_eq_none_iff, List.find?_eq_none, List.findIdx?_eq_none_iff, List.findSome?_eq_none_iff, ite_eq_right_iff, reduceCtorEq,
    imp_false, dedup_le_one, List.any_eq_true, not_exists, not_and, forall_exists_index, and_imp, tools, decide_eq_true_eq, not_not,
    Bool.not_eq_true, Bool.not_eq_false', List.isEmpty_iff, build, profile, ne_eq]
  simp only [Uniform, env_eq]
  constructor
  · rintro ⟨schema, consistent, profile, build, clean, ⟨sha, kernel, host, cpu, used, someSha, someKernel, someHost, someCpu, tools,
      paths, versions⟩, protocol, sets, shown⟩
    refine ⟨fun record member => ⟨schema record member, consistent record member, profile record member, build record member,
      clean record member, protocol record member, ?_, shown record member, ?_⟩, ?_, sets⟩
    all_goals grind
  · rintro ⟨sound, env, sets⟩
    refine ⟨?_, ?_, ?_, ?_, ?_, ⟨?_, ?_, ?_, ?_, ?_, ?_, ?_, ?_, ?_, ?_, ?_, ?_⟩, ?_, sets, ?_⟩
    all_goals grind [SoundRecord]

/-! ### The configurations -/

variable {attempt : UInt32}

private theorem highestRuns_eq (highest : Highest runs attempt) : highestRuns runs = attemptGroup runs attempt := by
  obtain ⟨⟨run, member, same⟩, most⟩ := highest
  have top (a b : UInt32) : max a b = if a ≤ b then b else a := rfl
  have : Std.LawfulOrderMax UInt32 := .of_max_le_iff (by grind) (by grind)
  have largest : (runs.map (·.attempt)).max? = some attempt := by
    rw [List.max?_eq_some_iff]
    exact ⟨List.mem_map.mpr ⟨run, member, same⟩, by simpa using most⟩
  have among : run ∈ attemptGroup runs attempt := mem_attemptGroup.mpr ⟨member, same⟩
  rw [highestRuns, largest, Option.getD_some]
  exact if_neg fun empty => List.ne_nil_of_mem among (List.isEmpty_iff.mp empty)

private theorem exists_highest (some_ : runs ≠ []) : ∃ attempt, (attemptsOf runs).getLast? = some attempt ∧ Highest runs attempt := by
  obtain ⟨run, rest, rfl⟩ := List.exists_cons_of_ne_nil some_
  have listed : run.attempt ∈ attemptsOf (run :: rest) := mem_attemptsOf.mpr ⟨run, List.mem_cons_self, rfl⟩
  have ends := List.getLast?_eq_some_getLast (List.ne_nil_of_mem listed)
  exact ⟨_, ends, getLast_attemptsOf ends⟩

variable [Figures f64]

/-- A configuration of a recorded document stands by its highest attempt, or by the outcome
of its open-loop runs. -/
theorem standing_cases (records : List (RunRecord f64)) (key : ConfigKey) :
    (∀ group, (standing records false key).passing? = some group ↔ ∃ attempt, Highest (keyRuns records key) attempt ∧
      attemptGroup (keyRuns records key) attempt = group ∧
      configPasses group (docConstants false).repetitions (docConstants false).enforceSpread = true) ∧
    ∀ rows, (standing records false key).notSustained? = some rows ↔
      key.kind.isOpenLoop = true ∧ openLoopOutcome (keyRuns records key) (docConstants false) = .notSustained rows := by
  unfold standing
  generalize keyRuns records key = runs, docConstants false = constants
  rcases eq_or_ne runs [] with rfl | some_
  · simp [Standing.passing?, Standing.notSustained?, Highest, openLoopOutcome, attemptsOf, sortBy]
  · obtain ⟨attempt, ends, highest⟩ := exists_highest some_
    have only (other) (highest' : Highest runs other) := highest.unique highest'
    have decided : openLoopOutcome runs constants = .passed ↔
        configPasses (attemptGroup runs attempt) constants.repetitions constants.enforceSpread = true := by
      rw [openLoopOutcome, ends]
      grind
    dsimp only
    rw [highestRuns_eq highest]
    refine ⟨fun group => ?_, fun rows => ?_⟩
    all_goals cases outcome : openLoopOutcome runs constants <;> grind [Standing.passing?, Standing.notSustained?]

/-- The configuration's highest attempt passes, or its open-loop runs were not sustained. -/
def Concluded (records : List (RunRecord f64)) (key : ConfigKey) : Prop :=
  HighestPasses (keyRuns records key) (docConstants false) ∨
    key.kind.isOpenLoop = true ∧ ∃ rows, openLoopOutcome (keyRuns records key) (docConstants false) = .notSustained rows

private theorem concluded_iff (key : ConfigKey) : Concluded records key ↔
    ((standing records false key).passing?.isNone && (standing records false key).notSustained?.isNone) = false := by
  simp only [Concluded, Bool.and_eq_false_iff, Option.isNone_eq_false_iff, Option.isSome_iff_exists, (standing_cases records key).1,
    (standing_cases records key).2, HighestPasses]
  grind

theorem Concluded.recorded {key : ConfigKey} (settled : Concluded records key) : ∃ record ∈ records, record.key = key := by
  have some_ : keyRuns records key ≠ [] := by
    rcases settled with passes | ⟨_, rows, outcome⟩
    · exact passes.recorded
    · intro empty
      rw [empty] at outcome
      cases outcome
  obtain ⟨run, member⟩ := List.exists_mem_of_ne_nil _ some_
  exact ⟨run, by simpa [keyRuns] using member⟩

private theorem methodRefusal_eq_none :
    methodRefusal records = none ↔ Uniform (publishedCounted records false) fun record => record.syscalls.method := by
  have label_eq (one two : SyscallMethod) : methodLabel one = methodLabel two ↔ one = two := by
    cases one <;> cases two <;> decide
  rw [methodRefusal, ite_eq_right_iff, publishedSyscallMethods, (sortBy_perm _).length_eq]
  simp only [reduceCtorEq, imp_false, dedup_le_one, Uniform, label_eq]

/-- The whole matrix and nothing else, every configuration settled, with counter evidence
by one method where the matrix counts and none elsewhere. -/
structure Covered (records : List (RunRecord f64)) : Prop where
  keys : ∀ key, (∃ record ∈ records, record.key = key) ↔ key ∈ expectedConfigs .recorded
  settled : ∀ key ∈ expectedConfigs .recorded, Concluded records key
  counted : ∀ record ∈ records, record.key.kind = .counted → record.syscalls.method ≠ .none
  uncounted : ∀ record ∈ records, record.key.kind ≠ .counted → counterOnUncountedRow record = none
  methods : Uniform (publishedCounted records false) fun record => record.syscalls.method

private theorem configurationRefusal_eq_none : configurationRefusal records = none ↔ Covered records := by
  have evident (key) : evidenceRefusal records key = none ↔ ∀ record ∈ records, record.key = key →
      (key.kind = .counted → record.syscalls.method ≠ .none) ∧ (key.kind ≠ .counted → counterOnUncountedRow record = none) := by
    have three (method : SyscallMethod) : (method ≠ .perf && method ≠ .strace) = false ↔ method ≠ .none := by
      cases method <;> decide
    unfold evidenceRefusal
    split <;> simp_all [keyRuns, List.findSome?_eq_none_iff]
  have names : (failedNames records).isEmpty = true ↔ ∀ key ∈ expectedConfigs .recorded, Concluded records key := by
    simp only [failedNames, List.isEmpty_iff, List.map_eq_nil_iff, List.filter_eq_nil_iff, Bool.not_eq_true, concluded_iff]
  simp only [configurationRefusal, Option.or_eq_none_iff, outsideRefusal, Option.map_eq_none_iff, List.find?_eq_none,
    List.findSome?_eq_none_iff, ite_eq_left_iff, reduceCtorEq, imp_false, not_not, names, evident, methodRefusal_eq_none,
    decide_eq_true_eq]
  constructor
  · rintro ⟨inside, settled, evidence, methods⟩
    exact ⟨fun key => ⟨by grind, fun expected => (settled key expected).recorded⟩, settled, by grind, by grind, methods⟩
  · rintro ⟨keys, settled, counted, uncounted, methods⟩
    exact ⟨by grind, settled, by grind, methods⟩

/-- A recorded document is rendered for exactly the record sets that are sound and cover the
matrix, and its figures of a configuration come from the valid repetitions of that
configuration's highest attempt. -/
theorem rendered_iff_covered [DecidableEq f64.Value] [DocFigures f64] (quote : String → String) (records : List (RunRecord f64)) :
    ((∃ doc, render quote records false = .ok doc) ↔ records ≠ [] ∧ (∀ record ∈ records, SoundRecord quote record) ∧
      Uniform records RunRecord.env ∧ Uniform records RunRecord.cpuSets ∧ Covered records) ∧
    ∀ key group, passing records false key = some group → ∃ attempt, Highest (keyRuns records key) attempt ∧
      group = attemptGroup (keyRuns records key) attempt ∧ (group.map (·.repetition)).Perm (repetitionRange 5) ∧
      ∀ run ∈ group, run.cancelled = false ∧ run.survived = false ∧ run.valid = true := by
  constructor
  · have decided : (∃ doc, render quote records false = .ok doc) ↔ refusal quote records false = none := by
      unfold render
      cases refused : refusal quote records false with
      | some error => simp
      | none =>
        cases records with
        | nil => cases refused
        | cons => simp
    have checks := @checks_eq_none f64 records _ quote
    rw [decided, refusal]
    simp only [Option.or_eq_none_iff, Bool.false_eq_true, if_false, configurationRefusal_eq_none, ite_eq_right_iff, reduceCtorEq,
      imp_false, List.isEmpty_iff] at checks ⊢
    tauto
  · intro key group passes
    rw [passing] at passes
    split at passes
    · obtain ⟨attempt, highest, rfl, passed⟩ := ((standing_cases records key).1 group).mp passes
      obtain ⟨complete, valid, -⟩ := configPasses_iff.mp passed
      obtain ⟨uncancelled, ended, repetitions⟩ := attemptComplete_iff.mp complete
      exact ⟨attempt, highest, rfl, repetitions, fun run member => ⟨uncancelled run member, ended run member, valid run member⟩⟩
    · cases passes

end UringMqtt.Bench

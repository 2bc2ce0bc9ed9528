import UringMqtt.Bench.Json
import UringMqtt.Bench.Names
import UringMqtt.Proofs.AttemptLaws
import UringMqtt.Proofs.DocCells

/-! The text of the records stays in its cells: the rest of the document is that of the
records without their environment. -/

namespace UringMqtt.Bench
open Lib Table

variable {f64 : F64}

def RunRecord.bare (record : RunRecord f64) : RunRecord f64 := { record with env := ⟨"", "", "", "", false, []⟩ }

open RunRecord (bare)

/-! ### The judgement of a configuration does not read the environment -/

section Judgement
variable (runs : List (RunRecord f64))

theorem find_bare (wanted : RunRecord f64 → Bool) (reads : ∀ run, wanted run.bare = wanted run) :
    (runs.map bare).find? wanted = (runs.find? wanted).map bare := by
  have same : wanted ∘ bare = wanted := funext reads
  rw [List.find?_map, same]

theorem filter_bare (wanted : RunRecord f64 → Bool) (reads : ∀ run, wanted run.bare = wanted run) :
    (runs.map bare).filter wanted = (runs.filter wanted).map bare := by
  have same : wanted ∘ bare = wanted := funext reads
  rw [List.filter_map, same]

theorem map_bare {β : Type} (value : RunRecord f64 → β) (reads : ∀ run, value run.bare = value run) :
    (runs.map bare).map value = runs.map value := by
  have same : value ∘ bare = value := funext reads
  rw [List.map_map, same]

theorem filterMap_bare {β : Type} (value : RunRecord f64 → Option β) (reads : ∀ run, value run.bare = value run) :
    (runs.map bare).filterMap value = runs.filterMap value := by
  have same : value ∘ bare = value := funext reads
  rw [List.filterMap_map, same]

theorem incompleteReason_bare (repetitions : UInt32) : incompleteReason (runs.map bare) repetitions = incompleteReason runs repetitions := by
  unfold incompleteReason
  rw [find_bare runs (·.cancelled) fun _ => rfl, find_bare runs (·.survived) fun _ => rfl, map_bare runs (·.repetition) fun _ => rfl]
  cases runs.find? (·.cancelled) with
  | some => rfl
  | none => cases runs.find? (·.survived) <;> rfl

theorem attemptGroup_bare (attempt : UInt32) : attemptGroup (runs.map bare) attempt = (attemptGroup runs attempt).map bare :=
  filter_bare runs _ fun _ => rfl

theorem attemptsOf_bare : attemptsOf (runs.map bare) = attemptsOf runs := by
  rw [attemptsOf, attemptsOf, map_bare runs (·.attempt) fun _ => rfl]

private theorem completedAttempts_bare (repetitions : UInt32) :
    completedAttempts (runs.map bare) repetitions = completedAttempts runs repetitions := by
  unfold completedAttempts attemptComplete
  simp only [attemptsOf_bare, attemptGroup_bare, incompleteReason_bare]

private theorem capacityRows_bare (run : RunRecord f64) : capacityRows run.bare = capacityRows run := rfl

private theorem counterFailed_bare (run : RunRecord f64) : counterFailed run.bare = counterFailed run := rfl

private theorem invalidRows_bare (attempt : UInt32) : invalidRows attempt (runs.map bare) = invalidRows attempt runs := by
  induction runs with
  | nil => rfl
  | cons run rest ih =>
    rw [List.map_cons, invalidRows, invalidRows, counterFailed_bare, capacityRows_bare, ih]
    rfl

private theorem sortBy_bare (le : RunRecord f64 → RunRecord f64 → Bool) (reads : ∀ one two, le one.bare two.bare = le one two) :
    sortBy le (runs.map bare) = (sortBy le runs).map bare := by
  unfold sortBy
  exact (List.map_insertionSort _ _ bare runs fun one _ two _ => by rw [reads]).symm

variable [Figures f64]

theorem configFailure_bare (repetitions : UInt32) (enforceSpread : Bool) :
    configFailure (runs.map bare) repetitions enforceSpread = configFailure runs repetitions enforceSpread := by
  unfold configFailure missingMetric
  rw [incompleteReason_bare, find_bare runs (fun run => !run.valid) fun _ => rfl,
    find_bare runs (fun run => (metric run).isNone) fun _ => rfl, filterMap_bare runs metric fun _ => rfl]
  cases incompleteReason runs repetitions with
  | some => rfl
  | none =>
    cases runs.find? fun run => !run.valid with
    | some => rfl
    | none => cases runs.find? fun run => (metric run).isNone <;> rfl

theorem configPasses_bare (repetitions : UInt32) (enforceSpread : Bool) :
    configPasses (runs.map bare) repetitions enforceSpread = configPasses runs repetitions enforceSpread := by
  rw [configPasses, configPasses, configFailure_bare]

private theorem exhaustionRows_bare (constants : ProtocolConstants) (attempts : List UInt32) :
    exhaustionRows (runs.map bare) constants attempts = exhaustionRows runs constants attempts := by
  induction attempts with
  | nil => rfl
  | cons attempt rest ih =>
    simp only [exhaustionRows, attemptGroup_bare, ih, configFailure_bare]
    rw [filter_bare _ (fun run => !run.valid) fun _ => rfl, sortBy_bare _ _ fun _ _ => rfl, invalidRows_bare]
    simp only [List.map_eq_nil_iff]

private theorem openLoopOutcome_bare (constants : ProtocolConstants) :
    openLoopOutcome (runs.map bare) constants = openLoopOutcome runs constants := by
  unfold openLoopOutcome
  have strace : ((runs.map bare).any fun run => run.kind = .counted && run.syscalls.method = .strace) =
      runs.any fun run => run.kind = .counted && run.syscalls.method = .strace := by
    rw [List.any_map]
    rfl
  simp only [attemptsOf_bare, attemptGroup_bare, configPasses_bare, completedAttempts_bare, exhaustionRows_bare, strace]

end Judgement

/-! ### The rest of the document -/

section Document
variable (records : List (RunRecord f64)) (smoke : Bool)

def Standing.bare : Standing f64 → Standing f64
  | .missing => .missing
  | .passing runs => .passing (runs.map RunRecord.bare)
  | .notSustained rows => .notSustained rows
  | .failed => .failed

theorem keyRuns_bare (key : ConfigKey) : keyRuns (records.map bare) key = (keyRuns records key).map bare :=
  filter_bare records _ fun _ => rfl

private theorem highestRuns_bare (runs : List (RunRecord f64)) : highestRuns (runs.map bare) = (highestRuns runs).map bare := by
  unfold highestRuns
  simp only [map_bare runs (·.attempt) fun _ => rfl]
  rw [filter_bare runs _ fun _ => rfl, List.isEmpty_map]
  split <;> rfl

private theorem publishedSyscallMethods_bare : publishedSyscallMethods (records.map bare) = publishedSyscallMethods records := by
  unfold publishedSyscallMethods
  rw [map_bare records _ fun _ => rfl]

private theorem syscallsMethodLabel_bare : syscallsMethodLabel (records.map bare) = syscallsMethodLabel records := by
  rw [syscallsMethodLabel, syscallsMethodLabel, publishedSyscallMethods_bare]

private theorem driverLabel_bare (server : ServerKind) (workers : UInt32) :
    driverLabel (records.map bare) server workers = driverLabel records server workers := by
  unfold driverLabel
  rw [List.isEmpty_map, List.all_map]
  rfl

variable [Figures f64]

theorem standing_bare (key : ConfigKey) : standing (records.map bare) smoke key = (standing records smoke key).bare := by
  unfold standing
  simp only [keyRuns_bare, highestRuns_bare, List.isEmpty_map, openLoopOutcome_bare, configPasses_bare]
  split
  · rfl
  split
  · split <;> rfl
  · split <;> rfl

theorem passing_bare (key : ConfigKey) : passing (records.map bare) smoke key = (passing records smoke key).map (List.map bare) := by
  unfold passing
  rw [standing_bare]
  split
  · cases standing records smoke key <;> rfl
  · rfl

theorem notSustained_bare (key : ConfigKey) : notSustained (records.map bare) smoke key = notSustained records smoke key := by
  unfold notSustained
  rw [standing_bare]
  split
  · cases standing records smoke key <;> rfl
  · rfl

private theorem publishedCounted_bare : publishedCounted (records.map bare) smoke = (publishedCounted records smoke).map bare := by
  unfold publishedCounted
  simp only [passing_bare, notSustained_bare, keyRuns_bare, List.map_append, List.map_flatMap]
  congr 2
  · funext key
    cases passing records smoke key <;> rfl
  · funext key
    split <;> rfl

private theorem medianCpuPercent_bare (runs : List (RunRecord f64)) (server : Bool) :
    medianCpuPercent (runs.map bare) server = medianCpuPercent runs server := by
  unfold medianCpuPercent
  rw [filterMap_bare runs (runCpuPercent server) fun _ => rfl]

section Rows
variable [DocFigures f64] (runs : List (RunRecord f64)) (found : ConfigKey → Option (List (RunRecord f64)))

theorem metricCells_bare : metricCells (runs.map bare) = metricCells runs := by
  unfold metricCells
  rw [filterMap_bare runs metric fun _ => rfl]

private theorem throughputCells_bare (server : ServerKind) (workers : UInt32) (runs : Option (List (RunRecord f64))) :
    throughputCells server workers (runs.map (List.map bare)) = throughputCells server workers runs := by
  cases runs with
  | none => rfl
  | some runs => simp only [Option.map_some, throughputCells, metricCells_bare, medianCpuPercent_bare, driverLabel_bare]

omit [Figures f64] [DocFigures f64] in
private theorem latencyP99Us_bare (key : ConfigKey) :
    latencyP99Us (fun key => (found key).map (List.map bare)) key = latencyP99Us found key := by
  unfold latencyP99Us
  dsimp only
  cases found key with
  | none => rfl
  | some runs =>
    simp only [Option.map_some]
    rw [filterMap_bare runs _ fun _ => rfl]

private theorem syscallsPerMsg_bare (key : ConfigKey) (anyCounted : Bool) :
    syscallsPerMsg (fun key => (found key).map (List.map bare)) key anyCounted = syscallsPerMsg found key anyCounted := by
  unfold syscallsPerMsg
  dsimp only
  cases found key with
  | none => rfl
  | some runs =>
    simp only [Option.map_some]
    rw [filterMap_bare runs _ fun _ => rfl]

private theorem resultsRow_bare (rows : ConfigKey → Option (List CapacityRow)) (server : ServerKind) (workers : UInt32) (qos : UInt8)
    (rates : DeclaredRates) (anyCounted : Bool) :
    resultsRow (fun key => (found key).map (List.map bare)) rows server workers qos rates anyCounted =
      resultsRow found rows server workers qos rates anyCounted := by
  unfold resultsRow
  dsimp only
  rw [throughputCells_bare, latencyP99Us_bare, latencyP99Us_bare, syscallsPerMsg_bare, Option.isSome_map, Option.isSome_map]

private theorem connectionsRow_bare (server : ServerKind) (workers : UInt32) :
    connectionsRow (fun key => (found key).map (List.map bare)) server workers = connectionsRow found server workers := by
  unfold connectionsRow
  dsimp only
  cases found (connectionsKey server workers) with
  | none => rfl
  | some runs => simp only [Option.map_some, metricCells_bare]

variable (smoke anyCounted : Bool) (workers : UInt32)

private theorem resultsLines_bare (qos : UInt8) :
    resultsLines (records.map bare) smoke anyCounted workers qos = resultsLines records smoke anyCounted workers qos := by
  have passes : passing (records.map bare) smoke = fun key => (passing records smoke key).map (List.map bare) :=
    funext (passing_bare records smoke)
  have sustains : notSustained (records.map bare) smoke = notSustained records smoke := funext (notSustained_bare records smoke)
  unfold resultsLines
  rw [passes, sustains]
  simp only [resultsRow_bare]

private theorem connectionsLines_bare : connectionsLines (records.map bare) smoke workers = connectionsLines records smoke workers := by
  have passes : passing (records.map bare) smoke = fun key => (passing records smoke key).map (List.map bare) :=
    funext (passing_bare records smoke)
  unfold connectionsLines
  rw [passes]
  simp only [connectionsRow_bare]

def closingLines (records : List (RunRecord f64)) (smoke : Bool) : List String :=
  let anyCounted := records.any fun record => record.kind = .counted
  "" :: methodLines smoke anyCounted ++ (recordedWorkers.flatMap fun workers => workersLines records smoke anyCounted workers) ++ signOffLines

private theorem closingLines_bare : closingLines (records.map bare) smoke = closingLines records smoke := by
  have counted : ((records.map bare).any fun record => record.kind = .counted) = records.any fun record => record.kind = .counted := by
    rw [List.any_map]
    rfl
  simp only [closingLines, counted, workersLines, resultsLines_bare, connectionsLines_bare]

private theorem documentLines_eq (sample : RunRecord f64) : documentLines records sample smoke =
    (titleLines smoke ++ ["## Environment", ""]) ++
      (environmentRows sample (syscallsMethodLabel (publishedCounted records smoke)) ++ closingLines records smoke) := by
  simp only [documentLines, closingLines, List.append_assoc, List.cons_append, List.nil_append]

end Rows
end Document

/-! ### The Environment table -/

inductive EnvSlot
  | host
  | cpuModel
  | kernel
  | gitSha
  | toolPath (index : Nat)
  | toolVersion (index : Nat)

def Env.slot (env : Env) : EnvSlot → String
  | .host => env.host
  | .cpuModel => env.cpuModel
  | .kernel => env.kernel
  | .gitSha => env.gitSha
  | .toolPath index => (env.tools[index]?.map Prod.fst).getD ""
  | .toolVersion index => (env.tools[index]?.map Prod.snd).getD ""

/-- A part of a cell: a text of the document, another text of the record, or one of the
environment. -/
inductive CellPart
  | fixed (text : String)
  | shown (text : String)
  | env (slot : EnvSlot)

def CellPart.fill (env : Env) : CellPart → String
  | .fixed text => text
  | .shown text => cell text
  | .env slot => cell (env.slot slot)

def fillCell (env : Env) (parts : List CellPart) : String := String.join (parts.map (CellPart.fill env))

structure EnvRow where
  name : List CellPart
  value : List CellPart

def EnvRow.fill (env : Env) (row : EnvRow) : String := "|" ++ fillCell env row.name ++ "|" ++ fillCell env row.value ++ "|"

def envTable (cpuSets : CpuSets) (build : Build) (method : String) (tools : Nat) : List EnvRow :=
  [⟨[.fixed " Field "], [.fixed " Value "]⟩,
    ⟨[.fixed "---"], [.fixed "---"]⟩,
    ⟨[.fixed " Host "], [.fixed " ", .env .host, .fixed " "]⟩,
    ⟨[.fixed " CPU model "], [.fixed " ", .env .cpuModel, .fixed " "]⟩,
    ⟨[.fixed " Kernel "], [.fixed " ", .env .kernel,
      .fixed " (WSL2 under the Hyper-V scheduler; hybrid P/E cores are not exposed by WSL) "]⟩,
    ⟨[.fixed " CPU sets "], [.fixed " server `", .shown cpuSets.server, .fixed "`, generator `", .shown cpuSets.generator, .fixed "` "]⟩,
    ⟨[.fixed " Commit "], [.fixed " ", .env .gitSha, .fixed " "]⟩,
    ⟨[.fixed " Build "], [.fixed (if build = .release then " release " else " debug ")]⟩,
    ⟨[.fixed " Syscall method "], [.fixed " ", .fixed method, .fixed " "]⟩] ++
  (List.range tools).map fun index =>
    ⟨[.fixed " Tool `", .env (.toolPath index), .fixed "` "], [.fixed " ", .env (.toolVersion index), .fixed " "]⟩

theorem toList_fillCell (env : Env) (parts : List CellPart) :
    (fillCell env parts).toList = parts.flatMap fun part => (part.fill env).toList := by
  rw [fillCell, String.toList_join, List.flatMap_map]

theorem toList_fill (env : Env) (row : EnvRow) : (row.fill env).toList =
    '|' :: ((row.name.flatMap fun part => (part.fill env).toList) ++ '|' :: ((row.value.flatMap fun part => (part.fill env).toList) ++ ['|'])) := by
  simp [EnvRow.fill, toList_fillCell]

theorem environmentRows_eq (sample : RunRecord f64) (method : String) : environmentRows sample method =
    (envTable sample.cpuSets sample.build method sample.env.tools.length).map (EnvRow.fill sample.env) := by
  have text (value : String) : toString value = value := rfl
  have tools : (sample.env.tools.map fun tool => s!"| Tool `{cell tool.1}` | {cell tool.2} |") =
      (List.range sample.env.tools.length).map fun index => EnvRow.fill sample.env
        ⟨[.fixed " Tool `", .env (.toolPath index), .fixed "` "], [.fixed " ", .env (.toolVersion index), .fixed " "]⟩ := by
    apply List.ext_getElem?
    intro index
    rw [List.getElem?_map, List.getElem?_map]
    by_cases inside : index < sample.env.tools.length
    · rw [List.getElem?_range inside, List.getElem?_eq_getElem inside, Option.map_some, Option.map_some, Option.some.injEq,
        ← String.toList_inj, toList_fill]
      simp [CellPart.fill, Env.slot, List.getElem?_eq_getElem inside, text]
    · simp [inside]
  rw [environmentRows, tools, envTable, List.map_append, List.map_map]
  congr 1
  simp only [List.map_cons, List.map_nil, List.cons.injEq, and_true]
  refine ⟨?_, ?_, ?_, ?_, ?_, ?_, ?_, ?_, ?_⟩
  all_goals rw [← String.toList_inj, toList_fill]
  all_goals simp [CellPart.fill, Env.slot, text]
  split <;> rfl

/-- A character that neither ends a cell nor escapes anything, nor is a control character. -/
def quiet (char : Char) : Bool := char ≠ '|' && char ≠ '\\' && !isControl char

def CellPart.Quiet : CellPart → Prop
  | .fixed text => text.toList.all quiet = true
  | .shown _ | .env _ => True

theorem CellPart.Quiet.fill {part : CellPart} (still : part.Quiet) (env : Env) : Inert (part.fill env).toList ∧ Plain (part.fill env) := by
  cases part with
  | fixed text =>
    have all : ∀ char ∈ text.toList, (char ≠ '|' ∧ char ≠ '\\') ∧ isControl char = false := by
      simpa [CellPart.Quiet, quiet] using still
    exact ⟨.text fun char member => (all char member).1, fun char member => (all char member).2⟩
  | shown text => exact ⟨cell_inert text, .cell text⟩
  | env slot => exact ⟨cell_inert _, .cell _⟩

private theorem fillCell_quiet {parts : List CellPart} (still : ∀ part ∈ parts, part.Quiet) (env : Env) :
    Inert (fillCell env parts).toList ∧ Plain (fillCell env parts) := by
  unfold Plain
  rw [toList_fillCell]
  induction parts with
  | nil => exact ⟨.nil, fun char member => absurd member List.not_mem_nil⟩
  | cons part rest ih =>
    obtain ⟨inert, plain⟩ := (still part List.mem_cons_self).fill env
    obtain ⟨inertRest, plainRest⟩ := ih fun other member => still other (List.mem_cons_of_mem _ member)
    rw [List.flatMap_cons]
    refine ⟨inert.append inertRest, fun char member => ?_⟩
    rcases List.mem_append.mp member with here | later
    · exact plain char here
    · exact plainRest char later

theorem EnvRow.cells {row : EnvRow} (still : (∀ part ∈ row.name, part.Quiet) ∧ ∀ part ∈ row.value, part.Quiet) (env : Env) :
    pieces 0 (row.fill env).toList = [[], (fillCell env row.name).toList, (fillCell env row.value).toList, []] ∧ Plain (row.fill env) := by
  obtain ⟨nameInert, namePlain⟩ := fillCell_quiet still.1 env
  obtain ⟨valueInert, valuePlain⟩ := fillCell_quiet still.2 env
  have bar : Plain "|" := List.forall_mem_singleton.mpr rfl
  refine ⟨?_, (((bar.append namePlain).append bar).append valuePlain).append bar⟩
  rw [toList_fill, ← toList_fillCell, ← toList_fillCell]
  exact pieces_row nameInert valueInert

private theorem methodLabel_quiet (method : SyscallMethod) : (methodLabel method).toList.all quiet = true := by
  cases method <;> decide

private theorem all_intercalate {separator : List Char} {parts : List (List Char)} (between : separator.all quiet = true)
    (each : ∀ part ∈ parts, part.all quiet = true) : (separator.intercalate parts).all quiet = true := by
  induction parts with
  | nil => rfl
  | cons part rest ih =>
    have later := ih fun other member => each other (List.mem_cons_of_mem _ member)
    cases rest with
    | nil => simpa using each part List.mem_cons_self
    | cons next rest =>
      rw [List.intercalate_cons_cons, List.all_append, List.all_append, each part List.mem_cons_self, between, later]
      rfl

theorem syscallsMethodLabel_quiet (counted : List (RunRecord f64)) : (syscallsMethodLabel counted).toList.all quiet = true := by
  have methods : ∀ label ∈ publishedSyscallMethods counted, label.toList.all quiet = true := by
    intro label member
    obtain ⟨run, _, rfl⟩ := List.mem_map.mp (List.mem_dedup.mp (mem_sortBy.mp member))
    exact methodLabel_quiet run.syscalls.method
  have joined : (String.intercalate ", " (publishedSyscallMethods counted)).toList.all quiet = true := by
    rw [String.toList_intercalate]
    refine all_intercalate (by decide) fun part member => ?_
    obtain ⟨label, among, rfl⟩ := List.mem_map.mp member
    exact methods label among
  unfold syscallsMethodLabel
  dsimp only
  split
  · decide
  split
  · rw [String.toList_append, List.all_append, joined]
    decide
  · exact joined

theorem envTable_quiet (cpuSets : CpuSets) (build : Build) {method : String} (still : method.toList.all quiet = true) (tools : Nat) :
    ∀ row ∈ envTable cpuSets build method tools, (∀ part ∈ row.name, part.Quiet) ∧ ∀ part ∈ row.value, part.Quiet := by
  have fixed (text : String) (all : text.toList.all quiet = true) : CellPart.Quiet (.fixed text) := all
  have built : CellPart.Quiet (.fixed (if build = .release then " release " else " debug ")) := by
    split <;> exact fixed _ (by decide)
  intro row member
  rcases List.mem_append.mp member with named | tool
  · simp only [List.mem_cons, List.not_mem_nil, or_false] at named
    rcases named with rfl | rfl | rfl | rfl | rfl | rfl | rfl | rfl | rfl
    all_goals simp only [List.forall_mem_cons, List.not_mem_nil, false_implies, implies_true, and_true]
    · exact ⟨fixed _ (by decide), fixed _ (by decide)⟩
    · exact ⟨fixed _ (by decide), fixed _ (by decide)⟩
    · exact ⟨fixed _ (by decide), fixed _ (by decide), trivial, fixed _ (by decide)⟩
    · exact ⟨fixed _ (by decide), fixed _ (by decide), trivial, fixed _ (by decide)⟩
    · exact ⟨fixed _ (by decide), fixed _ (by decide), trivial, fixed _ (by decide)⟩
    · exact ⟨fixed _ (by decide), fixed _ (by decide), trivial, fixed _ (by decide), trivial, fixed _ (by decide)⟩
    · exact ⟨fixed _ (by decide), fixed _ (by decide), trivial, fixed _ (by decide)⟩
    · exact ⟨fixed _ (by decide), built⟩
    · exact ⟨fixed _ (by decide), fixed _ (by decide), fixed _ still, fixed _ (by decide)⟩
  · obtain ⟨index, _, rfl⟩ := List.mem_map.mp tool
    simp only [List.forall_mem_cons, List.not_mem_nil, false_implies, implies_true, and_true]
    exact ⟨⟨fixed _ (by decide), trivial, fixed _ (by decide)⟩, fixed _ (by decide), trivial, fixed _ (by decide)⟩

/-! ### Two documents -/

/-- A record with other texts in its environment, and as many tools. -/
structure Retexted (one two : RunRecord f64) : Prop where
  bare : two.bare = one.bare
  gitDirty : two.env.gitDirty = one.env.gitDirty
  tools : two.env.tools.length = one.env.tools.length

private theorem bare_eq_of_retexted {records others : List (RunRecord f64)} (replaced : List.Forall₂ Retexted records others) :
    others.map bare = records.map bare := by
  induction replaced with
  | nil => rfl
  | cons here _ ih => rw [List.map_cons, List.map_cons, here.bare, ih]

private theorem titleLines_plain (smoke : Bool) : ∀ line ∈ titleLines smoke ++ ["## Environment", ""], Plain line := by
  have plain (line : String) (all : line.toList.all (fun char => !isControl char) = true) : Plain line := by
    simpa [Plain] using all
  intro line member
  cases smoke with
  | false =>
    simp only [titleLines, Bool.false_eq_true, if_false, List.append_nil, List.cons_append, List.nil_append, List.mem_cons,
      List.not_mem_nil, or_false] at member
    rcases member with rfl | rfl | rfl | rfl | rfl | rfl <;> exact plain _ (by decide)
  | true =>
    simp only [titleLines, if_true, List.cons_append, List.nil_append, List.mem_cons, List.not_mem_nil, or_false] at member
    rcases member with rfl | rfl | rfl | rfl | rfl | rfl | rfl | rfl <;> exact plain _ (by decide)

section Render
variable [Figures f64] [DocFigures f64] [DecidableEq f64.Value] {quote : String → String} {records others : List (RunRecord f64)} {smoke : Bool}
  {doc other : String}

private theorem render_ok (accepted : render quote records smoke = .ok doc) :
    refusal quote records smoke = none ∧ ∃ sample, records.head? = some sample ∧ doc = writeLines (documentLines records sample smoke) := by
  unfold render at accepted
  split at accepted
  · cases accepted
  · cases accepted
  next sample rest none =>
    cases accepted
    exact ⟨none, sample, rfl, rfl⟩

private theorem render_accepts {sample : RunRecord f64} {rest : List (RunRecord f64)} (none : refusal quote (sample :: rest) smoke = none) :
    ∃ doc, render quote (sample :: rest) smoke = .ok doc := by
  unfold render
  rw [none]
  exact ⟨_, rfl⟩

private theorem lines_of_render (accepted : render quote records smoke = .ok doc) : ∃ sample, records.head? = some sample ∧
    lines doc.toList = (titleLines smoke ++ ["## Environment", ""]).map String.toList ++
      (envTable sample.cpuSets sample.build (syscallsMethodLabel (publishedCounted (records.map bare) smoke)) sample.env.tools.length).map
        (fun row => (row.fill sample.env).toList) ++
      lines (writeLines (closingLines (records.map bare) smoke)).toList := by
  obtain ⟨_, sample, first, rfl⟩ := render_ok accepted
  refine ⟨sample, first, ?_⟩
  rw [publishedCounted_bare, syscallsMethodLabel_bare, closingLines_bare, documentLines_eq, lines_writeLines (titleLines_plain smoke),
    environmentRows_eq, lines_writeLines, List.map_map, List.append_assoc]
  · rfl
  · intro line member
    obtain ⟨row, among, rfl⟩ := List.mem_map.mp member
    exact (EnvRow.cells (envTable_quiet _ _ (syscallsMethodLabel_quiet _) _ row among) sample.env).2

/-- The texts of the environment stay in their cells. Two accepted documents, of records
that differ in those texts only, have the same lines but for the rows of the Environment
table, and these but for what the texts' own cells show. Each row has two cells. A cell
holds no control character, and without its escapes it shows the text. -/
theorem record_text_stays_in_cells (accepted : render quote records smoke = .ok doc)
    (replaced : List.Forall₂ Retexted records others) (acceptedToo : render quote others smoke = .ok other) :
    (∃ (sample sample' : RunRecord f64) (before after : List (List Char)) (rows : List EnvRow) (method : String),
      records.head? = some sample ∧ others.head? = some sample' ∧
      lines doc.toList = before ++ rows.map (fun row => (EnvRow.fill sample.env row).toList) ++ after ∧
      lines other.toList = before ++ rows.map (fun row => (EnvRow.fill sample'.env row).toList) ++ after ∧
      rows.map (EnvRow.fill sample.env) = environmentRows sample method ∧
      rows.map (EnvRow.fill sample'.env) = environmentRows sample' method ∧
      ∀ row ∈ rows, ∀ env,
        pieces 0 (row.fill env).toList = [[], (fillCell env row.name).toList, (fillCell env row.value).toList, []]) ∧
    (lines doc.toList).length = (lines other.toList).length ∧
    ∀ text, (∀ char ∈ (cell text).toList, isControl char = false) ∧
      unescape (cell text).toList = text.toList.map fun char => if isControl char then ' ' else char := by
  obtain ⟨sample, first, doclines⟩ := lines_of_render accepted
  obtain ⟨sample', first', otherlines⟩ := lines_of_render acceptedToo
  have heads : Retexted sample sample' := by
    cases replaced with
    | nil => cases first
    | cons here _ =>
      cases first
      cases first'
      exact here
  have sets : sample'.bare.cpuSets = sample.bare.cpuSets := by rw [heads.bare]
  have builds : sample'.bare.build = sample.bare.build := by rw [heads.bare]
  change sample'.cpuSets = sample.cpuSets at sets
  change sample'.build = sample.build at builds
  rw [bare_eq_of_retexted replaced, sets, builds, heads.tools] at otherlines
  refine ⟨⟨sample, sample', _, _, _, syscallsMethodLabel (publishedCounted (records.map bare) smoke), first, first', doclines, otherlines, ?_,
    ?_, ?_⟩, ?_, fun text => ⟨cell_no_control text, unescape_cell text⟩⟩
  · rw [environmentRows_eq]
  · rw [environmentRows_eq, sets, builds, heads.tools]
  · intro row member env
    exact (EnvRow.cells (envTable_quiet _ _ (syscallsMethodLabel_quiet _) _ row member) env).1
  · rw [doclines, otherlines]
    simp only [List.length_append, List.length_map]

end Render

instance : DocFigures binary64 where
  fixed0 := fun (value : Rat) => (if value.num < 0 then "-" else "") ++ toString (nearestText value 0).digits
  fixed2 := fun (value : Rat) => (if value.num < 0 then "-" else "") ++ (nearestText value 2).positional

def idleRun (env : Env) : RunRecord binary64 :=
  judged { buildMinimalRecord binary64 ⟨.smoke, .tokio, 1, none, .connections, none, 1, 1⟩ with env }

def brokenHost : Env := ⟨"6.6", "cpu", "a\n| \\| b \\", "c0ffee", false, [("perf|", "6\t1")]⟩

theorem record_text_stays_in_cells_broken : ∃ doc other,
    render id [idleRun ⟨"6.6", "cpu", "host", "c0ffee", false, [("perf", "6.1")]⟩] true = .ok doc ∧
      render id [idleRun brokenHost] true = .ok other ∧ (lines doc.toList).length = (lines other.toList).length := by
  obtain ⟨doc, accepted⟩ := @render_accepts binary64 _ _ _ id true (idleRun ⟨"6.6", "cpu", "host", "c0ffee", false, [("perf", "6.1")]⟩) []
    (by decide +kernel)
  obtain ⟨other, acceptedToo⟩ := @render_accepts binary64 _ _ _ id true (idleRun brokenHost) [] (by decide +kernel)
  have replaced : List.Forall₂ Retexted [idleRun ⟨"6.6", "cpu", "host", "c0ffee", false, [("perf", "6.1")]⟩] [idleRun brokenHost] :=
    .cons ⟨rfl, rfl, rfl⟩ .nil
  exact ⟨doc, other, accepted, acceptedToo, (record_text_stays_in_cells accepted replaced acceptedToo).2.1⟩

example : (cell "a\n| \\| b \\").toList = "a \\| \\\\\\| b \\\\".toList := by decide +kernel

end UringMqtt.Bench

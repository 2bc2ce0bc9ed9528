import UringMqtt.Bench.Records

/-! The matrix, `bench/src/matrix.rs`: rounds of interleaved repetitions with a budget of
attempts for each configuration, the plan of a resumed session, and the stages of a
session in their order. -/

namespace UringMqtt.Bench
open Lib Program

variable {f64 : F64}

structure DeclaredRates where
  lower : UInt64
  higher : UInt64
deriving DecidableEq

def DeclaredRates.both (self : DeclaredRates) : List UInt64 := [self.lower, self.higher]

def declaredRates (profile : Profile) (workers : UInt32) (qos : UInt8) : Option DeclaredRates :=
  match profile with
  | .smoke => some ⟨40000, 60000⟩
  | .recorded =>
    if workers = 1 ∧ qos = 1 then some ⟨75000, 300000⟩
    else if workers = 1 ∧ qos = 0 then some ⟨150000, 400000⟩
    else if workers = 4 ∧ qos = 1 then some ⟨900000, 1200000⟩
    else if workers = 4 ∧ qos = 0 then some ⟨1300000, 1500000⟩
    else none

structure MatrixSpec where
  profile : Profile
  servers : List ServerKind
  workers : List UInt32
  qos : List UInt8
  resume : Bool

structure MatrixOutcome where
  passed : List ConfigKey
  failed : List ConfigKey
  notSustained : List (ConfigKey × List CapacityRow)
  stopped : Option String

instance : Inhabited MatrixOutcome := ⟨[], [], [], none⟩

def serversFor (workers : UInt32) (servers : List ServerKind) : List ServerKind :=
  if workers = 1 then servers else servers.filter (· ≠ .mosquitto)

/-! ### The plan of a resumed session -/

inductive ResumeState
  | passed
  | nextAttempt (attempt : UInt32) (remaining : Nat)
deriving DecidableEq

section Plan
variable [Figures f64]

def resumePlan (existing : List (RunRecord f64)) (constants : ProtocolConstants) (key : ConfigKey) : Option ResumeState :=
  let runs := sortBy (fun first second => first.attempt ≤ second.attempt) (existing.filter (·.key = key))
  runs.getLast?.map fun last =>
    let highest := last.attempt
    if configPasses (attemptGroup runs highest) constants.repetitions constants.enforceSpread then .passed
    else match checkedSucc highest with
      | some next =>
        .nextAttempt next (constants.maxConfigAttempts.toNat - (completedAttempts runs constants.repetitions).length)
      | none => .nextAttempt highest 0

end Plan

def planSpec (plan : ConfigKey → Option ResumeState) (spec : RunSpec) : Option RunSpec :=
  match plan (keyOf spec) with
  | some .passed => none
  | some (.nextAttempt attempt _) => some { spec with attempt }
  | none => some spec

def planRemaining (plan : ConfigKey → Option ResumeState) (key : ConfigKey) : Option Nat :=
  match plan key with
  | some (.nextAttempt _ remaining) => some remaining
  | some .passed | none => none

/-! ### Rounds -/

/-- What the loop keeps of a configuration that has not passed. The source's maps share
their keys with the list of pending keys. -/
structure PendingConfig where
  spec : RunSpec
  attempt : UInt32
  left : Nat
  checked : Bool
deriving DecidableEq

def PendingConfig.key (self : PendingConfig) : ConfigKey := keyOf self.spec

/-- The specs by their keys, the first of each, with the budgets they start with. -/
def pendingOf (remaining : ConfigKey → Option Nat) (constants : ProtocolConstants) : List RunSpec → List PendingConfig
  | [] => []
  | spec :: rest =>
    let entry : PendingConfig :=
      ⟨spec, max spec.attempt 1, (remaining (keyOf spec)).getD constants.maxConfigAttempts.toNat, false⟩
    entry :: (pendingOf remaining constants rest).filter (·.key ≠ keyOf spec)

/-- Every pending configuration whose budget is spent is checked once, until one stops
the session. -/
def checkStops (stop : ConfigKey → Fs f64 (Option String)) : List PendingConfig → Fs f64 (List PendingConfig × Option String)
  | [] => pure ([], none)
  | entry :: rest => do
    if entry.left = 0 && !entry.checked then
      match ← stop entry.key with
      | some cause => pure ({ entry with checked := true } :: rest, some cause)
      | none => do
        let (rest, cause) ← checkStops stop rest
        pure ({ entry with checked := true } :: rest, cause)
    else do
      let (rest, cause) ← checkStops stop rest
      pure (entry :: rest, cause)

/-- The first attempt number from `u32::MAX - room` on that no file occupies. -/
def freeAttempt (dirs : Dirs) (repetitions : UInt32) (spec : RunSpec) : Nat → Fs f64 (Option UInt32)
  | 0 => do
    let attempt := UInt32.ofNat (2 ^ 32 - 1)
    match ← attemptInUse dirs { spec with attempt } repetitions with
    | none => pure (some attempt)
    -- `checked_add` has no next number.
    | some _ => pure none
  | room + 1 => do
    let attempt := UInt32.ofNat (2 ^ 32 - 1 - (room + 1))
    match ← attemptInUse dirs { spec with attempt } repetitions with
    | none => pure (some attempt)
    | some _ => freeAttempt dirs repetitions spec room

/-- The specs of a round: every pending configuration with budget left, at its next free
attempt. One without a free attempt number loses its budget. -/
def activate (dirs : Dirs) (repetitions : UInt32) : List PendingConfig → Fs f64 (List PendingConfig × List RunSpec)
  | [] => pure ([], [])
  | entry :: rest => do
    if entry.left = 0 then do
      let (rest, active) ← activate dirs repetitions rest
      pure (entry :: rest, active)
    else
      match ← freeAttempt dirs repetitions entry.spec (2 ^ 32 - 1 - entry.attempt.toNat) with
      | some attempt => do
        let (rest, active) ← activate dirs repetitions rest
        pure ({ entry with attempt } :: rest, { entry.spec with attempt } :: active)
      | none => do
        let (rest, active) ← activate dirs repetitions rest
        pure ({ entry with left := 0 } :: rest, active)

def survivorStop (record : RunRecord f64) : Option String :=
  let survivors := record.harnessErrors.filter fun error => startsWith error cleanupSurvivorPrefix
  if survivors.isEmpty then none
  else some (String.intercalate "; " survivors ++ "; no further run is scheduled beside it")

def haltBeside : Option String → Halt → Halt
  | some stop, .error message => .error s!"{stop}; {message}"
  | _, halt => halt

def writeFailed {α : Type} (record : RunRecord f64) (halt : Halt) : Fs f64 α := do
  if createdOwnScratch record then discardScratch record else pure ()
  .fail (haltBeside (survivorStop record) halt)

def dispatch (json : Json f64) (dirs : Dirs) (spec : RunSpec) : Fs f64 (RunRecord f64) := do
  if ← ask .loadCancel then refuse "cancelled"
  else
    let record ← runOne dirs spec
    let cancelled ← ask .loadCancel
    let record := { record with cancelled }
    match ← (writeRecord json dirs record).attempt with
    | .error halt => writeFailed record halt
    | .ok () =>
      match survivorStop record with
      | some stop => refuse stop
      | none => if cancelled then refuse "cancelled" else pure record

def dispatchAll (json : Json f64) (dirs : Dirs) : List (RunSpec × UInt32) → Fs f64 (List (RunRecord f64))
  | [] => pure []
  | (spec, repetition) :: rest => do
    let record ← dispatch json dirs { spec with repetition }
    let records ← dispatchAll json dirs rest
    pure (record :: records)

section Rounds
variable [Figures f64]

/-- A configuration after a round: `none` when it passed. One that ran nothing stays as
it is. -/
def judge (constants : ProtocolConstants) (round : List (RunRecord f64)) (entry : PendingConfig) : Option PendingConfig :=
  let runs := round.filter (·.key = entry.key)
  if runs.isEmpty then some entry
  else match configFailure runs constants.repetitions constants.enforceSpread with
    | none => none
    | some _ =>
      match checkedSucc entry.attempt with
      | some next => some { entry with left := entry.left - 1, attempt := next }
      | none => some { entry with left := 0 }

/-- The loop of `run_configs_with_stop`. Each pass spends budget, so `fuel` above the
budgets is never used up. -/
def rounds (json : Json f64) (dirs : Dirs) (constants : ProtocolConstants) (stop : ConfigKey → Fs f64 (Option String)) :
    Nat → List PendingConfig → List ConfigKey → Fs f64 MatrixOutcome
  | 0, _, _ => .fail .endless
  | fuel + 1, pending, passed => do
    ask (.mark .round)
    let (pending, cause) ← checkStops stop pending
    if cause.isSome then pure ⟨passed, pending.map (·.key), [], cause⟩
    else
      let (pending, active) ← activate dirs constants.repetitions pending
      if active.isEmpty then pure ⟨passed, pending.map (·.key), [], none⟩
      else
        let round ← dispatchAll json dirs (interleave active constants.repetitions)
        rounds json dirs constants stop fuel (pending.filterMap (judge constants round))
          (passed ++ (pending.filter fun entry => (judge constants round entry).isNone).map (·.key))

def runConfigsWithStop (json : Json f64) (dirs : Dirs) (constants : ProtocolConstants) (remaining : ConfigKey → Option Nat)
    (stop : ConfigKey → Fs f64 (Option String)) (specs : List RunSpec) : Fs f64 MatrixOutcome := do
  orRefuse (s!"create out dir: {·}") (← ask .createDirAll)
  let pending := pendingOf remaining constants specs
  rounds json dirs constants stop ((pending.map (·.left)).sum + 1) pending []

def runConfigs (json : Json f64) (dirs : Dirs) (constants : ProtocolConstants) (remaining : ConfigKey → Option Nat)
    (specs : List RunSpec) : Fs f64 MatrixOutcome :=
  runConfigsWithStop json dirs constants remaining (fun _ => pure none) specs

end Rounds

/-! ### A session -/

def splitOnce (separator : List Char) : List Char → Option (List Char × List Char)
  | [] => if separator.isEmpty then some ([], []) else none
  | char :: rest =>
    if separator.isPrefixOf (char :: rest) then some ([], (char :: rest).drop separator.length)
    else (splitOnce separator rest).map fun (head, tail) => (char :: head, tail)

/-- The pid and, where it was recorded, the start time a survivor entry names. -/
def survivorIdentity (entry : String) : Option (UInt32 × Option Nat) := do
  let (_, rest) ← splitOnce " pid ".toList entry.toList
  let (pid, rest) ← splitOnce " (start ".toList rest
  let (start, _) ← splitOnce ")".toList rest
  let start ← if start = "?".toList then some none else (parseU64 start).map some
  let pid ← parseU64 pid
  if pid < 2 ^ 32 then some (UInt32.ofNat pid, start) else none

def survivorResumeRefusal (entry : String) : Fs f64 (Option String) :=
  match survivorIdentity entry with
  | none => pure (some "that entry does not name a pid and a start time, so that process cannot be ruled out")
  | some (pid, start) => do
    match ← ask (.readProcStartTime pid) with
    | .ok (some found) =>
      if start.isSome && start ≠ some found then pure none else pure (some "that process is still running")
    | .ok none => pure none
    | .error error => pure (some s!"pid {pid} could not be checked ({error}), so that process cannot be ruled out")

def firstRefusal : List String → Fs f64 (Option (String × String))
  | [] => pure none
  | entry :: rest => do
    match ← survivorResumeRefusal entry with
    | some refusal => pure (some (entry, refusal))
    | none => firstRefusal rest

def methodLabel : SyscallMethod → String
  | .perf => "perf"
  | .strace => "strace"
  | .none => "none"

def debugProfile : Profile → String
  | .recorded => "Recorded"
  | .smoke => "Smoke"

def formatTools (tools : List (String × String)) : String :=
  if tools.isEmpty then "none" else String.intercalate ", " (tools.map fun (path, version) => s!"{path}={version}")

def displayOrNone {α : Type} [ToString α] (value : Option α) : String := value.elim "none" toString

def onDeclaredRate (profile : Profile) (record : RunRecord f64) : Bool :=
  match record.qos.bind (declaredRates profile record.workers), record.offeredRate with
  | some rates, some rate => rate ∈ rates.both
  | _, _ => false

/-- The first reason to refuse a resume beside `record`, survivors apart. -/
def resumeMismatch [DecidableEq f64.Value] (quote : String → String) (profile : Profile) (host : HostSetup)
    (record : RunRecord f64) : Option String :=
  let differs (field was is : String) : String := s!"{record.fileName}: {field} {was} != {is}"
  if record.schema ≠ schemaVersion then some (differs "record schema" (toString record.schema) (toString schemaVersion))
  else if record.profile ≠ profile then some (differs "record profile" (debugProfile record.profile) (debugProfile profile))
  else if record.kind.isOpenLoop && !onDeclaredRate profile record then
    some (s!"{record.fileName}: offered_rate {displayOrNone record.offeredRate} is not a declared rate of " ++
      s!"workers {record.workers} QoS {displayOrNone record.qos}; a changed declared rate needs a fresh dataset")
  else if record.env.gitSha ≠ host.env.gitSha then some (differs "env.git_sha" record.env.gitSha host.env.gitSha)
  else if record.env.kernel ≠ host.env.kernel then some (differs "env.kernel" record.env.kernel host.env.kernel)
  else if record.env.host ≠ host.env.host then some (differs "env.host" record.env.host host.env.host)
  else if record.env.cpuModel ≠ host.env.cpuModel then some (differs "env.cpu_model" record.env.cpuModel host.env.cpuModel)
  else if record.env.tools ≠ host.env.tools then
    some (differs "env.tools" (formatTools record.env.tools) (formatTools host.env.tools))
  else if record.syscalls.method ≠ .none ∧ record.syscalls.method ≠ host.syscalls then
    some (s!"{record.fileName}: record syscalls.method {methodLabel record.syscalls.method} != " ++
      s!"--syscalls {methodLabel host.syscalls}")
  else if record.cpuSets.server ≠ host.cpuSets.server then
    some (differs "cpu_sets.server" record.cpuSets.server host.cpuSets.server)
  else if record.cpuSets.generator ≠ host.cpuSets.generator then
    some (differs "cpu_sets.generator" record.cpuSets.generator host.cpuSets.generator)
  else if recompute record quote ≠ [] then
    some (s!"{record.fileName}: stored summary disagrees with the raw observations: " ++
      String.intercalate "; " (recompute record quote))
  else none

def checkResume [DecidableEq f64.Value] (quote : String → String) (profile : Profile) (host : HostSetup) :
    List (RunRecord f64) → Fs f64 Unit
  | [] => pure ()
  | record :: rest => do
    match ← firstRefusal (record.harnessErrors.filter fun error => startsWith error cleanupSurvivorPrefix) with
    | some (survivor, refusal) => refuse s!"{record.fileName}: {survivor}; {refusal} — end it before --resume"
    | none =>
      match resumeMismatch quote profile host record with
      | some message => refuse message
      | none => checkResume quote profile host rest

def debugServer : ServerKind → String
  | .uring => "Uring"
  | .tokio => "Tokio"
  | .mosquitto => "Mosquitto"

def debugKey (key : ConfigKey) : String :=
  s!"ConfigKey \x7b server: {debugServer key.server}, workers: {key.workers}, qos: {debugOption toString key.qos}, " ++
    s!"kind: {debugKind key.kind}, offered_rate: {debugOption toString key.offeredRate} \x7d"

def configSpec (profile : Profile) (workers : UInt32) (qos : Option UInt8) (kind : RunKind) (offeredRate : Option UInt64)
    (server : ServerKind) : RunSpec :=
  ⟨profile, server, workers, qos, kind, offeredRate, 0, 1⟩

def openLoopSpecs (profile : Profile) (syscalls : SyscallMethod) (workers : UInt32) (qos : UInt8) (rates : DeclaredRates)
    (servers : List ServerKind) : List RunSpec :=
  servers.flatMap fun server =>
    (rates.both.map fun rate => configSpec profile workers (some qos) .latency (some rate) server) ++
      if syscalls ≠ .none then [configSpec profile workers (some qos) .counted (some rates.higher) server] else []

def skippedKeys (plan : ConfigKey → Option ResumeState) (specs : List RunSpec) : List ConfigKey :=
  (specs.filter fun spec => (planSpec plan spec).isNone).map keyOf

structure SessionSetup (f64 : F64) where
  json : Json f64
  dirs : Dirs
  spec : MatrixSpec
  host : HostSetup
  /-- The `Debug` of a string. -/
  quote : String → String

namespace SessionSetup
variable [Figures f64] (setup : SessionSetup f64)

def constants : ProtocolConstants := .forProfile setup.spec.profile

def stopOnExhaustion (key : ConfigKey) : Fs f64 (Option String) := do
  let records ← readRecords setup.json setup.dirs
  match openLoopOutcome (records.filter (·.key = key)) setup.constants with
  | .exhausted cause => pure (some s!"{debugKey key}: {cause}")
  | .passed | .pending | .notSustained _ => pure none

def sortFailed (records : List (RunRecord f64)) (stopped : Bool) (outcome : MatrixOutcome) (key : ConfigKey) : MatrixOutcome :=
  match openLoopOutcome (records.filter (·.key = key)) setup.constants with
  | .notSustained rows => { outcome with notSustained := outcome.notSustained ++ [(key, rows)] }
  | .passed | .pending | .exhausted _ => if stopped then outcome else { outcome with failed := outcome.failed ++ [key] }

def throughputStage (plan : ConfigKey → Option ResumeState) (specs : List RunSpec) (outcome : MatrixOutcome) :
    Fs f64 MatrixOutcome := do
  let stage ← runConfigs setup.json setup.dirs setup.constants (planRemaining plan) (specs.filterMap (planSpec plan))
  pure { outcome with
    passed := outcome.passed ++ stage.passed ++ skippedKeys plan specs
    failed := outcome.failed ++ stage.failed }

def plainStage (plan : ConfigKey → Option ResumeState) (specs : List RunSpec) (outcome : MatrixOutcome) : Fs f64 MatrixOutcome := do
  let stage ← runConfigs setup.json setup.dirs setup.constants (planRemaining plan) (specs.filterMap (planSpec plan))
  pure { outcome with
    passed := outcome.passed ++ skippedKeys plan specs ++ stage.passed
    failed := outcome.failed ++ stage.failed }

def failedRecords (failed : List ConfigKey) : Fs f64 (List (RunRecord f64)) :=
  if failed.isEmpty then pure [] else readRecords setup.json setup.dirs

def recordedStage (plan : ConfigKey → Option ResumeState) (specs : List RunSpec) (outcome : MatrixOutcome) : Fs f64 MatrixOutcome := do
  let stage ← runConfigsWithStop setup.json setup.dirs setup.constants (planRemaining plan) setup.stopOnExhaustion
    (specs.filterMap (planSpec plan))
  let outcome := { outcome with passed := outcome.passed ++ skippedKeys plan specs ++ stage.passed }
  let records ← setup.failedRecords stage.failed
  let outcome := stage.failed.foldl (setup.sortFailed records stage.stopped.isSome) outcome
  pure { outcome with stopped := stage.stopped }

def rowGroup (plan : ConfigKey → Option ResumeState) (workers : UInt32) (qos : UInt8) (outcome : MatrixOutcome) :
    Fs f64 MatrixOutcome := do
  let servers := serversFor workers setup.spec.servers
  if ← ask .loadCancel then refuse "cancelled"
  else
    let outcome ← setup.throughputStage plan (servers.map (configSpec setup.spec.profile workers (some qos) .throughput none))
      outcome
    match declaredRates setup.spec.profile workers qos with
    | none => refuse s!"no declared rates for workers {workers} QoS {qos}"
    | some rates =>
      let specs := openLoopSpecs setup.spec.profile setup.host.syscalls workers qos rates servers
      if setup.spec.profile = .recorded then setup.recordedStage plan specs outcome
      else setup.plainStage plan specs outcome

def rowGroups (plan : ConfigKey → Option ResumeState) (workers : UInt32) : List UInt8 → MatrixOutcome → Fs f64 MatrixOutcome
  | [], outcome => pure outcome
  | qos :: rest, outcome => do
    let outcome ← setup.rowGroup plan workers qos outcome
    if outcome.stopped.isSome then pure outcome else rowGroups plan workers rest outcome

def stages (plan : ConfigKey → Option ResumeState) : List UInt32 → MatrixOutcome → Fs f64 MatrixOutcome
  | [], outcome => pure outcome
  | workers :: rest, outcome => do
    let outcome ← setup.rowGroups plan workers setup.spec.qos outcome
    if outcome.stopped.isSome then pure outcome
    else if ← ask .loadCancel then refuse "cancelled"
    else
      let servers := serversFor workers setup.spec.servers
      let outcome ← setup.plainStage plan (servers.map (configSpec setup.spec.profile workers none .connections none)) outcome
      stages plan rest outcome

def sessionPlan [DecidableEq f64.Value] : Fs f64 (ConfigKey → Option ResumeState) := do
  if setup.spec.resume then
    let existing ← readRecords setup.json setup.dirs
    checkResume setup.quote setup.spec.profile setup.host existing
    pure (resumePlan existing setup.constants)
  else pure fun _ => none

def runMatrixWith [DecidableEq f64.Value] : Fs f64 MatrixOutcome := do
  orRefuse (s!"create out dir: {·}") (← ask .createDirAll)
  orRefuse (s!"create scratch: {·}") (← ask .createDirAll)
  let plan ← setup.sessionPlan
  setup.stages plan setup.spec.workers default

end SessionSetup
end UringMqtt.Bench

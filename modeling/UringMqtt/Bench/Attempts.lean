import Mathlib.Data.List.Dedup
import Mathlib.Data.List.Sort
import UringMqtt.Bench.Runner

/-! The judgement of a configuration from the records of its repetitions,
`bench/src/analysis.rs`: a complete attempt, a passing one, and how an open-loop
configuration ended. -/

namespace UringMqtt.Bench
open Lib

/-- What the judgement of a configuration needs of `f64` besides `F64`. -/
class Figures (f64 : F64) where
  midpoint : f64.Value → f64.Value → f64.Value
  /-- To the nearest integer, ties away from zero. -/
  round : f64.Value → f64.Value
  /-- The value with four decimal places. -/
  fixed4 : f64.Value → String

def startsWith (text start : String) : Bool := start.toList.isPrefixOf text.toList

def sortBy {α : Type} (le : α → α → Bool) (values : List α) : List α := values.insertionSort fun first second => le first second

def repetitionRange (repetitions : UInt32) : List UInt32 :=
  (List.range repetitions.toNat).map fun index => UInt32.ofNat (index + 1)

def checkedSucc (attempt : UInt32) : Option UInt32 := if attempt.toNat = 2 ^ 32 - 1 then none else some (attempt + 1)

def debugKind : RunKind → String
  | .throughput => "Throughput"
  | .latency => "Latency"
  | .connections => "Connections"
  | .counted => "Counted"

variable {f64 : F64}

section Statistics
variable [Figures f64]

/-- The source panics if it compares a NaN here; the model sorts on, and `MedianPanics` says
which records that is. -/
def median (values : List f64.Value) : Option f64.Value :=
  let sorted := sortBy f64.le values
  let n := sorted.length
  if n % 2 = 1 then sorted[n / 2]?
  else do Figures.midpoint (← sorted[n / 2 - 1]?) (← sorted[n / 2]?)

def spread : List f64.Value → Option f64.Value
  | [] => none
  | value :: rest => do
    let m ← median (value :: rest)
    if f64.le m (f64.ofNat 0) && f64.le (f64.ofNat 0) m then none
    else
      let least := rest.foldl (fun least value => if f64.lt value least then value else least) value
      let most := rest.foldl (fun most value => if f64.lt most value then value else most) value
      some (f64.div (f64.sub most least) m)

def metric (record : RunRecord f64) : Option f64.Value :=
  match record.kind with
  | .throughput => record.throughputMsgsPerSec
  | .latency => record.latencyNs.map fun latency => f64.ofNat latency.p99
  | .connections => record.connectionsPerSec
  | .counted => record.syscalls.perMsg

def spreadLimit : f64.Value := f64.literal 10 2

def hostCpuPressurePct (pressure : HostCpuPressure) : Option f64.Value :=
  if pressure.sampledNs = 0 then none
  else some (f64.div (f64.ofNat (pressure.someStallUs * 1000 * 100)) (f64.ofNat pressure.sampledNs))

def hostPressureNote (record : RunRecord f64) : String :=
  match record.hostCpuPressure.bind fun pressure => (hostCpuPressurePct pressure : Option f64.Value) with
  | some pct =>
    let pct := f64.div (Figures.round (f64.mul pct (f64.literal 100 1))) (f64.literal 100 1)
    s!"host CPU pressure {f64.tenths pct} % over the sampled interval"
  | none => "host CPU pressure was not measured"

end Statistics

def RunRecord.survived (record : RunRecord f64) : Bool :=
  record.harnessErrors.any fun error => startsWith error cleanupSurvivorPrefix

def incompleteReason (runs : List (RunRecord f64)) (repetitions : UInt32) : Option String :=
  match runs.find? (·.cancelled) with
  | some cancelled => some s!"repetition {cancelled.repetition} was cancelled"
  | none =>
    match runs.find? (·.survived) with
    | some survivor => some s!"repetition {survivor.repetition} left a child running after cleanup"
    | none =>
      let reps := sortBy (· ≤ ·) (runs.map (·.repetition))
      if reps = repetitionRange repetitions then none
      else some s!"repetitions {debugList toString reps} are not 1..={repetitions}"

def attemptComplete (runs : List (RunRecord f64)) (repetitions : UInt32) : Bool :=
  (incompleteReason runs repetitions).isNone

section Verdict
variable [Figures f64]

def missingMetric (runs : List (RunRecord f64)) : Option (RunRecord f64) := runs.find? fun run => (metric run).isNone

def configFailure (runs : List (RunRecord f64)) (repetitions : UInt32) (enforceSpread : Bool) : Option String :=
  match incompleteReason runs repetitions with
  | some reason => some reason
  | none =>
    match runs.find? fun run => !run.valid with
    | some invalid =>
      some (s!"repetition {invalid.repetition} is invalid: " ++ String.intercalate "; " invalid.invalidReasons ++
        s!"; {hostPressureNote invalid}")
    | none =>
      if !enforceSpread then none
      else match missingMetric runs with
        | some run => some s!"repetition {run.repetition} has no {debugKind run.kind} metric"
        | none =>
          match spread (runs.filterMap metric) with
          | some s => if f64.le s spreadLimit then none else some s!"spread {Figures.fixed4 s} is above the 0.1 limit"
          | none => some "spread is undefined: the metric median is 0"

def configPasses (runs : List (RunRecord f64)) (repetitions : UInt32) (enforceSpread : Bool) : Bool :=
  (configFailure runs repetitions enforceSpread).isNone

end Verdict

inductive CapacityRow
  | unresolved
  | missedSlots
  | steadyState
deriving DecidableEq

def CapacityRow.all : List CapacityRow := [.unresolved, .missedSlots, .steadyState]

def capacityRows (record : RunRecord f64) : List CapacityRow :=
  if !record.kind.isOpenLoop then []
  else (if record.counts.unresolved ≠ 0 then [.unresolved] else []) ++
    (if record.generatorErrors.missedSlots ≠ 0 then [.missedSlots] else []) ++
    (if (steadyStateReason record).isSome then [.steadyState] else [])

def counterFailed (record : RunRecord f64) : Bool :=
  isCountedSyscallRun record && (record.syscalls.count.isNone || counterBoundariesOff record || !counterExitOk record)

inductive OpenLoopOutcome
  | passed
  | pending
  | notSustained (rows : List CapacityRow)
  | exhausted (cause : String)
deriving DecidableEq

def attemptsOf (runs : List (RunRecord f64)) : List UInt32 := sortBy (· ≤ ·) (runs.map (·.attempt)).dedup

def attemptGroup (runs : List (RunRecord f64)) (attempt : UInt32) : List (RunRecord f64) :=
  runs.filter fun run => run.attempt = attempt

def completedAttempts (runs : List (RunRecord f64)) (repetitions : UInt32) : List UInt32 :=
  (attemptsOf runs).filter fun attempt => attemptComplete (attemptGroup runs attempt) repetitions

/-- The capacity rows of the invalid runs of an attempt, or the first cause that is not
one of capacity. -/
def invalidRows (attempt : UInt32) : List (RunRecord f64) → Except String (List CapacityRow)
  | [] => .ok []
  | run :: rest =>
    if counterFailed run then
      .error (s!"attempt {attempt}: repetition {run.repetition} failed the syscall counter: " ++
        String.intercalate "; " run.invalidReasons)
    else if capacityRows run = [] then
      .error (s!"attempt {attempt}: repetition {run.repetition} is invalid on no capacity row: " ++
        String.intercalate "; " run.invalidReasons)
    else (invalidRows attempt rest).map (capacityRows run ++ ·)

section Outcome
variable [Figures f64]

def exhaustionRows (runs : List (RunRecord f64)) (constants : ProtocolConstants) : List UInt32 → Except String (List CapacityRow)
  | [] => .ok []
  | attempt :: rest =>
    let group := attemptGroup runs attempt
    let invalid := sortBy (fun first second => first.repetition ≤ second.repetition) (group.filter fun run => !run.valid)
    if invalid = [] then
      .error (s!"attempt {attempt}: " ++ (configFailure group constants.repetitions constants.enforceSpread).getD "")
    else do
      let rows ← invalidRows attempt invalid
      let others ← exhaustionRows runs constants rest
      return rows ++ others

def openLoopOutcome (runs : List (RunRecord f64)) (constants : ProtocolConstants) : OpenLoopOutcome :=
  match (attemptsOf runs).getLast? with
  | none => .pending
  | some highest =>
    if configPasses (attemptGroup runs highest) constants.repetitions constants.enforceSpread then .passed
    else
      let completed := completedAttempts runs constants.repetitions
      if completed.length < constants.maxConfigAttempts.toNat then .pending
      else if runs.any fun run => run.kind = .counted && run.syscalls.method = .strace then
        .exhausted (s!"strace counted run spent its {constants.maxConfigAttempts} attempts; " ++
          "record a fresh dataset counted with perf")
      else match exhaustionRows runs constants completed with
        | .error cause => .exhausted cause
        | .ok rows => .notSustained (CapacityRow.all.filter fun row => row ∈ rows)

end Outcome

def interleave {α : Type} (configs : List α) (repetitions : UInt32) : List (α × UInt32) :=
  (repetitionRange repetitions).flatMap fun repetition => configs.map fun config => (config, repetition)

end UringMqtt.Bench

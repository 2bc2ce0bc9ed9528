import Mathlib.Tactic.SplitIfs
import UringMqtt.Bench.Json

/-! The harness and its own records. Whatever becomes of a run, the summary in its
record follows from the raw observations beside it; read back from disk it does so
exactly if every rate comes back as it was written. -/

namespace UringMqtt.Bench

variable {f64 : F64}

/-! ### The derivation is a fixed point -/

structure Consistent (record : RunRecord f64) : Prop where
  throughput : record.throughputMsgsPerSec = (derive record).throughputMsgsPerSec
  last10s : record.last10sMsgsPerSec = (derive record).last10sMsgsPerSec
  connections : record.connectionsPerSec = (derive record).connectionsPerSec
  latency : record.latencyNs = (derive record).latencyNs
  lateness : record.latenessP99Ns = (derive record).latenessP99Ns
  count : record.syscalls.count = (derive record).syscallCount
  perMsg : record.syscalls.perMsg = (derive record).syscallsPerMsg
  unresolved : record.counts.unresolved = (derive record).unresolved
  reasons : record.invalidReasons = reconcile record
  valid : record.valid = (reconcile record).isEmpty

private theorem mismatch_eq_none {α : Type} [DecidableEq α] {field : String} {debug : α → String} {stored derived : α} :
    mismatch field debug stored derived = none ↔ stored = derived := by
  unfold mismatch
  split
  next differ => simp [differ]
  next same => simpa using same

private theorem recompute_eq_nil [DecidableEq f64.Value] {record : RunRecord f64} {quote : String → String} :
    recompute record quote = [] ↔ Consistent record := by
  unfold recompute
  simp only [List.filterMap_eq_nil_iff, id_eq, List.forall_mem_cons, mismatch_eq_none]
  constructor
  · rintro ⟨throughput, last10s, connections, latency, lateness, count, perMsg, unresolved, reasons, valid, -⟩
    exact ⟨throughput, last10s, connections, latency, lateness, count, perMsg, unresolved, reasons, valid⟩
  · intro consistent
    exact ⟨consistent.throughput, consistent.last10s, consistent.connections, consistent.latency, consistent.lateness,
      consistent.count, consistent.perMsg, consistent.unresolved, consistent.reasons, consistent.valid,
      List.forall_mem_nil _⟩

private theorem derive_withDerived (record : RunRecord f64) : derive (withDerived record) = derive record := by
  have latency : (derive (withDerived record)).latencyNs = (derive record).latencyNs := by
    cases open_loop : record.kind.isOpenLoop with
    | false => simp [derive, withDerived, open_loop]
    | true =>
      cases summary : record.latencyNs with
      | none => simp [derive, withDerived, open_loop, summary]
      | some summary => simp [derive, withDerived, open_loop, summary, summarise]
  calc derive (withDerived record)
    _ = { derive record with latencyNs := (derive (withDerived record)).latencyNs } := rfl
    _ = derive record := by rw [latency]

/-- A counter block whose count is what its raw output says. -/
def CountedBlock (syscalls : Syscalls f64) : Prop := syscalls.count = deriveSyscallCount syscalls

theorem counted_absent (spec : RunSpec) (host : HostSetup) : CountedBlock (absentSyscalls spec host : Syscalls f64) := by
  unfold CountedBlock deriveSyscallCount
  split <;> rfl

theorem counted_uncounted : CountedBlock (uncountedSyscalls : Syscalls f64) := rfl

theorem counted_finalizeCounter (counter : CounterOutput) : CountedBlock (finalizeCounter counter : Syscalls f64) := by
  obtain ⟨kind, raw, enabledNs, disabledNs, exit, diagnostics⟩ := counter
  cases kind <;> rfl

private theorem finalizeRecord_consistent (run : RunContext f64) (endpoint : Option EndpointReport) (genReport : Option GenReport)
    (counted : CountedBlock (run.syscalls.getD (absentSyscalls run.spec run.host))) :
    Consistent (finalizeRecord run endpoint genReport) := by
  have same := derive_withDerived (observedRecord run (endpoint.getD emptyDeliveryReport) (genReport.getD emptyGenReport))
  unfold finalizeRecord
  generalize observed : observedRecord run (endpoint.getD emptyDeliveryReport) (genReport.getD emptyGenReport) = record
    at same
  have kept : derive (judged (withDerived record)) = derive record := same
  refine ⟨?_, ?_, ?_, ?_, ?_, ?_, ?_, ?_, rfl, rfl⟩
  all_goals rw [kept]
  all_goals first | rfl | skip
  · subst observed
    exact counted
  · subst observed
    rfl

/-! ### What happens to a record later -/

section
variable {record : RunRecord f64} (consistent : Consistent record)
include consistent

theorem Consistent.noted (hostCpuPressure : Option HostCpuPressure) (cancelled : Bool) :
    Consistent { record with hostCpuPressure, cancelled } :=
  ⟨consistent.throughput, consistent.last10s, consistent.connections, consistent.latency, consistent.lateness,
    consistent.count, consistent.perMsg, consistent.unresolved, consistent.reasons, consistent.valid⟩

private theorem recordSurvivors_consistent (survivors : List String) : Consistent (recordSurvivors record survivors) := by
  unfold recordSurvivors
  split
  · exact consistent
  · exact ⟨consistent.throughput, consistent.last10s, consistent.connections, consistent.latency, consistent.lateness,
      consistent.count, consistent.perMsg, consistent.unresolved, rfl, rfl⟩

end

private theorem runGuarded_consistent (observed : Observed) (ended : GuardedEnd) :
    Consistent (runGuarded observed ended : RunRecord f64) := by
  cases ended with
  | early => exact finalizeRecord_consistent _ none none (counted_absent _ _)
  | reported endpoint genReport counter hostCpuPressure =>
    cases counter with
    | none =>
      have final := @finalizeRecord_consistent f64 (observed.context (some uncountedSyscalls)) endpoint genReport
        counted_uncounted
      exact final.noted hostCpuPressure false
    | some counter =>
      have final := @finalizeRecord_consistent f64 (observed.context (some (finalizeCounter counter))) endpoint genReport
        (counted_finalizeCounter counter)
      exact final.noted hostCpuPressure false

private theorem runOneWith_consistent (observed : Observed) (ended : GuardedEnd) (survivors : List String) :
    Consistent (runOneWith observed ended survivors : RunRecord f64) :=
  recordSurvivors_consistent (runGuarded_consistent observed ended) survivors

/-! ### Reading a record back -/

def RunRecord.rates (record : RunRecord f64) : List f64.Value :=
  record.throughputMsgsPerSec.toList ++ (record.last10sMsgsPerSec.toList ++
    (record.connectionsPerSec.toList ++ record.syscalls.perMsg.toList))

private theorem map_eq_self {α : Type} {value : Option α} {back : α → α} : value.map back = value ↔ ∀ held ∈ value, back held = held := by
  cases value <;> simp

private theorem readBack_consistent {record : RunRecord f64} (consistent : Consistent record) (back : f64.Value → f64.Value) :
    Consistent (record.readBack back) ↔ ∀ rate ∈ record.rates, back rate = rate := by
  -- `derive` does not look at the rates, so what is stored has to be what was stored.
  have fixed : (∀ rate ∈ record.rates, back rate = rate) ↔
      record.throughputMsgsPerSec.map back = record.throughputMsgsPerSec ∧
      record.last10sMsgsPerSec.map back = record.last10sMsgsPerSec ∧
      record.connectionsPerSec.map back = record.connectionsPerSec ∧
      record.syscalls.perMsg.map back = record.syscalls.perMsg := by
    simp only [map_eq_self, RunRecord.rates, List.forall_mem_append, Option.mem_toList, Option.mem_def]
  rw [fixed]
  constructor
  · intro read
    exact ⟨read.throughput.trans consistent.throughput.symm, read.last10s.trans consistent.last10s.symm,
      read.connections.trans consistent.connections.symm, read.perMsg.trans consistent.perMsg.symm⟩
  · rintro ⟨throughput, last10s, connections, perMsg⟩
    have same : record.readBack back = record := by
      unfold RunRecord.readBack
      rw [throughput, last10s, connections, perMsg]
    rw [same]
    exact consistent

def CounterOutput.counted (counter : CounterOutput) : Option Nat :=
  match counter.kind with
  | .perf => counter.raw.bind parsePerfCount
  | .strace => counter.raw.bind parseStraceTotal

/-- The fractions a run is summarised by, from the deliveries of its seconds, its cycles and
its counted system calls. -/
def fractions (kind : RunKind) (windowSecs : Nat) (window : Window) (timeline : Timeline) (cycles counted : Option Nat) :
    List (Nat × Nat) :=
  let tail := min sustainedTailSecs windowSecs
  let deliveries := timeline.sumSecs window.startSec window.endSec
  (if kind = .throughput ∧ tail ≤ window.endSec ∧ tail ≠ 0 then
    [(deliveries, windowSecs), (timeline.sumSecs (window.endSec - tail) window.endSec, tail)] else []) ++
  ((if kind = .connections then cycles.toList.map (·, windowSecs) else []) ++
    if deliveries = 0 then [] else counted.toList.map (·, deliveries))

def Observed.fractions (observed : Observed) (ended : GuardedEnd) : List (Nat × Nat) :=
  let constants := ProtocolConstants.forProfile observed.spec.profile
  let window := (recordedWindow constants observed.timing observed.nowNs).2
  match ended with
  | .early => Bench.fractions observed.spec.kind constants.windowSecs window ⟨0, []⟩ none none
  | .reported endpoint genReport counter _ =>
    Bench.fractions observed.spec.kind constants.windowSecs window (endpoint.getD emptyDeliveryReport).delivery.timeline
      (genReport.getD emptyGenReport).cyclesInWindow (counter.bind CounterOutput.counted)

def F64.quotient (f64 : F64) (fraction : Nat × Nat) : f64.Value := f64.div (f64.ofNat fraction.1) (f64.ofNat fraction.2)

private theorem withDerived_rates (record : RunRecord f64) (counted : CountedBlock record.syscalls) : (withDerived record).rates =
    (fractions record.kind record.windowSecs record.window record.timeline record.cyclesInWindow record.syscalls.count).map
      f64.quotient := by
  simp only [RunRecord.rates, withDerived, derive, deriveRates, fractions, counted.symm]
  cases record.cyclesInWindow <;> cases record.syscalls.count <;> split_ifs <;> rfl

private theorem runOneWith_rates (observed : Observed) (ended : GuardedEnd) (survivors : List String) :
    (runOneWith observed ended survivors : RunRecord f64).rates = (observed.fractions ended).map f64.quotient := by
  have kept : (runOneWith observed ended survivors : RunRecord f64).rates = (runGuarded observed ended : RunRecord f64).rates := by
    unfold runOneWith recordSurvivors
    split <;> rfl
  rw [kept]
  cases ended with
  | early => exact withDerived_rates _ (counted_absent _ _)
  | reported endpoint genReport counter hostCpuPressure =>
    cases counter with
    | none => exact withDerived_rates (observedRecord (observed.context (some uncountedSyscalls)) _ _) counted_uncounted
    | some counter =>
      exact withDerived_rates (observedRecord (observed.context (some (finalizeCounter counter))) _ _)
        (counted_finalizeCounter counter)

/-- The record of a run, written with `cancelled` either way and read back, is
consistent exactly if the quotient of each of its fractions comes back as it was written. -/
theorem own_record_accepted_iff [DecidableEq f64.Value] (quote : String → String) (observed : Observed) (ended : GuardedEnd)
    (survivors : List String) (cancelled : Bool) (back : f64.Value → f64.Value) :
    recompute ({ (runOneWith observed ended survivors : RunRecord f64) with cancelled }.readBack back) quote = [] ↔
      ∀ fraction ∈ observed.fractions ended, back (f64.quotient fraction) = f64.quotient fraction := by
  have consistent := (@runOneWith_consistent f64 observed ended survivors).noted
    (runOneWith observed ended survivors : RunRecord f64).hostCpuPressure cancelled
  rw [recompute_eq_nil, readBack_consistent consistent]
  change (∀ rate ∈ (runOneWith observed ended survivors : RunRecord f64).rates, back rate = rate) ↔ _
  rw [runOneWith_rates, List.forall_mem_map]

/-! ### A connections run of 64 cycles -/

def plainRun : Observed where
  spec := ⟨.recorded, .mosquitto, 1, none, .connections, none, 1, 1⟩
  host := ⟨.none, ⟨"0", "1"⟩, ⟨"6.1", "cpu", "host", "abcdef0", false, []⟩⟩
  harnessErrors := []
  build := .release
  timing := ⟨1000000000, ⟨11000000000, 71000000000⟩⟩
  driver := none
  cpu := none
  nowNs := 0
  startedAtUnix := 0

def sixtyFourCycles : GuardedEnd := .reported none (some { emptyGenReport with cyclesInWindow := some 64 }) none none

/-- The rate 64/60 is written as 1.0666666666666667 and read as 1.0666666666666669, so
the harness takes its own valid record for an edited one. -/
theorem own_record_refused :
    (runOneWith plainRun sixtyFourCycles [] : RunRecord binary64).valid = true ∧
    recompute ((runOneWith plainRun sixtyFourCycles [] : RunRecord binary64).readBack jsonRate) id =
      ["connections_per_sec: stored Some(1.0666666666666669) derived Some(1.0666666666666667)"] := by
  decide +kernel

end UringMqtt.Bench

import UringMqtt.Bench.Analysis
import UringMqtt.Bench.Generator

/-! The runner's judgement of a run, `bench/src/runner.rs`: what it asks of the generator
and the record it makes of the two reports. -/

namespace UringMqtt.Bench
open Lib

def runnerConnections : UInt32 := 100

def runnerQos1Window : UInt32 := 32

def genLeadSecs : Nat := 1

structure RunSpec where
  profile : Profile
  server : ServerKind
  workers : UInt32
  qos : Option UInt8
  kind : RunKind
  offeredRate : Option UInt64
  repetition : UInt32
  attempt : UInt32
deriving DecidableEq

namespace RunSpec

def generatorMode (self : RunSpec) : Mode :=
  match self.kind with
  | .throughput => .throughput
  | .latency | .counted => .latency (self.offeredRate.getD 0)
  | .connections => .connections

def generatorQos (self : RunSpec) : UInt8 := self.qos.getD 0

end RunSpec

structure HostSetup where
  syscalls : SyscallMethod
  cpuSets : CpuSets
  env : Env

structure ProtocolConstants where
  warmupSecs : Nat
  windowSecs : Nat
  repetitions : UInt32
  drainGraceSecs : Nat
  maxConfigAttempts : UInt32
  enforceSpread : Bool
deriving DecidableEq

def ProtocolConstants.forProfile : Profile → ProtocolConstants
  | .recorded => ⟨10, 60, 5, 5, 3, true⟩
  | .smoke => ⟨2, 5, 2, 2, 1, false⟩

structure RunTiming where
  originNs : Nat
  window : Window

/-- An origin for a run without one: a whole second behind the clock. -/
def harnessDefaultOrigin (constants : ProtocolConstants) (nowNs : Nat) : Nat :=
  let leadNs := min ((constants.warmupSecs + constants.windowSecs + genLeadSecs + 1) * oneSecondNs) u64Max
  let target := saturatingAdd nowNs leadNs
  if target % oneSecondNs = 0 then target else (target / oneSecondNs + 1) * oneSecondNs

def recordedWindow (constants : ProtocolConstants) (timing : RunTiming) (nowNs : Nat) : Nat × Window :=
  if timing.originNs = 0 then
    let fallback := harnessDefaultOrigin constants nowNs
    (fallback, ⟨fallback + constants.warmupSecs * oneSecondNs,
      fallback + (constants.warmupSecs + constants.windowSecs) * oneSecondNs⟩)
  else (timing.originNs, timing.window)

structure EndpointReport where
  delivery : DeliveryReport
  workerLoads : Option (List WorkerLoad)

def emptyDeliveryReport : EndpointReport := ⟨⟨0, 0, 0, 0, 0, none, ⟨0, []⟩, []⟩, none⟩

def emptyGenReport : GenReport := ⟨none, none, 0, none, 0, 0, 0, 0, 0, none, none, []⟩

def shouldCount (spec : RunSpec) (host : HostSetup) : Bool :=
  spec.kind = .counted && (host.syscalls = .perf || host.syscalls = .strace)

variable {f64 : F64}

def absentSyscalls (spec : RunSpec) (host : HostSetup) : Syscalls f64 where
  method := if shouldCount spec host then host.syscalls else .none
  count := none
  perMsg := none
  raw := none
  enabledNs := none
  disabledNs := none
  exit := none
  diagnostics := none

/-- The runner's observations of a run besides the two reports. -/
structure RunContext (f64 : F64) where
  spec : RunSpec
  host : HostSetup
  constants : ProtocolConstants
  harnessErrors : List String
  build : Build
  timing : RunTiming
  driver : Option DriverFds
  cpu : Option CpuUsage
  syscalls : Option (Syscalls f64)
  /-- The two clocks. -/
  nowNs : Nat
  startedAtUnix : Nat

def observedRecord (run : RunContext f64) (endpoint : EndpointReport) (gen : GenReport) : RunRecord f64 :=
  let delivery := endpoint.delivery
  { schema := schemaVersion
    profile := run.spec.profile
    server := run.spec.server
    workers := run.spec.workers
    qos := run.spec.qos
    kind := run.spec.kind
    offeredRate := run.spec.offeredRate
    repetition := run.spec.repetition
    attempt := run.spec.attempt
    connections := runnerConnections
    payloadBytes := .ofNat payloadBytes
    qos1Window := runnerQos1Window
    warmupSecs := run.constants.warmupSecs
    windowSecs := run.constants.windowSecs
    drainGraceSecs := run.constants.drainGraceSecs
    build := run.build
    originNs := (recordedWindow run.constants run.timing run.nowNs).1
    window := (recordedWindow run.constants run.timing run.nowNs).2
    timeline := delivery.timeline
    cyclesInWindow := gen.cyclesInWindow
    counts :=
      { scheduled := gen.scheduled
        windowScheduled := gen.windowScheduled
        offered := gen.offered
        acked := gen.acked
        delivered := delivery.delivered
        dropped := delivery.dropped
        unresolved := gen.offered - delivery.delivered - delivery.dropped.getD 0
        duplicates := delivery.duplicates
        foreign := delivery.foreign
        latencyOverRange := delivery.latencyOverRange
        clockAnomalies := delivery.clockAnomalies }
    throughputMsgsPerSec := none
    last10sMsgsPerSec := none
    latencyNs := if run.spec.kind.isOpenLoop then some ⟨0, 0, 0, delivery.latency⟩ else none
    lateness := gen.lateness
    latenessP99Ns := none
    lastWriteStartNs := gen.lastWriteStartNs
    connectionsPerSec := none
    generatorErrors := ⟨gen.connectErrors, gen.protocolErrors, gen.missedSlots, gen.stalled, gen.latenessOverRange⟩
    syscalls := run.syscalls.getD (absentSyscalls run.spec run.host)
    driver := run.driver
    cpuSets := run.host.cpuSets
    env := run.host.env
    cpu := run.cpu
    hostCpuPressure := none
    workerLoads := endpoint.workerLoads
    startedAtUnix := run.startedAtUnix
    harnessErrors := run.harnessErrors
    valid := false
    invalidReasons := []
    cancelled := false }

def withDerived (record : RunRecord f64) : RunRecord f64 :=
  let derived := derive record
  { record with
    throughputMsgsPerSec := derived.throughputMsgsPerSec
    last10sMsgsPerSec := derived.last10sMsgsPerSec
    connectionsPerSec := derived.connectionsPerSec
    latenessP99Ns := derived.latenessP99Ns
    latencyNs := derived.latencyNs
    syscalls := { record.syscalls with perMsg := derived.syscallsPerMsg } }

def judged (record : RunRecord f64) : RunRecord f64 :=
  { record with
    invalidReasons := reconcile record
    valid := (reconcile record).isEmpty }

/-- Each report defaults on its own. -/
def finalizeRecord (run : RunContext f64) (endpoint : Option EndpointReport) (genReport : Option GenReport) :
    RunRecord f64 :=
  judged (withDerived (observedRecord run (endpoint.getD emptyDeliveryReport) (genReport.getD emptyGenReport)))

/-! ### The counter and the survivors -/

inductive CounterKind
  | perf
  | strace
deriving DecidableEq

structure CounterOutput where
  kind : CounterKind
  raw : Option String
  enabledNs : Option Nat
  disabledNs : Option Nat
  exit : Option CounterExit
  diagnostics : Option String

def finalizeCounter (counter : CounterOutput) : Syscalls f64 where
  method := match counter.kind with
    | .perf => .perf
    | .strace => .strace
  count := match counter.kind with
    | .perf => counter.raw.bind parsePerfCount
    | .strace => counter.raw.bind parseStraceTotal
  perMsg := none
  raw := counter.raw
  enabledNs := counter.enabledNs
  disabledNs := counter.disabledNs
  exit := counter.exit
  diagnostics := counter.diagnostics

def uncountedSyscalls : Syscalls f64 := ⟨.none, none, none, none, none, none, none, none⟩

/-- How `run_guarded` ends: at a failed step before the reports are read, or with them. -/
inductive GuardedEnd where
  | early
  | reported (endpoint : Option EndpointReport) (genReport : Option GenReport) (counter : Option CounterOutput)
      (hostCpuPressure : Option HostCpuPressure)

structure Observed where
  spec : RunSpec
  host : HostSetup
  harnessErrors : List String
  build : Build
  timing : RunTiming
  driver : Option DriverFds
  cpu : Option CpuUsage
  /-- The two clocks. -/
  nowNs : Nat
  startedAtUnix : Nat

def Observed.context (observed : Observed) (syscalls : Option (Syscalls f64)) : RunContext f64 where
  spec := observed.spec
  host := observed.host
  constants := .forProfile observed.spec.profile
  harnessErrors := observed.harnessErrors
  build := observed.build
  timing := observed.timing
  driver := observed.driver
  cpu := observed.cpu
  syscalls
  nowNs := observed.nowNs
  startedAtUnix := observed.startedAtUnix

def runGuarded (observed : Observed) : GuardedEnd → RunRecord f64
  | .early => finalizeRecord (observed.context none) none none
  | .reported endpoint genReport counter hostCpuPressure =>
    let syscalls := match counter with
      | some counter => finalizeCounter counter
      | none => uncountedSyscalls
    { finalizeRecord (observed.context (some syscalls)) endpoint genReport with hostCpuPressure }

def cleanupSurvivorPrefix : String := "child survived cleanup: "

/-- Each child the guard could not end becomes a harness error, and the record is
judged again. -/
def recordSurvivors (record : RunRecord f64) (survivors : List String) : RunRecord f64 :=
  if survivors.isEmpty then record
  else judged { record with harnessErrors := record.harnessErrors ++ survivors.map (cleanupSurvivorPrefix ++ ·) }

/-- `run_one_with`, with the children its guard could not end. -/
def runOneWith (observed : Observed) (ended : GuardedEnd) (survivors : List String) : RunRecord f64 :=
  recordSurvivors (runGuarded observed ended) survivors

end UringMqtt.Bench

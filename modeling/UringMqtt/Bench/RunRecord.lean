import UringMqtt.Bench.Schedule

/-! The record of a benchmark run, `bench/src/run_record.rs`. -/

namespace UringMqtt.Bench
open Lib

/-- `f64` as the analysis uses it. The rows that compare rates are the only ones that
depend on it. -/
structure F64 where
  Value : Type
  /-- `as f64`. -/
  ofNat : Nat → Value
  /-- The literal `mantissa / 10 ^ decimals`. -/
  literal : (mantissa decimals : Nat) → Value
  sub : Value → Value → Value
  mul : Value → Value → Value
  div : Value → Value → Value
  abs : Value → Value
  lt : Value → Value → Bool
  le : Value → Value → Bool
  /-- `ceil` and `as u64`. -/
  ceil : Value → Nat
  debug : Value → String
  /-- The value with one decimal place. -/
  tenths : Value → String

def schemaVersion : UInt32 := 3

inductive Profile
  | recorded
  | smoke
deriving DecidableEq

inductive ServerKind
  | uring
  | tokio
  | mosquitto
deriving DecidableEq

inductive RunKind
  | throughput
  | latency
  | connections
  | counted
deriving DecidableEq

def RunKind.isOpenLoop : RunKind → Bool
  | .latency | .counted => true
  | .throughput | .connections => false

inductive SyscallMethod
  | perf
  | strace
  | none
deriving DecidableEq

inductive Build
  | release
  | debug
deriving DecidableEq

structure Counts where
  scheduled : Option Nat
  windowScheduled : Option Nat
  offered : Nat
  acked : Option Nat
  delivered : Nat
  dropped : Option Nat
  unresolved : Nat
  duplicates : Nat
  foreign : Nat
  latencyOverRange : Nat
  clockAnomalies : Nat
deriving DecidableEq

structure LatencySummary where
  p50 : Nat
  p99 : Nat
  max : Nat
  histogram : List (Nat × Nat)
deriving DecidableEq

inductive CounterExit
  | code (value : Int)
  | signal (value : Int)
deriving DecidableEq

structure Syscalls (f64 : F64) where
  method : SyscallMethod
  count : Option Nat
  perMsg : Option f64.Value
  raw : Option String
  enabledNs : Option Nat
  disabledNs : Option Nat
  exit : Option CounterExit
  diagnostics : Option String

structure DriverFds where
  ioUringFds : UInt32
  eventpollFds : UInt32
deriving DecidableEq

structure CpuSets where
  server : String
  generator : String
deriving DecidableEq

structure CpuUsage where
  clkTck : Nat
  sampledNs : Nat
  serverTicks : Nat
  generatorTicks : Nat
deriving DecidableEq

structure HostCpuPressure where
  sampledNs : Nat
  someStallUs : Nat
deriving DecidableEq

structure Env where
  kernel : String
  cpuModel : String
  host : String
  gitSha : String
  gitDirty : Bool
  tools : List (String × String)
deriving DecidableEq

structure GeneratorErrors where
  connect : Nat
  protocol : Nat
  missedSlots : Nat
  stalled : Nat
  latenessOverRange : Nat
deriving DecidableEq

structure WorkerLoad where
  connections : UInt32
  delivered : Nat
  latencyP99Ns : Option Nat
deriving DecidableEq

structure ConfigKey where
  server : ServerKind
  workers : UInt32
  qos : Option UInt8
  kind : RunKind
  offeredRate : Option UInt64
deriving DecidableEq

structure RunRecord (f64 : F64) where
  schema : UInt32
  profile : Profile
  server : ServerKind
  workers : UInt32
  qos : Option UInt8
  kind : RunKind
  offeredRate : Option UInt64
  repetition : UInt32
  attempt : UInt32
  connections : UInt32
  payloadBytes : UInt32
  qos1Window : UInt32
  warmupSecs : Nat
  windowSecs : Nat
  drainGraceSecs : Nat
  build : Build
  originNs : Nat
  window : Window
  timeline : Timeline
  cyclesInWindow : Option Nat
  counts : Counts
  throughputMsgsPerSec : Option f64.Value
  last10sMsgsPerSec : Option f64.Value
  latencyNs : Option LatencySummary
  lateness : List (Nat × Nat)
  latenessP99Ns : Option Nat
  lastWriteStartNs : Option Nat
  connectionsPerSec : Option f64.Value
  generatorErrors : GeneratorErrors
  syscalls : Syscalls f64
  driver : Option DriverFds
  cpuSets : CpuSets
  env : Env
  cpu : Option CpuUsage
  hostCpuPressure : Option HostCpuPressure
  workerLoads : Option (List WorkerLoad)
  startedAtUnix : Nat
  harnessErrors : List String
  valid : Bool
  invalidReasons : List String
  cancelled : Bool

def RunRecord.key {f64 : F64} (self : RunRecord f64) : ConfigKey :=
  ⟨self.server, self.workers, self.qos, self.kind, self.offeredRate⟩

def serverLower : ServerKind → String
  | .uring => "uring"
  | .tokio => "tokio"
  | .mosquitto => "mosquitto"

def kindLower : RunKind → String
  | .throughput => "throughput"
  | .latency => "latency"
  | .connections => "connections"
  | .counted => "counted"

/-- The name the files of one repetition share: a file name without `.json`. -/
def ConfigKey.stem (self : ConfigKey) (attempt repetition : UInt32) : String :=
  let q := self.qos.elim "" fun qos => s!"-q{qos}"
  let rate := self.offeredRate.elim "" fun rate => s!"-at{rate}"
  s!"{serverLower self.server}-w{self.workers}{q}-{kindLower self.kind}{rate}-a{attempt}-r{repetition}"

def RunRecord.stem {f64 : F64} (self : RunRecord f64) : String := self.key.stem self.attempt self.repetition

def RunRecord.fileName {f64 : F64} (self : RunRecord f64) : String := self.stem ++ ".json"

namespace Timeline

def total (self : Timeline) : Option Nat :=
  self.counts.foldlM (fun total count => if total + count > u64Max then none else some (total + count)) 0

def sumSecs (self : Timeline) (fromSec toSec : Nat) : Nat :=
  let firstSec := max fromSec self.originSec
  let lastSec := min toSec (saturatingAdd self.originSec self.counts.length)
  if lastSec ≤ firstSec then 0
  else
    let fromIdx := firstSec - self.originSec
    let toIdx := lastSec - self.originSec
    ((self.counts.take toIdx).drop fromIdx).foldl saturatingAdd 0

end Timeline
end UringMqtt.Bench

import UringMqtt.Bench.RunRecord

/-! Deriving and reconciling a run record, `bench/src/analysis.rs`. -/

namespace UringMqtt.Bench
open Lib

def latencyBucketMaxNs : Nat := 60028878847

def sustainedTailSecs : Nat := 10

def counterBoundaryToleranceNs : Nat := 10000000

def steadyStateGrowthLimitNs : Nat := 50000000

def nsPerMs : Nat := 1000000

def sigint : Int := 2

/-! ### Formatting, as `{:?}` prints it -/

def debugOption {α : Type} (debug : α → String) : Option α → String
  | none => "None"
  | some value => "Some(" ++ debug value ++ ")"

def debugNat (value : Nat) : String := toString value

def debugDriver (driver : DriverFds) : String :=
  "DriverFds \x7b io_uring_fds: " ++ toString driver.ioUringFds ++ ", eventpoll_fds: " ++
    toString driver.eventpollFds ++ " \x7d"

def debugExit : CounterExit → String
  | .code value => "Code(" ++ toString value ++ ")"
  | .signal value => "Signal(" ++ toString value ++ ")"

/-! ### Counter output -/

/-- `str::lines`: lines end at a newline, which may follow a carriage return, and the
last line need not end. -/
def lines (text : List Char) : List (List Char) :=
  let whole := text.splitOn '\n'
  let kept := if whole.getLast? = some [] then whole.dropLast else whole
  kept.map fun line => if line.getLast? = some '\r' then line.dropLast else line

/-- `char::is_whitespace`. -/
def isWhitespace (char : Char) : Bool :=
  let code := char.toNat
  decide (9 ≤ code ∧ code ≤ 13) || decide (8192 ≤ code ∧ code ≤ 8202) ||
    [32, 133, 160, 5760, 8232, 8233, 8239, 8287, 12288].contains code

def parseU64 (text : List Char) : Option Nat :=
  let digits := if text.head? = some '+' then text.tail else text
  if digits.isEmpty || !digits.all Char.isDigit then none
  else
    let value := digits.foldl (fun value digit => value * 10 + (digit.toNat - 48)) 0
    if value > u64Max then none else some value

def parsePerfCount (stderr : String) : Option Nat :=
  let fields := (lines stderr.toList).map fun line => line.splitOn ','
  match fields.find? fun columns => columns[2]? = some "raw_syscalls:sys_enter".toList with
  | some line => line.head?.bind parseU64
  | none => none

def parseStraceTotal (summary : String) : Option Nat :=
  let tokens := (lines summary.toList).map fun line => (line.splitOnP isWhitespace).filter (!·.isEmpty)
  let totals := tokens.filter fun line => line.getLast? = some "total".toList
  (totals.filterMap fun columns => columns[3]?.bind parseU64).getLast?

/-! ### Histograms -/

def histogramTotalFrom (total : Nat) (previous : Option Nat) : List (Nat × Nat) → Except String Nat
  | [] => .ok total
  | (value, count) :: rest =>
    if value = 0 ∨ value > latencyBucketMaxNs then .error "bucket value outside the recorder's range"
    else if previous.any (value ≤ ·) then .error "buckets out of ascending order"
    else if total + count > u64Max then .error "bucket counts overflow a u64"
    else histogramTotalFrom (total + count) (some value) rest

def histogramTotal (histogram : List (Nat × Nat)) : Except String Nat := histogramTotalFrom 0 none histogram

def valueAtRank (rank cumulative : Nat) : List (Nat × Nat) → Option Nat
  | [] => none
  | (value, count) :: rest =>
    let cumulative := saturatingAdd cumulative count
    if cumulative ≥ rank then some value else valueAtRank rank cumulative rest

def percentile (f64 : F64) (histogram : List (Nat × Nat)) (quantile : f64.Value) : Option Nat :=
  match histogramTotal histogram with
  | .error _ => none
  | .ok total =>
    if total = 0 then none
    else valueAtRank (max (f64.ceil (f64.mul quantile (f64.ofNat total))) 1) 0 histogram

/-! ### Deriving -/

variable {f64 : F64}

structure Derived (f64 : F64) where
  throughputMsgsPerSec : Option f64.Value
  last10sMsgsPerSec : Option f64.Value
  connectionsPerSec : Option f64.Value
  latencyNs : Option LatencySummary
  latenessP99Ns : Option Nat
  syscallCount : Option Nat
  syscallsPerMsg : Option f64.Value
  unresolved : Nat

def deriveRates (record : RunRecord f64) : Option f64.Value × Option f64.Value :=
  let tail := min sustainedTailSecs record.windowSecs
  let endSec := record.window.endSec
  if record.kind = .throughput ∧ tail ≤ endSec ∧ tail ≠ 0 then
    let deliveries := record.timeline.sumSecs record.window.startSec endSec
    let tailDeliveries := record.timeline.sumSecs (endSec - tail) endSec
    (some (f64.div (f64.ofNat deliveries) (f64.ofNat record.windowSecs)),
      some (f64.div (f64.ofNat tailDeliveries) (f64.ofNat tail)))
  else (none, none)

def summarise (f64 : F64) (histogram : List (Nat × Nat)) : LatencySummary where
  p50 := (percentile f64 histogram (f64.literal 5 1)).getD 0
  p99 := (percentile f64 histogram (f64.literal 99 2)).getD 0
  max := (percentile f64 histogram (f64.literal 10 1)).getD 0
  histogram

def deriveSyscallCount (syscalls : Syscalls f64) : Option Nat :=
  match syscalls.method with
  | .perf => syscalls.raw.bind parsePerfCount
  | .strace => syscalls.raw.bind parseStraceTotal
  | .none => none

def derive (record : RunRecord f64) : Derived f64 :=
  let deliveries := record.timeline.sumSecs record.window.startSec record.window.endSec
  let syscallCount := deriveSyscallCount record.syscalls
  { throughputMsgsPerSec := (deriveRates record).1
    last10sMsgsPerSec := (deriveRates record).2
    connectionsPerSec :=
      if record.kind = .connections then
        record.cyclesInWindow.map fun cycles => f64.div (f64.ofNat cycles) (f64.ofNat record.windowSecs)
      else none
    latencyNs := if record.kind.isOpenLoop then record.latencyNs.map fun latency => summarise f64 latency.histogram else none
    latenessP99Ns := percentile f64 record.lateness (f64.literal 99 2)
    syscallCount
    syscallsPerMsg :=
      if deliveries = 0 then none
      else syscallCount.map fun count => f64.div (f64.ofNat count) (f64.ofNat deliveries)
    unresolved := record.counts.offered - record.counts.delivered - record.counts.dropped.getD 0 }

/-! ### Reconciling

Each row is the reason it adds, if any. -/

def row (broken : Prop) [Decidable broken] (text : String) : Option String := if broken then some text else none

def RunKind.publishes (kind : RunKind) : Bool := kind = .throughput || kind.isOpenLoop

def kindLabel : RunKind → String
  | .throughput => "throughput"
  | .latency => "latency"
  | .connections => "connections"
  | .counted => "counted"

variable (record : RunRecord f64)

def row1 : Option String :=
  row (record.kind.isOpenLoop ∧ record.counts.scheduled ≠ some record.counts.offered)
    s!"scheduled {debugOption debugNat record.counts.scheduled} != offered {record.counts.offered}"

def row2 : Option String :=
  row (record.kind.publishes ∧
      saturatingAdd record.counts.delivered (record.counts.dropped.getD 0) > record.counts.offered)
    "delivered + dropped exceeds offered"

def row3 : Option String :=
  row (record.kind.publishes ∧ record.counts.unresolved ≠ 0) s!"unresolved {record.counts.unresolved}"

def row4 : Option String := row (record.counts.duplicates ≠ 0) s!"duplicates {record.counts.duplicates}"

def row5 : Option String := row (record.counts.foreign ≠ 0) s!"foreign payloads {record.counts.foreign}"

def row6 : Option String :=
  match record.counts.dropped with
  | none => none
  | some count => row (record.kind.publishes ∧ count ≠ 0) s!"dropped {count} in a {kindLabel record.kind} run"

def sustained (whole tail : Option f64.Value) : Bool :=
  match whole, tail with
  | some whole, some tail =>
    f64.lt (f64.literal 0 1) whole && f64.le (f64.div (f64.abs (f64.sub tail whole)) whole) (f64.literal 10 2)
  | _, _ => false

def row7 : Option String :=
  row (record.kind = .throughput ∧ sustained record.throughputMsgsPerSec record.last10sMsgsPerSec = false)
    (s!"not sustained: tail {debugOption f64.debug record.last10sMsgsPerSec} " ++
      s!"vs window {debugOption f64.debug record.throughputMsgsPerSec}")

def row8 : Option String :=
  row (record.server = .uring ∧ record.driver ≠ some ⟨record.workers, 0⟩)
    s!"driver proof failed: {debugOption debugDriver record.driver}"

def row9 : Option String :=
  row (record.generatorErrors.connect ≠ 0) s!"connect errors {record.generatorErrors.connect}"

def row10 : Option String :=
  row (record.generatorErrors.protocol ≠ 0) s!"protocol errors {record.generatorErrors.protocol}"

def row11 : Option String :=
  row (record.kind.isOpenLoop ∧ record.generatorErrors.missedSlots ≠ 0)
    s!"missed slots {record.generatorErrors.missedSlots}"

def row12 : Option String :=
  row (record.generatorErrors.stalled ≠ 0)
    (s!"stalled {record.generatorErrors.stalled} (publishes whose write did not complete or whose PUBACK never " ++
      "arrived, plus connection tasks still running at the hard deadline)")

def row13 : Option String :=
  row (record.qos = some 1 ∧ record.kind.publishes ∧ record.counts.acked ≠ some record.counts.offered)
    (s!"unacknowledged QoS 1 publishes: acked {debugOption debugNat record.counts.acked} " ++
      s!"of {record.counts.offered}")

def row14 : Option String :=
  row (record.kind.isOpenLoop ∧ record.latencyNs = none) "no latency samples in the window"

def row15 : Option String :=
  match record.latencyNs with
  | none => none
  | some latency =>
    if !record.kind.isOpenLoop then none
    else match histogramTotal latency.histogram with
      | .error reason => some s!"latency histogram {reason}"
      | .ok total =>
        row (total ≠ record.counts.windowScheduled.getD 0)
          s!"latency samples {total} != window slots {debugOption debugNat record.counts.windowScheduled}"

def row16 : Option String :=
  row (record.counts.latencyOverRange ≠ 0) s!"latency samples over range {record.counts.latencyOverRange}"

def row17 : Option String :=
  row (record.counts.clockAnomalies ≠ 0) s!"clock anomalies {record.counts.clockAnomalies}"

/-- `GENERATOR_LATENESS_FRACTION`, 0.10, prints as 0.1. -/
def row18 : Option String :=
  match record.latencyNs with
  | none => none
  | some latency =>
    if !record.kind.isOpenLoop then none
    else match record.latenessP99Ns with
      | none => some s!"generator lateness p99 None ns exceeds 0.1 of latency p99 {latency.p99}"
      | some p99 =>
        row (f64.lt (f64.mul (f64.literal 10 2) (f64.ofNat latency.p99)) (f64.ofNat p99))
          s!"generator lateness p99 {debugOption debugNat (some p99)} ns exceeds 0.1 of latency p99 {latency.p99}"

def isCountedSyscallRun : Bool := record.kind = .counted

def row19 : Option String :=
  row (isCountedSyscallRun record ∧ record.syscalls.count = none) "syscall count missing"

def row20 : Option String :=
  row (record.kind = .connections ∧ record.cyclesInWindow.getD 0 = 0) "no completed connection cycles"

def row21 : Option String :=
  row (record.kind.isOpenLoop ∧ record.generatorErrors.latenessOverRange ≠ 0)
    s!"generator lateness over range {record.generatorErrors.latenessOverRange}"

def boundaryOff (boundary : Option Nat) (expected : Nat) : Bool :=
  match boundary with
  | none => true
  | some time => decide (max time expected - min time expected > counterBoundaryToleranceNs)

def counterBoundariesOff : Bool :=
  boundaryOff record.syscalls.enabledNs record.window.startNs || boundaryOff record.syscalls.disabledNs record.window.endNs

def row22 : Option String :=
  row (isCountedSyscallRun record ∧ counterBoundariesOff record)
    (s!"counter boundaries outside tolerance: enabled {debugOption debugNat record.syscalls.enabledNs} " ++
      s!"disabled {debugOption debugNat record.syscalls.disabledNs}")

def counterExitOk : Bool :=
  match record.syscalls.exit with
  | some (.code value) => value = 0
  | some (.signal value) => value = sigint
  | none => false

def row23 : Option String :=
  row (isCountedSyscallRun record ∧ counterExitOk record = false)
    s!"syscall counter ended with {debugOption debugExit record.syscalls.exit}"

def row24 : Option String :=
  if !record.kind.isOpenLoop then none
  else match record.lastWriteStartNs with
    | none => some "publish write began at or after the window end: None"
    | some time => row (time ≥ record.window.endNs) s!"publish write began at or after the window end: {time}"

def row25 : Option String :=
  if !record.kind.isOpenLoop then none
  else match histogramTotal record.lateness with
    | .error reason => some s!"lateness histogram {reason}"
    | .ok latenessTotal =>
      let total := saturatingAdd latenessTotal record.generatorErrors.latenessOverRange
      row (total ≠ record.counts.windowScheduled.getD 0)
        s!"lateness samples {total} != window slots {debugOption debugNat record.counts.windowScheduled}"

def secondsAfter (base secs : Nat) : Option Nat :=
  if secs * oneSecondNs > u64Max then none
  else if base + secs * oneSecondNs > u64Max then none
  else some (base + secs * oneSecondNs)

def row26 : Option String :=
  row (¬(record.originNs % oneSecondNs = 0 ∧
      secondsAfter record.originNs record.warmupSecs = some record.window.startNs ∧
      secondsAfter record.window.startNs record.windowSecs = some record.window.endNs ∧
      record.window.endNs > record.window.startNs))
    "window inconsistent with origin and constants"

def row27 : Option String :=
  if !record.kind.isOpenLoop then none
  else match record.offeredRate with
    | none => some "no offered rate for a latency run"
    | some rate =>
      if record.window.startNs > record.window.endNs then
        some s!"window start {record.window.startNs} is after window end {record.window.endNs}"
      else if scheduledSlots rate.toNat record.originNs record.window > u64Max then
        some s!"offered rate {rate} schedules more slots than a u64 can hold"
      else
        row (slotCounts rate.toNat record.originNs record.window ≠
            (record.counts.scheduled.bind fun scheduled => record.counts.windowScheduled.map (scheduled, ·)))
          s!"scheduled counts inconsistent with rate {debugOption toString record.offeredRate}"

def row29 : Option String :=
  match record.timeline.total with
  | none => some "timeline deliveries overflow a u64"
  | some timelineTotal =>
    row (timelineTotal ≠ record.counts.delivered)
      s!"timeline deliveries {timelineTotal} != delivered {record.counts.delivered}"

def row30 : Option String :=
  row (isCountedSyscallRun record ∧ record.timeline.sumSecs record.window.startSec record.window.endSec = 0)
    "no deliveries in the window to divide the syscall count by"

/-- Row 31: the backlog that grew through the window, as time at the offered rate. -/
def steadyStateReason : Option String :=
  if !record.kind.isOpenLoop then none
  else match record.offeredRate, record.counts.windowScheduled with
    | some rate, some windowScheduled =>
      let growth := windowScheduled - record.timeline.sumSecs record.window.startSec record.window.endSec
      let growthMs := f64.div (f64.mul (f64.ofNat growth) (f64.literal 10000 1)) (f64.ofNat rate.toNat)
      row (¬growth * oneSecondNs ≤ steadyStateGrowthLimitNs * rate.toNat)
        (s!"backlog grew by {growth} slots through the window ({f64.tenths growthMs} ms at the offered rate), " ++
          s!"above the {steadyStateGrowthLimitNs / nsPerMs} ms steady-state limit")
    | _, _ => none

def reconcile : List String :=
  [row1 record, row2 record, row3 record, row4 record, row5 record, row6 record, row7 record, row8 record, row9 record,
    row10 record, row11 record, row12 record, row13 record, row14 record, row15 record, row16 record, row17 record,
    row18 record, row19 record, row20 record, row21 record, row22 record, row23 record, row24 record, row25 record,
    row26 record, row27 record].filterMap id ++ record.harnessErrors ++
  [row29 record, row30 record, steadyStateReason record].filterMap id

/-! ### Recomputing -/

def debugPair (pair : Nat × Nat) : String := s!"({pair.1}, {pair.2})"

def debugList {α : Type} (debug : α → String) (values : List α) : String :=
  "[" ++ String.intercalate ", " (values.map debug) ++ "]"

def debugLatency (latency : LatencySummary) : String :=
  "LatencySummary \x7b p50: " ++ toString latency.p50 ++ ", p99: " ++ toString latency.p99 ++ ", max: " ++
    toString latency.max ++ ", histogram: " ++ debugList debugPair latency.histogram ++ " \x7d"

def mismatch {α : Type} [DecidableEq α] (field : String) (debug : α → String) (stored derived : α) : Option String :=
  if stored ≠ derived then some (field ++ ": stored " ++ debug stored ++ " derived " ++ debug derived) else none

/-- One string for each stored field that disagrees with `derive` or `reconcile`.
`quote` is the `Debug` of a string; rates are never NaN, so `!=` is inequality. -/
def recompute [DecidableEq f64.Value] (quote : String → String) : List String :=
  let derived := derive record
  let reasons := reconcile record
  [mismatch "throughput_msgs_per_sec" (debugOption f64.debug) record.throughputMsgsPerSec derived.throughputMsgsPerSec,
    mismatch "last10s_msgs_per_sec" (debugOption f64.debug) record.last10sMsgsPerSec derived.last10sMsgsPerSec,
    mismatch "connections_per_sec" (debugOption f64.debug) record.connectionsPerSec derived.connectionsPerSec,
    mismatch "latency_ns" (debugOption debugLatency) record.latencyNs derived.latencyNs,
    mismatch "lateness_p99_ns" (debugOption debugNat) record.latenessP99Ns derived.latenessP99Ns,
    mismatch "syscalls.count" (debugOption debugNat) record.syscalls.count derived.syscallCount,
    mismatch "syscalls.per_msg" (debugOption f64.debug) record.syscalls.perMsg derived.syscallsPerMsg,
    mismatch "counts.unresolved" debugNat record.counts.unresolved derived.unresolved,
    mismatch "invalid_reasons" (debugList quote) record.invalidReasons reasons,
    mismatch "valid" (fun valid => if valid then "true" else "false") record.valid reasons.isEmpty].filterMap id

end UringMqtt.Bench

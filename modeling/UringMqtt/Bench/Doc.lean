import UringMqtt.Bench.CpuList
import UringMqtt.Bench.Matrix

/-! The published document, `bench/src/doc.rs`: what `render` refuses, and the lines it
writes. The checks come in the source's order, and the first that fails is the error. -/

namespace UringMqtt.Bench
open Lib

/-- The decimal places of the document's figures. -/
class DocFigures (f64 : F64) where
  fixed0 : f64.Value → String
  fixed2 : f64.Value → String

def failedText : String := "FAILED"

def mosquittoResultsLabel : String := "mosquitto (endpoint = subscriber receipt)"

def recordedServers : List ServerKind := [.uring, .tokio, .mosquitto]

def recordedWorkers : List UInt32 := [1, 4]

def recordedQos : List UInt8 := [1, 0]

inductive DocError
  | noRecords
  | unsupportedSchema (schema : UInt32)
  | smokeRecordInRecordedDoc (name : String)
  | debugBuild
  | dirtyTree
  | mixedEnvironment (field : String)
  | blankEnvironment (field : String)
  | noToolVersions
  | blankToolPath (index : Nat)
  | blankToolVersion (path : String)
  | blankCpuSet (field : String)
  | inconsistentRecord (text : String)
  | protocolViolation (text : String)
  | failedConfigurations (names : List String)
deriving DecidableEq

/-! ### Cells -/

/-- `char::is_control`: the general category Cc. -/
def isControl (char : Char) : Bool := decide (char.toNat < 32) || decide (127 ≤ char.toNat ∧ char.toNat < 160)

def cellChar (char : Char) : List Char :=
  if char = '\\' then ['\\', '\\']
  else if char = '|' then ['\\', '|']
  else if isControl char then [' ']
  else [char]

def cell (text : String) : String := String.ofList (text.toList.flatMap cellChar)

/-- `cell(text).trim().is_empty()`. -/
def blankCell (text : String) : Bool := (trim (cell text).toList).isEmpty

def serverLabel : ServerKind → String
  | .uring => "uring"
  | .tokio => "tokio"
  | .mosquitto => "mosquitto"

/-! ### The expected configurations -/

/-- The declared rates of a row group; `expect` of a lookup that covers the matrix. -/
def rowRates (profile : Profile) (workers : UInt32) (qos : UInt8) : DeclaredRates :=
  (declaredRates profile workers qos).getD ⟨0, 0⟩

def throughputKey (server : ServerKind) (workers : UInt32) (qos : UInt8) : ConfigKey := ⟨server, workers, some qos, .throughput, none⟩

def latencyKey (server : ServerKind) (workers : UInt32) (qos : UInt8) (rate : UInt64) : ConfigKey :=
  ⟨server, workers, some qos, .latency, some rate⟩

def countedKey (server : ServerKind) (workers : UInt32) (qos : UInt8) (rate : UInt64) : ConfigKey :=
  ⟨server, workers, some qos, .counted, some rate⟩

def connectionsKey (server : ServerKind) (workers : UInt32) : ConfigKey := ⟨server, workers, none, .connections, none⟩

def expectedConfigs (profile : Profile) : List ConfigKey :=
  recordedWorkers.flatMap fun workers =>
    let servers := serversFor workers recordedServers
    (recordedQos.flatMap fun qos =>
      let rates := rowRates profile workers qos
      servers.flatMap fun server =>
        throughputKey server workers qos :: rates.both.map (latencyKey server workers qos) ++ [countedKey server workers qos rates.higher]) ++
    servers.map (connectionsKey · workers)

def configLabel (key : ConfigKey) : String :=
  let kind := match key.kind with
    | .throughput => "throughput"
    | .latency => key.offeredRate.elim "latency" fun rate => s!"latency-at{rate}"
    | .connections => "connections"
    | .counted => key.offeredRate.elim "counted" fun rate => s!"counted-at{rate}"
  let qos := key.qos.elim "" fun qos => s!"-q{qos}"
  s!"{serverLabel key.server}-w{key.workers}{qos}-{kind}"

/-! ### The checks of every record -/

section Checks
variable {f64 : F64}

def schemaRefusal (records : List (RunRecord f64)) : Option DocError :=
  (records.find? fun record => record.schema ≠ schemaVersion).map fun record => .unsupportedSchema record.schema

def recomputeRefusal [DecidableEq f64.Value] (quote : String → String) (records : List (RunRecord f64)) : Option DocError :=
  (records.find? fun record => !(recompute record quote).isEmpty).map fun record =>
    .inconsistentRecord (s!"{record.fileName}: " ++ String.intercalate "; " (recompute record quote))

def profileRefusal (records : List (RunRecord f64)) : Option DocError :=
  (records.find? fun record => record.profile = .smoke).map fun record => .smokeRecordInRecordedDoc record.fileName

def mixedRefusal {α : Type} [DecidableEq α] (records : List (RunRecord f64)) (field : String) (value : Env → α) : Option DocError :=
  if (records.map fun record => value record.env).dedup.length > 1 then some (.mixedEnvironment field) else none

def blankRefusal (records : List (RunRecord f64)) (field : String) (value : Env → String) : Option DocError :=
  if records.any fun record => blankCell (value record.env) then some (.blankEnvironment field) else none

def environmentRefusal (records : List (RunRecord f64)) : Option DocError :=
  let tools := ((records.map fun record => record.env.tools).dedup).flatten
  (mixedRefusal records "git_sha" Env.gitSha).or <|
  (mixedRefusal records "kernel" Env.kernel).or <|
  (mixedRefusal records "host" Env.host).or <|
  (mixedRefusal records "cpu_model" Env.cpuModel).or <|
  (mixedRefusal records "tools" Env.tools).or <|
  (blankRefusal records "git_sha" Env.gitSha).or <|
  (blankRefusal records "kernel" Env.kernel).or <|
  (blankRefusal records "host" Env.host).or <|
  (blankRefusal records "cpu_model" Env.cpuModel).or <|
  (if records.any fun record => record.env.tools.isEmpty then some .noToolVersions else none).or <|
  ((tools.findIdx? fun tool => blankCell tool.1).map .blankToolPath).or <|
  (tools.find? fun tool => blankCell tool.2).map fun tool => .blankToolVersion tool.1

def constantRefusal {α : Type} [DecidableEq α] [ToString α] (record : RunRecord f64) (field : String) (stored expected : α) :
    Option DocError :=
  if stored ≠ expected then some (.protocolViolation s!"{record.fileName}: {field} {stored} != {expected}") else none

def protocolRefusal (constants : ProtocolConstants) (record : RunRecord f64) : Option DocError :=
  (constantRefusal record "warmup_secs" record.warmupSecs constants.warmupSecs).or <|
  (constantRefusal record "window_secs" record.windowSecs constants.windowSecs).or <|
  (constantRefusal record "drain_grace_secs" record.drainGraceSecs constants.drainGraceSecs).or <|
  (constantRefusal record "connections" record.connections runnerConnections).or <|
  (constantRefusal record "payload_bytes" record.payloadBytes (UInt32.ofNat payloadBytes)).or <|
  constantRefusal record "qos1_window" record.qos1Window runnerQos1Window

def debugPairs (quote : String → String) (pairs : List (String × String)) : String :=
  "\x7b" ++ String.intercalate ", " (pairs.map fun pair => "(" ++ quote pair.1 ++ ", " ++ quote pair.2 ++ ")") ++ "\x7d"

def cpuSetRefusal (quote : String → String) (records : List (RunRecord f64)) : Option DocError :=
  let pairs := sortBy (fun one two => one.1 < two.1 || (one.1 = two.1 && one.2 ≤ two.2))
    (records.map fun record => (record.cpuSets.server, record.cpuSets.generator)).dedup
  if pairs.length > 1 then some (.protocolViolation ("multiple cpu_sets pairs: " ++ debugPairs quote pairs))
  else match pairs.head? with
    | none => none
    | some (server, generator) =>
      if blankCell server then some (.blankCpuSet "server")
      else if blankCell generator then some (.blankCpuSet "generator")
      else none

/-- The checks of a recorded document that come before its configurations. -/
def recordedRefusal (quote : String → String) (records : List (RunRecord f64)) : Option DocError :=
  (profileRefusal records).or <|
  (if records.any fun record => record.build = .debug then some .debugBuild else none).or <|
  (if records.any fun record => record.env.gitDirty then some .dirtyTree else none).or <|
  (environmentRefusal records).or <|
  (records.findSome? (protocolRefusal (.forProfile .recorded))).or <|
  cpuSetRefusal quote records

end Checks

/-! ### The configurations -/

section Configurations
variable {f64 : F64}

inductive Standing (f64 : F64)
  | missing
  | passing (runs : List (RunRecord f64))
  | notSustained (rows : List CapacityRow)
  | failed

namespace Standing

def passing? : Standing f64 → Option (List (RunRecord f64))
  | .passing runs => some runs
  | .missing | .notSustained _ | .failed => none

def notSustained? : Standing f64 → Option (List CapacityRow)
  | .notSustained rows => some rows
  | .missing | .passing _ | .failed => none

end Standing

def keyRuns (records : List (RunRecord f64)) (key : ConfigKey) : List (RunRecord f64) := records.filter fun record => record.key = key

def highestRuns (runs : List (RunRecord f64)) : List (RunRecord f64) :=
  let highest := (runs.map (·.attempt)).max?.getD 0
  let attemptRuns := runs.filter fun run => run.attempt = highest
  if attemptRuns.isEmpty then runs else attemptRuns

def rateProfile (smoke : Bool) : Profile := if smoke then .smoke else .recorded

def docConstants (smoke : Bool) : ProtocolConstants := .forProfile (rateProfile smoke)

def standing [Figures f64] (records : List (RunRecord f64)) (smoke : Bool) (key : ConfigKey) : Standing f64 :=
  let constants := docConstants smoke
  let runs := keyRuns records key
  if runs.isEmpty then .missing
  else if !smoke && key.kind.isOpenLoop then
    match openLoopOutcome runs constants with
    | .passed => .passing (highestRuns runs)
    | .notSustained rows => .notSustained rows
    | .pending | .exhausted _ => .failed
  else if configPasses (highestRuns runs) constants.repetitions constants.enforceSpread then .passing (highestRuns runs)
  else .failed

def outsideRefusal (records : List (RunRecord f64)) : Option DocError :=
  (records.find? fun record => record.key ∉ expectedConfigs .recorded).map fun record =>
    .protocolViolation s!"{record.fileName}: configuration {configLabel record.key} is outside the recorded matrix"

def counterOnUncountedRow (record : RunRecord f64) : Option String :=
  let syscalls := record.syscalls
  if syscalls.count.isSome || syscalls.perMsg.isSome || syscalls.raw.isSome || syscalls.enabledNs.isSome ||
      syscalls.disabledNs.isSome || syscalls.exit.isSome || syscalls.diagnostics.isSome then
    some "counter evidence"
  else if record.valid && syscalls.method ≠ .none then some "counter method"
  else none

def evidenceRefusal (records : List (RunRecord f64)) (key : ConfigKey) : Option DocError :=
  let runs := keyRuns records key
  if key.kind = .counted then
    (runs.find? fun run => run.syscalls.method ≠ .perf && run.syscalls.method ≠ .strace).map fun bad =>
      .protocolViolation s!"{configLabel key}: counted record without counter evidence ({bad.fileName})"
  else
    (runs.findSome? fun run => (counterOnUncountedRow run).map (run, ·)).map fun (bad, reason) =>
      .protocolViolation s!"{configLabel key}: {reason} on a row the matrix does not count ({bad.fileName})"

def publishedSyscallMethods (counted : List (RunRecord f64)) : List String :=
  sortBy (· ≤ ·) (counted.map fun run => methodLabel run.syscalls.method).dedup

def syscallsMethodLabel (counted : List (RunRecord f64)) : String :=
  let methods := publishedSyscallMethods counted
  if methods.isEmpty then "n/a"
  else
    let label := String.intercalate ", " methods
    if "strace" ∈ methods then
      label ++ " (ptrace slows each syscall, which raises completions per `io_uring_enter` and flatters io_uring)"
    else label

variable [Figures f64]

/-- `passing_by_key`. -/
def passing (records : List (RunRecord f64)) (smoke : Bool) (key : ConfigKey) : Option (List (RunRecord f64)) :=
  if key ∈ expectedConfigs (rateProfile smoke) then (standing records smoke key).passing? else none

/-- `not_sustained`. -/
def notSustained (records : List (RunRecord f64)) (smoke : Bool) (key : ConfigKey) : Option (List CapacityRow) :=
  if key ∈ expectedConfigs (rateProfile smoke) then (standing records smoke key).notSustained? else none

def failedNames (records : List (RunRecord f64)) : List String :=
  ((expectedConfigs .recorded).filter fun key =>
    (standing records false key).passing?.isNone && (standing records false key).notSustained?.isNone).map configLabel

/-- The records behind the `syscalls/msg` cells. Only the set of their methods is read, so
the order of the hash maps is of no account. -/
def publishedCounted (records : List (RunRecord f64)) (smoke : Bool) : List (RunRecord f64) :=
  let counted := (expectedConfigs (rateProfile smoke)).filter fun key => key.kind = .counted
  (counted.flatMap fun key => (passing records smoke key).getD []) ++
    counted.flatMap fun key => if (notSustained records smoke key).isSome then keyRuns records key else []

def methodRefusal (records : List (RunRecord f64)) : Option DocError :=
  let methods := publishedSyscallMethods (publishedCounted records false)
  if methods.length > 1 then some (.protocolViolation ("mixed syscall counter methods: " ++ String.intercalate ", " methods)) else none

def configurationRefusal (records : List (RunRecord f64)) : Option DocError :=
  (outsideRefusal records).or <|
  (if (failedNames records).isEmpty then none else some (.failedConfigurations (failedNames records))).or <|
  ((expectedConfigs .recorded).findSome? (evidenceRefusal records)).or <|
  methodRefusal records

def refusal [DecidableEq f64.Value] (quote : String → String) (records : List (RunRecord f64)) (smoke : Bool) : Option DocError :=
  (if records.isEmpty then some .noRecords else none).or <|
  (schemaRefusal records).or <|
  (recomputeRefusal quote records).or <|
  if smoke then none else (recordedRefusal quote records).or (configurationRefusal records)

end Configurations

/-! ### The rows -/

section Rows
variable {f64 : F64} [Figures f64] [DocFigures f64]

def cpuPercent (ticks clkTck sampledNs : Nat) (cpus : UInt32) : Option f64.Value :=
  if clkTck = 0 ∨ sampledNs = 0 ∨ cpus = 0 then none
  else
    let denom := saturatingMul128 (saturatingMul128 clkTck sampledNs) cpus.toNat
    if denom = 0 then none
    else some (f64.div (f64.ofNat (saturatingMul128 (saturatingMul128 ticks 100) oneSecondNs)) (f64.ofNat denom))

/-- One run's share of its CPUs. `cpu_count` does not panic, so its value is read at once. -/
def runCpuPercent (server : Bool) (run : RunRecord f64) : Option f64.Value := do
  let cpu ← run.cpu
  let cpus ← (cpuCount (if server then run.cpuSets.server else run.cpuSets.generator)).join
  cpuPercent (if server then cpu.serverTicks else cpu.generatorTicks) cpu.clkTck cpu.sampledNs cpus

def medianCpuPercent (runs : List (RunRecord f64)) (server : Bool) : String :=
  match median (runs.filterMap (runCpuPercent server)) with
  | some m => f64.tenths m
  | none => "n/a"

def medianNs (values : List Nat) : Option Nat :=
  let sorted := sortBy (· ≤ ·) values
  let n := sorted.length
  if n % 2 = 1 then sorted[n / 2]?
  else do return ((← sorted[n / 2 - 1]?) + (← sorted[n / 2]?)) / 2

def latencyP99Us (passing : ConfigKey → Option (List (RunRecord f64))) (key : ConfigKey) : String :=
  match passing key with
  | none => failedText
  | some runs =>
    match medianNs (runs.filterMap fun run => run.latencyNs.map LatencySummary.p99) with
    | none => "n/a"
    | some median => f64.tenths (f64.div (f64.ofNat median) (f64.literal 10000 1))

def syscallsPerMsg (passing : ConfigKey → Option (List (RunRecord f64))) (key : ConfigKey) (anyCounted : Bool) : String :=
  if !anyCounted then "n/a"
  else match passing key with
    | none => failedText
    | some runs =>
      let values := runs.filterMap fun run => run.syscalls.perMsg
      if values.isEmpty then "n/a" else DocFigures.fixed2 ((median values).getD (f64.literal 0 1))

def driverLabel (runs : List (RunRecord f64)) (server : ServerKind) (workers : UInt32) : String :=
  if server ≠ .uring then "n/a"
  else if runs.isEmpty then "n/a"
  else if runs.all fun run => run.driver = some ⟨workers, 0⟩ then "ok"
  else "failed"

def CapacityRow.label : CapacityRow → String
  | .unresolved => "unresolved"
  | .missedSlots => "missed slots"
  | .steadyState => "steady state"

def notSustainedCell (rate : UInt64) (rows : List CapacityRow) : String :=
  s!"not sustained at {rate} msgs/s: " ++ String.intercalate ", " (rows.map CapacityRow.label)

def metricCells (runs : List (RunRecord f64)) : String × String :=
  let metrics := runs.filterMap metric
  (DocFigures.fixed0 ((median metrics).getD (f64.literal 0 1)),
    f64.tenths (f64.mul ((spread metrics).getD (f64.literal 0 1)) (f64.literal 1000 1)) ++ " %")

structure ThroughputCells where
  msgs : String
  spread : String
  serverCpu : String
  genCpu : String
  driver : String

def throughputCells (server : ServerKind) (workers : UInt32) : Option (List (RunRecord f64)) → ThroughputCells
  | some runs =>
    ⟨(metricCells runs).1, (metricCells runs).2, medianCpuPercent runs true, medianCpuPercent runs false, driverLabel runs server workers⟩
  | none => ⟨failedText, failedText, failedText, failedText, failedText⟩

def resultsRow (passing : ConfigKey → Option (List (RunRecord f64))) (notSustained : ConfigKey → Option (List CapacityRow))
    (server : ServerKind) (workers : UInt32) (qos : UInt8) (rates : DeclaredRates) (anyCounted : Bool) : String :=
  let lower := latencyKey server workers qos rates.lower
  let higher := latencyKey server workers qos rates.higher
  let counted := countedKey server workers qos rates.higher
  let cells := throughputCells server workers (passing (throughputKey server workers qos))
  let pLower := ((notSustained lower).map (notSustainedCell rates.lower)).getD (latencyP99Us passing lower)
  let pHigher := ((notSustained higher).map (notSustainedCell rates.higher)).getD (latencyP99Us passing higher)
  let sys := ((notSustained counted).map (notSustainedCell rates.higher)).getD (syscallsPerMsg passing counted anyCounted)
  let openLoop :=
    if (passing higher).isSome then toString rates.higher
    else if (passing lower).isSome then toString rates.lower
    else "none"
  let label := if server = .mosquitto then mosquittoResultsLabel else serverLabel server
  s!"| {label} | {cells.msgs} | {cells.spread} | {cells.serverCpu} | {cells.genCpu} | {pLower} | {pHigher} | {openLoop} | {sys} | {cells.driver} |"

def connectionsRow (passing : ConfigKey → Option (List (RunRecord f64))) (server : ServerKind) (workers : UInt32) : String :=
  match passing (connectionsKey server workers) with
  | none => s!"| {serverLabel server} | {failedText} | {failedText} |"
  | some runs => s!"| {serverLabel server} | {(metricCells runs).1} | {(metricCells runs).2} |"

end Rows

/-! ### The document -/

section Document
variable {f64 : F64}

def titleLines (smoke : Bool) : List String :=
  ["# Benchmarks", "", "> A generated file produced by `bench doc`. Do not edit by hand.", ""] ++
    if smoke then ["> **SMOKE — not publishable.**", ""] else []

def environmentRows (sample : RunRecord f64) (methodLabel : String) : List String :=
  ["| Field | Value |",
    "|---|---|",
    s!"| Host | {cell sample.env.host} |",
    s!"| CPU model | {cell sample.env.cpuModel} |",
    s!"| Kernel | {cell sample.env.kernel} (WSL2 under the Hyper-V scheduler; hybrid P/E cores are not exposed by WSL) |",
    s!"| CPU sets | server `{cell sample.cpuSets.server}`, generator `{cell sample.cpuSets.generator}` |",
    s!"| Commit | {cell sample.env.gitSha} |",
    "| Build | " ++ (if sample.build = .release then "release" else "debug") ++ " |",
    s!"| Syscall method | {methodLabel} |"] ++
  sample.env.tools.map fun tool => s!"| Tool `{cell tool.1}` | {cell tool.2} |"

def rateList (profile : Profile) : List String :=
  recordedWorkers.flatMap fun workers => recordedQos.map fun qos =>
    let rates := rowRates profile workers qos
    s!"{workers} worker(s) QoS {qos} at {rates.lower} and {rates.higher} msgs/s"

def methodLines (smoke anyCounted : Bool) : List String :=
  let constants := docConstants smoke
  ["## Method", "",
    s!"Constants: warm-up {constants.warmupSecs} s, window {constants.windowSecs} s, {constants.repetitions} repetitions, " ++
      s!"{runnerConnections} connections, {payloadBytes}-byte payloads, qos1_window {runnerQos1Window}, MQTT 3.1.1. Closed-loop throughput " ++
      "measures msgs/s at the callback; open-loop latency paces sends at each row group's two declared rates, identical for every server " ++
      "in the row group: " ++ String.intercalate "; " (rateList (rateProfile smoke)) ++
      ". `bench/CALIBRATION.md` records how the rates were chosen. Mosquitto endpoint = subscriber receipt.",
    "",
    if anyCounted then
      s!"Both latency columns come from uncounted runs; `syscalls/msg` comes from {constants.repetitions} separate counted repetitions at " ++
        "each row group's higher declared rate, which qualify on `syscalls/msg` spread. The counted runs' p99 stays in the raw JSON and is " ++
        "not published."
    else
      "Both latency columns come from uncounted runs; `syscalls/msg` is `n/a` because this record set holds no counted run.",
    ""]

def signOffLines : List String :=
  ["## Sign-off", "",
    "- [ ] Driver proof: every uring run shows io_uring fds = workers and eventpoll fds = 0",
    "- [ ] Spread: every configuration with a published figure within 10 % over 5 interleaved repetitions; a not-sustained cell " ++
      "publishes no figure",
    "- [ ] Reconciliation: every published repetition reconciled (unresolved 0, duplicates 0, dropped 0 in throughput runs, open-loop " ++
      s!"backlog growth within {steadyStateGrowthLimitNs / nsPerMs} ms); failed attempts and not-sustained records stay in the raw JSON",
    "- [ ] Environment: host, kernel, CPU sets, AC power and idle state match this disclosure",
    "- [ ] Saturation: in every throughput row the server CPU set, not the generator, is the saturated side"]

variable [Figures f64] [DocFigures f64]

def resultsLines (records : List (RunRecord f64)) (smoke anyCounted : Bool) (workers : UInt32) (qos : UInt8) : List String :=
  let rates := rowRates (rateProfile smoke) workers qos
  [s!"## Results — {workers} worker(s), QoS {qos}", "",
    s!"| Server | msgs/s | spread | server CPU % | generator CPU % | p99 @{rates.lower} msgs/s (µs) | p99 @{rates.higher} msgs/s (µs) | " ++
      s!"open-loop ≥ (msgs/s) | syscalls/msg @{rates.higher} msgs/s | driver proof |",
    "|---|---|---|---|---|---|---|---|---|---|"] ++
  (serversFor workers recordedServers).map (fun server =>
    resultsRow (passing records smoke) (notSustained records smoke) server workers qos rates anyCounted) ++ [""]

def connectionsLines (records : List (RunRecord f64)) (smoke : Bool) (workers : UInt32) : List String :=
  [s!"## Connections per second — {workers} worker(s)", "", "| Server | conn/s | spread |", "|---|---|---|"] ++
    (serversFor workers recordedServers).map (fun server => connectionsRow (passing records smoke) server workers) ++ [""]

def workersLines (records : List (RunRecord f64)) (smoke anyCounted : Bool) (workers : UInt32) : List String :=
  (recordedQos.flatMap fun qos => resultsLines records smoke anyCounted workers qos) ++ connectionsLines records smoke workers

/-- The lines of the document; `sample` is the first record. -/
def documentLines (records : List (RunRecord f64)) (sample : RunRecord f64) (smoke : Bool) : List String :=
  let anyCounted := records.any fun record => record.kind = .counted
  titleLines smoke ++ ["## Environment", ""] ++
    environmentRows sample (syscallsMethodLabel (publishedCounted records smoke)) ++ [""] ++
    methodLines smoke anyCounted ++ (recordedWorkers.flatMap fun workers => workersLines records smoke anyCounted workers) ++ signOffLines

def writeLines (text : List String) : String := text.foldl (fun out line => out ++ line ++ "\n") ""

def render [DecidableEq f64.Value] (quote : String → String) (records : List (RunRecord f64)) (smoke : Bool) : Except DocError String :=
  match records, refusal quote records smoke with
  | _, some error => .error error
  | [], none => .error .noRecords
  | sample :: _, none => .ok (writeLines (documentLines records sample smoke))

end Document
end UringMqtt.Bench

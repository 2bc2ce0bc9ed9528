import UringMqtt.Bench.Throughput

/-! The generator of a publishing run, `bench/src/gen.rs`: its connection tasks, how they
are joined, and the report built from their counters. A connections run publishes nothing
and has no task here. -/

namespace UringMqtt.Bench
open Lib

section Tasks
variable {hdr : Hdr} {allocator : Allocator} (config : GenConfig) (connId : UInt32)

def openSession : Gen hdr allocator Bool := do
  match (← await config).session with
  | none =>
    modify World.start
    return true
  | some (.connect _) =>
    addConnectErrors 1
    return false
  | some (.protocol _) =>
    addConnectErrors 1
    addProtocolErrors 1
    return false

open Run in
/-- There is no reader yet when a task opens its session. -/
theorem openSession_spawned {post : Bool → World hdr allocator → Prop} {stops : Stop → World hdr allocator → Prop}
    (env : Nat → Moment) (aborted : stops .aborted { World.spawned hdr allocator env with tick := 1 })
    (opened : post true { World.spawned hdr allocator env with tick := 1, reading := true })
    (refused : ∀ protocolErrors, post false
      { World.spawned hdr allocator env with tick := 1, counters := ⟨0, 0, 1, protocolErrors, 0, 0, 0, 0⟩ }) :
    Ensures (openSession config) (World.spawned hdr allocator env) post stops := by
  have observes : Ensures (observe config) (World.spawned hdr allocator env)
      (fun _ after => after = { World.spawned hdr allocator env with tick := 1 }) stops := by
    constructor
    change (env 0).frames.foldl _ _ = _
    induction (env 0).frames with
    | nil => rfl
    | cons frame rest ih => exact ih
  have awaits : Ensures (await config) (World.spawned hdr allocator env)
      (fun _ after => after = { World.spawned hdr allocator env with tick := 1 }) stops := by
    refine .bind observes fun moment after same => ?_
    split
    · exact .bind (.throw (same ▸ aborted)) fun _ _ same => .pure same
    · exact .pure same
  refine .bind awaits fun moment after same => ?_
  subst after
  rcases moment.session with _ | (_ | _)
  · exact .modify_bind (.pure opened)
  · exact .modify_bind (.pure (refused 0))
  · exact .modify_bind (.modify_bind (.pure (refused 1)))

def runThroughputConnection (fuel : Nat) : Gen hdr allocator (Except String Unit) := do
  if ← openSession config then
    if config.qos = 0 then runQos0Throughput config connId fuel else runQos1Throughput config connId fuel
  else return .ok ()

def latencyDrain (fuel : Nat) : Gen hdr allocator Bool :=
  if config.qos = 1 then do
    let drained ← drain config fuel
    countLeaked config (!drained)
  else pure true

def failureOf : Except String Unit → Option String
  | .ok () => none
  | .error cause => some cause

def latencyTeardown (fuel : Nat) (pacerResult : Except String Unit) : Gen hdr allocator (Except String Unit) := do
  let reader ← latencyDrain config fuel
  disconnectAndJoin config (failureOf pacerResult) reader

def runLatencyConnection (rate fuel : Nat) : Gen hdr allocator (Except String Unit) := do
  if ← openSession config then
    let pacerResult ← latencyPacer config connId rate fuel
    latencyTeardown config fuel pacerResult
  else return .ok ()

def runConnection (fuel : Nat) : Option (Gen hdr allocator (Except String Unit)) :=
  match config.mode with
  | .throughput => some (runThroughputConnection config connId fuel)
  | .latency rate => some (runLatencyConnection config connId rate.toNat fuel)
  | .connections => none

end Tasks

inductive TaskEnd
  | returned
  | cancelled
  | panicked (cause : String)
deriving DecidableEq

def taskEnd {hdr : Hdr} {allocator : Allocator} {α : Type} :
    EStateM.Result Stop (World hdr allocator) α → Option (TaskEnd × World hdr allocator)
  | .ok _ after => some (.returned, after)
  | .error .aborted after => some (.cancelled, after)
  | .error (.panicked cause) after => some (.panicked cause, after)
  | .error .unfinished _ => none

def Ends {hdr : Hdr} {allocator : Allocator} (config : GenConfig) (connId : UInt32) (env : Nat → Moment)
    (ended : TaskEnd × World hdr allocator) : Prop :=
  ∃ fuel task, runConnection config connId fuel = some task ∧ taskEnd (task (World.spawned hdr allocator env)) = some ended

structure GenReport where
  scheduled : Option Nat
  windowScheduled : Option Nat
  offered : Nat
  acked : Option Nat
  missedSlots : Nat
  connectErrors : Nat
  protocolErrors : Nat
  stalled : Nat
  latenessOverRange : Nat
  lastWriteStartNs : Option Nat
  cyclesInWindow : Option Nat
  lateness : List (Nat × Nat)
deriving DecidableEq

def totalCounters (shares : List Counters) : Counters where
  offered := (shares.map Counters.offered).sum
  acked := (shares.map Counters.acked).sum
  connectErrors := (shares.map Counters.connectErrors).sum
  protocolErrors := (shares.map Counters.protocolErrors).sum
  stalled := (shares.map Counters.stalled).sum
  latenessOverRange := (shares.map Counters.latenessOverRange).sum
  missedSlots := (shares.map Counters.missedSlots).sum
  lastWriteStartNs := (shares.map Counters.lastWriteStartNs).foldl max 0

/-- `finalize_lateness`. `none` is a failed merge, a panic. -/
def finalizeLateness {hdr : Hdr} (histograms : List hdr.Histogram) : Option (List (Nat × Nat)) := do
  let merged ← histograms.foldlM mergeHistogram none
  return (merged.map hdr.buckets).getD []

/-- The schedule a report names. `none` is a panic in `slot_counts`. -/
def reportedSlots (config : GenConfig) : Option (Option Nat × Option Nat) :=
  match config.mode with
  | .latency rate => do
    let (scheduled, windowScheduled) ← slotCounts rate.toNat config.originNs.toNat config.window
    return (some scheduled, some windowScheduled)
  | .throughput | .connections => some (none, none)

/-- `build_report` of a publishing run. There is a histogram per connection in latency
mode only. -/
def buildReport {hdr : Hdr} (config : GenConfig) (counters : Counters) (histograms : List hdr.Histogram) :
    Option GenReport := do
  let (scheduled, windowScheduled) ← reportedSlots config
  let lateness ← finalizeLateness (match config.mode with
    | .latency _ => histograms
    | .throughput | .connections => [])
  return {
    scheduled
    windowScheduled
    offered := counters.offered
    acked := if config.mode ≠ .connections ∧ config.qos = 1 then some counters.acked else none
    missedSlots := counters.missedSlots
    connectErrors := counters.connectErrors
    protocolErrors := counters.protocolErrors
    stalled := counters.stalled
    latenessOverRange := counters.latenessOverRange
    lastWriteStartNs := if counters.lastWriteStartNs = 0 then none else some counters.lastWriteStartNs
    cyclesInWindow := none
    lateness }

def TaskEnd.panic : TaskEnd → Option String
  | .panicked cause => some cause
  | .returned | .cancelled => none

def readerStopGraceSecs : Nat := 1

def joinAndReport {hdr : Hdr} {allocator : Allocator} (config : GenConfig)
    (joined : List (TaskEnd × World hdr allocator)) (readersStopped : Bool) : Option (Except String GenReport) :=
  match (joined.map Prod.fst).findSome? TaskEnd.panic with
  | some cause => some (.error s!"connection task panicked: {cause}")
  | none =>
    if !readersStopped then
      some (.error s!"session readers did not stop in the {readerStopGraceSecs} s after their connections were aborted")
    else
      let stillRunning := (joined.map Prod.fst).count .cancelled
      let counters := totalCounters (joined.map fun ended => ended.2.counters)
      (buildReport config { counters with stalled := counters.stalled + stillRunning }
        (joined.map fun ended => ended.2.lateness)).map .ok

/-- What decides a generator run besides its tasks. -/
structure Surroundings where
  nowNs : Nat
  readersStopped : Bool
  expired : Bool

def runGenerator {hdr : Hdr} {allocator : Allocator} (config : GenConfig) (around : Surroundings)
    (joined : List (TaskEnd × World hdr allocator)) : Option (Except String GenReport) :=
  match config.validate with
  | .error reason => some (.error reason)
  | .ok () =>
    if around.nowNs > config.originNs.toNat then some (.error "generator started after its origin")
    else if around.expired then
      some (.error (s!"the generator made no progress in the {readerStopGraceSecs} s after its hard deadline: a task " ++
        "blocked inside a synchronous call holds its runtime worker, and a runtime " ++
        "whose workers are all held fires no timer"))
    else joinAndReport config joined around.readersStopped

end UringMqtt.Bench

import Mathlib.Data.List.FinRange
import Mathlib.Logic.Function.Basic
import UringMqtt.Bench.Cycles
import UringMqtt.Bench.Generator
import UringMqtt.Bench.PacketIds

/-! The end of a generator run, `join_and_report` in `bench/src/gen.rs`, among connection
tasks and session readers that go on meanwhile. A task that ends drops its
`AbortOnDropHandle`, so a reader that still runs then is cancelled at the end of the poll it
is in. -/

namespace UringMqtt.Bench
open Lib

/-- What a connection task leaves behind: a session, or the counts of its cycles. -/
inductive Leavings (hdr : Hdr)
  | session (world : World hdr packetIds)
  | cycles (world : CycleWorld)

namespace Leavings
variable {hdr : Hdr}

def counters : Leavings hdr → Counters
  | .session world => world.counters
  | .cycles world => world.counters

def cyclesInWindow : Leavings hdr → Nat
  | .session _ => 0
  | .cycles world => world.cycles

def lateness : Leavings hdr → hdr.Histogram
  | .session world => world.lateness
  | .cycles _ => hdr.new

def reading : Leavings hdr → Bool
  | .session world => world.reading
  | .cycles _ => false

def readerPanic : Leavings hdr → Option String
  | .session world => world.readerPanic
  | .cycles _ => none

def readFrame (config : GenConfig) (frame : Frame) : Leavings hdr → Leavings hdr
  | .session world => .session (world.readFrame config frame)
  | .cycles world => .cycles world

def dropReader : Leavings hdr → Leavings hdr
  | .session world => .session { world with reading := false }
  | .cycles world => .cycles world

end Leavings

def cyclesEnd : EStateM.Result Stop CycleWorld Unit → Option (TaskEnd × CycleWorld)
  | .ok _ after => some (.returned, after)
  | .error .aborted after => some (.cancelled, after)
  | .error (.panicked cause) after => some (.panicked cause, after)
  | .error .unfinished _ => none

inductive TaskEnds {hdr : Hdr} (config : GenConfig) (connId : UInt32) : TaskEnd → Leavings hdr → Prop
  | session {env : Nat → Moment} {how : TaskEnd} {world : World hdr packetIds} (ends : Ends config connId env (how, world)) :
      TaskEnds config connId how (.session world)
  | cycles {env : Nat → CycleMoment} {fuel : Nat} {how : TaskEnd} {world : CycleWorld} (mode : config.mode = .connections)
      (ends : cyclesEnd (Cycles.runConnectionsMode config fuel (.spawned env)) = some (how, world)) :
      TaskEnds config connId how (.cycles world)
  /-- A panic that no modelled step raises, at any time. -/
  | panics {cause : String} {left : Leavings hdr} : TaskEnds config connId (.panicked cause) left

inductive JoinPhase
  /-- Joining tasks until the hard deadline. -/
  | draining
  /-- Everything is aborted; joining what is left. -/
  | joining (failure : Option String) (stillRunning : Nat)
  /-- Waiting until every reader has stopped. -/
  | stopping (failure : Option String) (stillRunning : Nat)
  /-- About to read the counters. -/
  | reporting (stillRunning : Nat)
  /-- `none` is a panic in `build_report`. -/
  | finished (result : Option (Except String GenReport))

def TaskEnd.failure (how : TaskEnd) : Option String := how.panic.map fun cause => s!"connection task panicked: {cause}"

/-- The run while it is joined: what each task left once it ended, which tasks were
collected, in order, and how far `join_and_report` is. -/
structure Joining (hdr : Hdr) (count : Nat) where
  task : Fin count → Option (TaskEnd × Leavings hdr)
  joined : List (Fin count)
  phase : JoinPhase

inductive Mover (count : Nat)
  | task (id : Fin count)
  | reader (id : Fin count)
  | joiner
deriving DecidableEq

namespace Joining
variable {hdr : Hdr} {count : Nat}

def initial (hdr : Hdr) (count : Nat) : Joining hdr count := ⟨fun _ => none, [], .draining⟩

def leavings (self : Joining hdr count) : List (Leavings hdr) :=
  (List.finRange count).filterMap fun id => (self.task id).map Prod.snd

def report (config : GenConfig) (self : Joining hdr count) (stillRunning : Nat) : Option GenReport :=
  let counters := totalCounters (self.leavings.map Leavings.counters)
  (buildReport config { counters with stalled := counters.stalled + stillRunning } (self.leavings.map Leavings.lateness)).map
    fun report => { report with
      cyclesInWindow :=
        if config.mode = .connections then some (self.leavings.map Leavings.cyclesInWindow).sum else none }

def left (self : Joining hdr count) (id : Fin count) (ended : TaskEnd × Leavings hdr) : Joining hdr count :=
  { self with task := Function.update self.task id (some ended) }

inductive Step (config : GenConfig) : Joining hdr count → Mover count → Joining hdr count → Prop
  /-- A task ends; it can only be cancelled once everything is aborted. -/
  | ends {state} (id : Fin count) {how left} (running : state.task id = none)
      (can : TaskEnds config (.ofNat id) how left) (asked : how = .cancelled → state.phase ≠ .draining) :
      Step config state (.task id) (state.left id (how, left))
  | reads {state} (id : Fin count) {how left} (frame : Frame) (ended : state.task id = some (how, left)) :
      Step config state (.reader id) (state.left id (how, left.readFrame config frame))
  | drops {state} (id : Fin count) {how left} (ended : state.task id = some (how, left)) :
      Step config state (.reader id) (state.left id (how, left.dropReader))
  | collects {state} (id : Fin count) {how left} (here : state.phase = .draining) (ended : state.task id = some (how, left))
      (waiting : id ∉ state.joined) :
      Step config state .joiner { state with
        joined := state.joined ++ [id]
        phase := match how.failure with
          | some cause => .joining (some cause) 0
          | none => .draining }
  | drained {state} (here : state.phase = .draining) (all : ∀ id, id ∈ state.joined) :
      Step config state .joiner { state with phase := .joining none 0 }
  | deadline {state} (here : state.phase = .draining) : Step config state .joiner { state with phase := .joining none 0 }
  | joins {state failure stillRunning} (id : Fin count) {how left} (here : state.phase = .joining failure stillRunning)
      (ended : state.task id = some (how, left)) (waiting : id ∉ state.joined) :
      Step config state .joiner { state with
        joined := state.joined ++ [id]
        phase := .joining (failure.or how.failure) (if how = .cancelled then stillRunning + 1 else stillRunning) }
  | joinedAll {state failure stillRunning} (here : state.phase = .joining failure stillRunning)
      (all : ∀ id, id ∈ state.joined) : Step config state .joiner { state with phase := .stopping failure stillRunning }
  /-- The tracker of the readers is empty. -/
  | stopped {state failure stillRunning} (here : state.phase = .stopping failure stillRunning)
      (silent : ∀ left ∈ state.leavings, left.reading = false) :
      Step config state .joiner { state with
        phase := match failure with
          | some cause => .finished (some (.error cause))
          | none => .reporting stillRunning }
  /-- `READER_STOP_GRACE` has passed. -/
  | expires {state failure stillRunning} (here : state.phase = .stopping failure stillRunning) :
      Step config state .joiner { state with
        phase := .finished (some (.error (failure.getD
          s!"session readers did not stop in the {readerStopGraceSecs} s after their connections were aborted"))) }
  | reports {state stillRunning} (here : state.phase = .reporting stillRunning) :
      Step config state .joiner { state with phase := .finished ((state.report config stillRunning).map .ok) }

end Joining
end UringMqtt.Bench

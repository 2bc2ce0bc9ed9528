import Mathlib.Logic.Function.Basic
import UringMqtt.Lib.Channel

/-! Starting the broker: `start_with_callback` and `supervise_startup` in
`src/broker/mod.rs`, and the half of `run_worker` in `src/broker/worker.rs` that
stands before the go barrier. The calling thread and the worker threads take
their steps in any order. -/

namespace UringMqtt
open Lib

inductive StartupError where
  | worker (message : String)
  | io (reason : String)
deriving DecidableEq

/-- Where a worker's thread is. `live` is behind the go barrier, with `PostGoFlag`
armed; `leaving` returned or unwound in front of it. -/
inductive WorkerStage where
  | unspawned
  | building
  | binding
  | converting
  | preparing
  | reporting
  | failing (error : StartupError)
  | releasing
  | quitting
  | awaiting
  | leaving
  | finished
  | live
deriving DecidableEq

namespace WorkerStage

def unreported : WorkerStage → Bool
  | building | binding | converting | preparing | reporting => true
  | _ => false

def holdsReady : WorkerStage → Bool
  | building | binding | converting | preparing | reporting | failing _ | releasing | quitting => true
  | _ => false

end WorkerStage

/-- Where `start_with_callback` is. `spawned` is the number of threads that exist when it
decides. -/
inductive MainStage where
  | pairing (made : Nat)
  | spawning (next : Nat)
  | supervising (count : Nat)
  | deciding (next spawned : Nat) (verdict : Except StartupError Unit)
  | joining (next spawned : Nat) (error : StartupError)
  | returned (result : Except StartupError Unit)

structure Startup (workers : Nat) where
  main : MainStage
  stage : Fin workers → WorkerStage
  ready : Channel (Fin workers × Except StartupError Unit)
  go : Fin workers → Channel Bool

inductive Thread (workers : Nat) where
  | main
  | worker (id : Fin workers)
deriving DecidableEq

namespace Startup
variable {workers : Nat}

def initial (workers : Nat) : Startup workers where
  main := if workers = 0 then .returned (.error (.worker "num_workers must be at least 1")) else .pairing 0
  stage _ := .unspawned
  ready := .empty
  go _ := .empty

def move (self : Startup workers) (id : Fin workers) (stage : WorkerStage) : Startup workers :=
  { self with stage := Function.update self.stage id stage }

def heard (workers count : Nat) : Except StartupError Unit → MainStage
  | .ok () => if count + 1 = workers then .deciding 0 workers (.ok ()) else .supervising (count + 1)
  | .error error => .deciding 0 workers (.error error)

def approves : Except StartupError Unit → Bool
  | .ok () => true
  | .error _ => false

/-- One step of one thread. A call of the operating system that may fail is two
steps; a reason is whatever the operating system says. -/
inductive Step : Startup workers → Thread workers → Startup workers → Prop
  | paired {state made} (here : state.main = .pairing made) (more : made < workers) :
      Step state .main { state with main := .pairing (made + 1) }
  | pairFailed {state made} (here : state.main = .pairing made) (more : made < workers) (reason : String) :
      Step state .main { state with main := .returned (.error (.io reason)) }
  | opened {state} (here : state.main = .pairing workers) : Step state .main { state with main := .spawning 0 }
  | spawned {state} (id : Fin workers) (here : state.main = .spawning id) :
      Step state .main { state.move id .building with main := .spawning (id + 1) }
  | spawnFailed {state} (id : Fin workers) (here : state.main = .spawning id) (reason : String) :
      Step state .main { state with
        main := .deciding 0 id (.error (.worker s!"failed to spawn worker thread {id}: {reason}")) }
  /-- The last thread runs, and `ready_tx` is dropped. -/
  | supervises {state} (here : state.main = .spawning workers) :
      Step state .main { state with main := .supervising 0 }
  | heard {state count id report ready} (here : state.main = .supervising count)
      (received : state.ready.recv = some ((id, report), ready)) :
      Step state .main { state with main := heard workers count report, ready }
  | disconnected {state count} (here : state.main = .supervising count) (drained : state.ready.queue = [])
      (unowned : ∀ id, (state.stage id).holdsReady = false) :
      Step state .main { state with
        main := .deciding 0 workers (.error (.worker "worker exited before reporting startup result")) }
  /-- One go-sender of the fan-out; the thread that could not be spawned has one too. -/
  | told {state} (id : Fin workers) {spawned : Nat} {verdict} (here : state.main = .deciding id spawned verdict)
      (more : id ≤ spawned) :
      Step state .main { state with
        main := .deciding (id + 1) spawned verdict
        go := Function.update state.go id ((state.go id).send (approves verdict)) }
  | succeeded {state next spawned} (here : state.main = .deciding next spawned (.ok ()))
      (all : workers ≤ next ∨ spawned < next) : Step state .main { state with main := .returned (.ok ()) }
  | aborts {state next spawned error} (here : state.main = .deciding next spawned (.error error))
      (all : workers ≤ next ∨ spawned < next) :
      Step state .main { state with main := .joining 0 spawned error }
  | joined {state} (id : Fin workers) {spawned : Nat} {error} (here : state.main = .joining id spawned error)
      (more : id < spawned) (ended : state.stage id = .finished) :
      Step state .main { state with main := .joining (id + 1) spawned error }
  | failed {state spawned error} (here : state.main = .joining spawned spawned error) :
      Step state .main { state with main := .returned (.error error) }
  | built {state} (id : Fin workers) (here : state.stage id = .building) :
      Step state (.worker id) (state.move id .binding)
  | buildFailed {state} (id : Fin workers) (here : state.stage id = .building) (reason : String) :
      Step state (.worker id) (state.move id (.failing (.worker s!"worker {id}: runtime build failed: {reason}")))
  | bound {state} (id : Fin workers) (here : state.stage id = .binding) :
      Step state (.worker id) (state.move id .converting)
  | bindFailed {state} (id : Fin workers) (here : state.stage id = .binding) (reason : String) :
      Step state (.worker id) (state.move id (.failing (.io reason)))
  | converted {state} (id : Fin workers) (here : state.stage id = .converting) :
      Step state (.worker id) (state.move id .preparing)
  | convertFailed {state} (id : Fin workers) (here : state.stage id = .converting) (reason : String) :
      Step state (.worker id) (state.move id (.failing (.io reason)))
  /-- `WorkerState`, the event channel and the event processor exist. -/
  | prepared {state} (id : Fin workers) (here : state.stage id = .preparing) :
      Step state (.worker id) (state.move id .reporting)
  | panicked {state} (id : Fin workers) (here : (state.stage id).unreported = true) :
      Step state (.worker id) (state.move id .leaving)
  | reportedSuccess {state} (id : Fin workers) (here : state.stage id = .reporting) :
      Step state (.worker id) { state.move id .releasing with ready := state.ready.send (id, .ok ()) }
  | reportedFailure {state} (id : Fin workers) {error} (here : state.stage id = .failing error) :
      Step state (.worker id) { state.move id .quitting with ready := state.ready.send (id, .error error) }
  | released {state} (id : Fin workers) (here : state.stage id = .releasing) :
      Step state (.worker id) (state.move id .awaiting)
  | quit {state} (id : Fin workers) (here : state.stage id = .quitting) :
      Step state (.worker id) (state.move id .leaving)
  | passed {state} (id : Fin workers) {go} (here : state.stage id = .awaiting)
      (received : (state.go id).recv = some (true, go)) :
      Step state (.worker id) { state.move id .live with go := Function.update state.go id go }
  | turnedBack {state} (id : Fin workers) {go} (here : state.stage id = .awaiting)
      (received : (state.go id).recv = some (false, go)) :
      Step state (.worker id) { state.move id .leaving with go := Function.update state.go id go }
  /-- The go-senders went away with `start_with_callback`. -/
  | orphaned {state} (id : Fin workers) {result} (here : state.stage id = .awaiting)
      (returned : state.main = .returned result) (drained : (state.go id).queue = []) :
      Step state (.worker id) (state.move id .leaving)
  /-- The exit guard finds its flag unarmed. -/
  | finished {state} (id : Fin workers) (here : state.stage id = .leaving) :
      Step state (.worker id) (state.move id .finished)

end Startup
end UringMqtt

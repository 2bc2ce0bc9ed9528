import UringMqtt.Broker.Runtime

/-! A worker behind the go barrier: `run_worker`, `process_events` and `WorkerState`
in `src/broker/worker.rs`. The accept loop, the shutdown watcher, the session tasks
and the event processor share one thread, so a step is what one task does between
two suspensions. What a session says of itself in between is left to its own
automaton. A panic unwinds the thread and is no step. -/

namespace UringMqtt

/-- An event on its way to the callback. The connection and the number of the offer
are not part of it; they tell events apart. -/
structure Delivery where
  connection : Nat
  ticket : Nat
  publish : Publish
deriving DecidableEq

structure Clients (σ : Type) where
  start : Nat → σ
  step : Nat → σ → Observation → σ → Prop

/-- A PUBLISH whose `admit_with` is suspended on a slot. -/
structure HeldPublish where
  publish : CodecPublish
  ticket : Nat
  replyBy : Nat

/-- Until it has ended a session task owns a clone of `event_tx` and one of `done_tx`. -/
inductive SessionStatus where
  | free
  | holding (held : HeldPublish)
  | ended

structure SessionTask (σ : Type) where
  state : σ
  status : SessionStatus

def SessionTask.live {σ : Type} (self : SessionTask σ) : Bool :=
  match self.status with
  | .ended => false
  | _ => true

inductive RunStage where
  | accepting
  | backingOff
  | draining
  | forced
  | finishing
  | returned
deriving DecidableEq

namespace RunStage

/-- The master `done_tx` is dropped when the accept loop is left. -/
def ownsDone : RunStage → Bool
  | accepting | backingOff => true
  | _ => false

/-- The master `event_tx` is dropped behind the drain. -/
def ownsEvents : RunStage → Bool
  | accepting | backingOff | draining | forced => true
  | _ => false

end RunStage

structure WorkerRun (sync : LocalSync) (σ : Type) where
  stage : RunStage
  shutdownRequested : Bool
  abortClosed : Bool
  activeConnections : Nat
  sessions : List (SessionTask σ)
  channel : EventChannel sync Delivery
  nextTicket : Nat
  processorEnded : Bool

inductive Happening where
  | main
  | signalled
  | observed (connection : Nat) (observation : Observation)
  | offered (delivery : Delivery) (admitting : Admitting)
  | polled (delivery : Delivery) (admitting : Admitting)
  | expired (delivery : Delivery) (admission : Admission)
  | sessionEnded (connection : Nat)
  | delivered (delivery : Delivery)
  | processorEnded

def Observation.ofAdmission : Observation → Bool
  | .offered .. | .admitted .. => true
  | _ => false

namespace WorkerRun
variable {sync : LocalSync} {σ : Type}

def initial (sync : LocalSync) (σ : Type) (dropped : Nat) : WorkerRun sync σ where
  stage := .accepting
  shutdownRequested := false
  abortClosed := false
  activeConnections := 0
  sessions := []
  channel := .new sync Delivery dropped
  nextTicket := 0
  processorEnded := false

def tryAcquire (self : WorkerRun sync σ) (maxConnections : Nat) : Option (WorkerRun sync σ) :=
  if self.activeConnections ≥ maxConnections then none
  else some { self with activeConnections := self.activeConnections + 1 }

def release (self : WorkerRun sync σ) : WorkerRun sync σ :=
  { self with activeConnections := self.activeConnections - 1 }

/-- Every clone of `done_tx` is gone: `done_rx.recv()` returns `None`. -/
def doneDisconnected (self : WorkerRun sync σ) : Bool :=
  !self.stage.ownsDone && self.sessions.all fun task => !task.live

def eventsDisconnected (self : WorkerRun sync σ) : Bool :=
  !self.stage.ownsEvents && self.sessions.all fun task => !task.live

def dropHandler (channel : EventChannel sync Delivery) : SessionStatus → Lib.Semaphore.Drop × EventChannel sync Delivery
  | .holding held => channel.abandon held.ticket
  | _ => (.quiet, channel)

def delivery (connection : Nat) (publish : CodecPublish) (ticket : Nat) : Delivery :=
  ⟨connection, ticket, .fromCodec publish⟩

variable (clients : Clients σ) (maxConnections : Nat)

inductive Step : WorkerRun sync σ → Happening → WorkerRun sync σ → Prop
  | accepted {run after} (here : run.stage = .accepting) (running : run.shutdownRequested = false)
      (acquired : run.tryAcquire maxConnections = some after) :
      Step run .main { after with sessions := run.sessions ++ [⟨clients.start run.sessions.length, .free⟩] }
  | rejected {run} (here : run.stage = .accepting) (running : run.shutdownRequested = false)
      (full : run.tryAcquire maxConnections = none) : Step run .main run
  | acceptFailed {run} (here : run.stage = .accepting) (running : run.shutdownRequested = false) :
      Step run .main { run with stage := .backingOff }
  | retries {run} (here : run.stage = .backingOff) : Step run .main { run with stage := .accepting }
  /-- An accept that returns behind the signal, with a stream or cancelled: the listener
  and the master `done_tx` are dropped. -/
  | stops {run} (here : run.stage = .accepting) (requested : run.shutdownRequested = true) :
      Step run .main { run with stage := .draining }
  | drained {run} (here : run.stage = .draining ∨ run.stage = .forced) (gone : run.doneDisconnected = true) :
      Step run .main { run with stage := .finishing }
  | deadline {run} (here : run.stage = .draining) :
      Step run .main { run with stage := .forced, abortClosed := true }
  | returns {run} (here : run.stage = .finishing) (ended : run.processorEnded = true) :
      Step run .main { run with stage := .returned }
  | signalled {run} : Step run .signalled { run with shutdownRequested := true }
  | observed {run} (earlier later : List (SessionTask σ)) {state status next observation}
      (here : run.sessions = earlier ++ ⟨state, status⟩ :: later) (live : (SessionTask.mk state status).live = true)
      (other : observation.ofAdmission = false) (moved : clients.step earlier.length state observation next) :
      Step run (.observed earlier.length observation) { run with sessions := earlier ++ ⟨next, status⟩ :: later }
  /-- `admit_with` returns from its first poll. -/
  | offered {run} (earlier later : List (SessionTask σ)) {state middle next publish idleWait admission ledger channel}
      (wait replyBy now polled : Nat) (here : run.sessions = earlier ++ ⟨state, .free⟩ :: later)
      (decided : clients.step earlier.length state (.offered publish idleWait) middle)
      (ran : run.channel.admitWith run.nextTicket (delivery earlier.length publish run.nextTicket) wait replyBy now polled =
        (.done admission, channel))
      (moved : clients.step earlier.length middle (.admitted publish admission ledger) next) :
      Step run (.offered (delivery earlier.length publish run.nextTicket) (.done admission))
        { run with
          sessions := earlier ++ ⟨next, .free⟩ :: later, channel, nextTicket := run.nextTicket + 1 }
  /-- `admit_with` is suspended by its first poll. -/
  | held {run} (earlier later : List (SessionTask σ)) {state next publish idleWait channel}
      (wait replyBy now polled : Nat) (here : run.sessions = earlier ++ ⟨state, .free⟩ :: later)
      (decided : clients.step earlier.length state (.offered publish idleWait) next)
      (ran : run.channel.admitWith run.nextTicket (delivery earlier.length publish run.nextTicket) wait replyBy now polled =
        (.holding, channel)) :
      Step run (.offered (delivery earlier.length publish run.nextTicket) .holding)
        { run with
          sessions := earlier ++ ⟨next, .holding ⟨publish, run.nextTicket, replyBy⟩⟩ :: later
          channel, nextTicket := run.nextTicket + 1 }
  | resumed {run} (earlier later : List (SessionTask σ)) {state next held admission ledger channel} (now : Nat)
      (here : run.sessions = earlier ++ ⟨state, .holding held⟩ :: later)
      (ran : run.channel.admitPoll held.ticket (delivery earlier.length held.publish held.ticket) held.replyBy now =
        (.done admission, channel))
      (moved : clients.step earlier.length state (.admitted held.publish admission ledger) next) :
      Step run (.polled (delivery earlier.length held.publish held.ticket) (.done admission))
        { run with sessions := earlier ++ ⟨next, .free⟩ :: later, channel }
  | waits {run} (earlier later : List (SessionTask σ)) {state held channel} (now : Nat)
      (here : run.sessions = earlier ++ ⟨state, .holding held⟩ :: later)
      (ran : run.channel.admitPoll held.ticket (delivery earlier.length held.publish held.ticket) held.replyBy now =
        (.holding, channel)) :
      Step run (.polled (delivery earlier.length held.publish held.ticket) .holding) { run with channel }
  | expired {run} (earlier later : List (SessionTask σ)) {state next held admission ledger channel}
      (here : run.sessions = earlier ++ ⟨state, .holding held⟩ :: later)
      (ran : run.channel.admitExpire held.ticket = (.done admission, channel))
      (moved : clients.step earlier.length state (.admitted held.publish admission ledger) next) :
      Step run (.expired (delivery earlier.length held.publish held.ticket) admission)
        { run with sessions := earlier ++ ⟨next, .free⟩ :: later, channel }
  /-- `handle_client` returned. -/
  | sessionReturned {run} (earlier later : List (SessionTask σ)) {state}
      (here : run.sessions = earlier ++ ⟨state, .free⟩ :: later) :
      Step run (.sessionEnded earlier.length)
        { run.release with sessions := earlier ++ ⟨state, .ended⟩ :: later }
  /-- The abort semaphore is closed, and `select` drops the handler. -/
  | sessionAborted {run} (earlier later : List (SessionTask σ)) {state status channel}
      (here : run.sessions = earlier ++ ⟨state, status⟩ :: later) (live : (SessionTask.mk state status).live = true)
      (closed : run.abortClosed = true) (ran : dropHandler run.channel status = (.quiet, channel)) :
      Step run (.sessionEnded earlier.length)
        { run.release with sessions := earlier ++ ⟨state, .ended⟩ :: later, channel }
  /-- The processor receives an event and calls back. -/
  | delivered {run event channel} (running : run.processorEnded = false)
      (ran : run.channel.recv = (some event, channel)) : Step run (.delivered event) { run with channel }
  | processorEnded {run} (running : run.processorEnded = false) (empty : run.channel.queue = [])
      (gone : run.eventsDisconnected = true) :
      Step run .processorEnded { run with processorEnded := true, channel := run.channel.closeReceiver }

end WorkerRun
end UringMqtt

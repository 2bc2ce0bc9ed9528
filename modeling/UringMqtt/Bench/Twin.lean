import UringMqtt.Broker.Handler
import UringMqtt.Broker.WorkerLoop

/-! A worker of the comparison server behind its startup report: `worker_main`,
`note_session_result`, `process_events` and `WorkerState` in `bench/src/twin.rs`. The main
task, the session tasks and the event processor share one thread, so a step is what one of
them does between two suspensions. What a session says to its client is left open. -/

namespace UringMqtt

/-- A failure of the transport is named by its errno. -/
def connectionReset : Nat := 104

def brokenPipe : Nat := 32

def Error.isRoutineDisconnect : Error → Bool
  | .timeout | .clientClosed => true
  | .io (.transport kind) => kind == connectionReset || kind == brokenPipe
  | .io _ | .protocol _ => false

/-- The `Display` of `Error`; the text of an I/O error is the library's. -/
def Error.display (ioText : IoError → String) : Error → String
  | .io error => "I/O error: " ++ ioText error
  | .timeout => "Connection timeout"
  | .clientClosed => "Client closed connection during handshake"
  | .protocol message => "Protocol error: " ++ message

namespace Bench

/-- How a session task ends: it returns, it panics, or `abort_all` cancels it. -/
inductive SessionExit where
  | returned (outcome : Except Error SessionOutcome)
  | panicked (error : String)
  | cancelled

/-- How the processor task ends; the last case is any other `JoinError`. -/
inductive ProcessorExit where
  | finished
  | panicked (error : String)
  | cancelled (error : String)
deriving DecidableEq

/-- A session task that has not ended. It owns a clone of `event_tx`. -/
structure TwinSession where
  id : Nat
  peer : String
  held : Option HeldPublish

/-- A session task that has ended, as the `JoinSet` hands it out. -/
structure Joined where
  id : Nat
  peer : String
  exit : SessionExit

inductive TwinStage where
  | accepting
  | backingOff
  | draining
  | aborting
  | finishing
  | returned (result : Except String Unit)

def TwinStage.ownsEvents : TwinStage → Bool
  | accepting | backingOff | draining | aborting => true
  | finishing | returned _ => false

/-- The `JoinSet` is `sessions` and `ended` together. -/
structure TwinWorker (sync : LocalSync) where
  stage : TwinStage
  shutdown : Bool
  active : Nat
  sessions : List TwinSession
  ended : List Joined
  nextId : Nat
  channel : EventChannel sync Delivery
  nextTicket : Nat
  processor : Option ProcessorExit
  processorJoined : Bool
  failure : Option String
  sessionFailure : Option String
  acceptFailure : Option String

inductive AcceptResult where
  | stream (peer : String) (nodelayError : Option String)
  | error (error : String)

inductive AcceptEffect where
  | served (id : Nat)
  | turnedAway
  | failed
  | stopped
deriving DecidableEq

inductive TwinHappening where
  | main
  | signalled
  | accepted (reaped : List Joined) (effect : AcceptEffect)
  | joined (session : Joined)
  | exited (session : Joined)
  | offered (delivery : Delivery) (admitting : Admitting)
  | polled (delivery : Delivery) (admitting : Admitting)
  | expired (delivery : Delivery) (admission : Admission)
  | delivered (delivery : Delivery)
  | processorEnded (exit : ProcessorExit)

def sessionReport (ioText : IoError → String) (peer : String) : Except Error SessionOutcome → Option String
  | .ok .served => none
  | .ok .refused => some s!"session {peer}: connect refused"
  | .ok .violation => some s!"session {peer}: protocol violation"
  | .error error =>
    if error.isTruncatedPacket then none
    else if error.isRoutineDisconnect then none
    else some s!"session {peer}: {error.display ioText}"

namespace TwinWorker
variable {sync : LocalSync}

def initial (sync : LocalSync) (dropped : Nat) (shutdown : Bool) : TwinWorker sync where
  stage := .accepting
  shutdown
  active := 0
  sessions := []
  ended := []
  nextId := 0
  channel := .new sync Delivery dropped
  nextTicket := 0
  processor := none
  processorJoined := false
  failure := none
  sessionFailure := none
  acceptFailure := none

variable (ioText : IoError → String) (limit : Nat)

def noteSessionResult (self : TwinWorker sync) (joined : Joined) : TwinWorker sync :=
  match joined.exit with
  | .returned outcome =>
    match sessionReport ioText joined.peer outcome with
    | some error => { self with sessionFailure := self.sessionFailure.or (some error) }
    | none => self
  | .panicked error =>
    { self with failure := self.failure.or (some s!"session panicked: {error}"), shutdown := true }
  | .cancelled => self

/-- The body of each of the three join loops. -/
def join (self : TwinWorker sync) (joined : Joined) : TwinWorker sync :=
  noteSessionResult ioText { self with active := if self.active > 0 then self.active - 1 else self.active } joined

def noteAcceptFailure (self : TwinWorker sync) (cause : String) : TwinWorker sync :=
  { self with acceptFailure := self.acceptFailure.or (some cause) }

def serve (self : TwinWorker sync) : AcceptResult → AcceptEffect × TwinWorker sync
  | .stream peer nodelayError =>
    if self.active ≥ limit then
      (.turnedAway, self.noteAcceptFailure s!"accept {peer}: connection limit {limit} reached")
    else match nodelayError with
      | some error => (.turnedAway, self.noteAcceptFailure s!"accept {peer}: set_nodelay: {error}")
      | none =>
        (.served self.nextId,
          { self with
            active := self.active + 1, sessions := self.sessions ++ [⟨self.nextId, peer, none⟩]
            nextId := self.nextId + 1 })
  | .error error =>
    if self.shutdown then (.stopped, { self with stage := .draining })
    else (.failed, { self.noteAcceptFailure s!"accept: {error}" with stage := .backingOff })

def accept (self : TwinWorker sync) (reaped : List Joined) (result : AcceptResult) : AcceptEffect × TwinWorker sync :=
  let joined := reaped.foldl (join ioText) { self with ended := [] }
  if joined.failure.isSome then (.stopped, { joined with stage := .draining })
  else joined.serve limit result

def processorEndedEarly (self : TwinWorker sync) (exit : ProcessorExit) : TwinWorker sync :=
  let failure := match exit with
    | .finished => "event processor ended"
    | .panicked error => s!"event processor panicked: {error}"
    | .cancelled error => s!"event processor ended: {error}"
  { self with processorJoined := true, failure := some failure, shutdown := true, stage := .draining }

/-- Behind the drain: `abort_all` if it ran out of time or something failed. -/
def afterDrain (self : TwinWorker sync) (expired : Bool) : TwinWorker sync :=
  { self with stage := if expired || self.failure.isSome then .aborting else .finishing }

def consumeProcessor (self : TwinWorker sync) (exit : ProcessorExit) : TwinWorker sync :=
  if self.processorJoined then self
  else match exit with
    | .finished => self
    | .panicked error =>
      { self with failure := self.failure.or (some s!"event processor panicked: {error}"), shutdown := true }
    | .cancelled error => { self with failure := self.failure.or (some s!"event processor ended: {error}") }

def verdict (self : TwinWorker sync) : Except String Unit :=
  match self.failure.or (self.acceptFailure.or self.sessionFailure) with
  | none => .ok ()
  | some error => .error error

def dropHeld (channel : EventChannel sync Delivery) : Option HeldPublish → Lib.Semaphore.Drop × EventChannel sync Delivery
  | some held => channel.abandon held.ticket
  | none => (.quiet, channel)

def delivery (session : TwinSession) (publish : CodecPublish) (ticket : Nat) : Delivery :=
  ⟨session.id, ticket, .fromCodec publish⟩

/-- What `admit_with` keeps while it is suspended. -/
def holds (held : HeldPublish) : Admitting → Option HeldPublish
  | .holding => some held
  | .done _ | .panicked => none

inductive Step : TwinWorker sync → TwinHappening → TwinWorker sync → Prop
  | stops {run} (here : run.stage = .accepting) (requested : run.shutdown = true) :
      Step run .main { run with stage := .draining }
  | processorSeen {run exit} (here : run.stage = .accepting) (ended : run.processor = some exit) :
      Step run .main (run.processorEndedEarly exit)
  /-- Another thread may raise the flag behind the poll of its branch, so this one does
  not ask for it. `try_join_next` hands out every ended session, in some order. -/
  | accepts {run} (reaped : List Joined) (result : AcceptResult) (here : run.stage = .accepting)
      (all : reaped.Perm run.ended) :
      Step run (.accepted reaped (run.accept ioText limit reaped result).1) (run.accept ioText limit reaped result).2
  | retries {run} (here : run.stage = .backingOff) : Step run .main { run with stage := .accepting }
  | joins {run} (earlier later : List Joined) {session : Joined} (here : run.stage = .draining ∨ run.stage = .aborting)
      (ended : run.ended = earlier ++ session :: later) :
      Step run (.joined session) (join ioText { run with ended := earlier ++ later } session)
  | drained {run} (here : run.stage = .draining) (idle : run.sessions = []) (reaped : run.ended = []) :
      Step run .main (run.afterDrain false)
  | drainExpires {run} (here : run.stage = .draining) : Step run .main (run.afterDrain true)
  | aborted {run} (here : run.stage = .aborting) (idle : run.sessions = []) (reaped : run.ended = []) :
      Step run .main { run with stage := .finishing }
  | returns {run exit} (here : run.stage = .finishing) (ended : run.processor = some exit) :
      Step run .main { run.consumeProcessor exit with stage := .returned (run.consumeProcessor exit).verdict }
  | signalled {run} : Step run .signalled { run with shutdown := true }
  /-- The task catches a panic, also one in the drop of its handler. -/
  | exits {run} (earlier later : List TwinSession) {session : TwinSession} {exit : SessionExit}
      {dropping : Lib.Semaphore.Drop} {channel : EventChannel sync Delivery} (here : run.sessions = earlier ++ session :: later)
      (returning : ∀ outcome, exit = .returned outcome → session.held = none)
      (cancelling : exit = .cancelled → run.stage = .aborting) (ran : dropHeld run.channel session.held = (dropping, channel))
      (unwinding : dropping = .panicked → ∃ error, exit = .panicked error) :
      Step run (.exited ⟨session.id, session.peer, exit⟩)
        { run with sessions := earlier ++ later, ended := run.ended ++ [⟨session.id, session.peer, exit⟩], channel }
  /-- `admit_with` panics in a poll. -/
  | panics {run} (earlier later : List TwinSession) {session : TwinSession} {held : HeldPublish} {error : String}
      {channel : EventChannel sync Delivery} (now : Nat) (here : run.sessions = earlier ++ session :: later)
      (waits : session.held = some held)
      (ran : run.channel.admitPoll held.ticket (delivery session held.publish held.ticket) held.replyBy now =
          (.panicked, channel) ∨ run.channel.admitExpire held.ticket = (.panicked, channel)) :
      Step run (.exited ⟨session.id, session.peer, .panicked error⟩)
        { run with
          sessions := earlier ++ later, ended := run.ended ++ [⟨session.id, session.peer, .panicked error⟩], channel }
  /-- `admit_with` up to its return or its suspension. -/
  | offers {run} (earlier later : List TwinSession) {session : TwinSession} {publish : CodecPublish}
      {admitting : Admitting} {channel : EventChannel sync Delivery} (wait replyBy now polled : Nat)
      (here : run.sessions = earlier ++ session :: later) (free : session.held = none)
      (ran : run.channel.admitWith run.nextTicket (delivery session publish run.nextTicket) wait replyBy now polled =
        (admitting, channel)) (returned : admitting ≠ .panicked) :
      Step run (.offered (delivery session publish run.nextTicket) admitting)
        { run with
          sessions := earlier ++ { session with held := holds ⟨publish, run.nextTicket, replyBy⟩ admitting } :: later
          channel, nextTicket := run.nextTicket + 1 }
  | polls {run} (earlier later : List TwinSession) {session : TwinSession} {held : HeldPublish}
      {admitting : Admitting} {channel : EventChannel sync Delivery} (now : Nat)
      (here : run.sessions = earlier ++ session :: later) (waits : session.held = some held)
      (ran : run.channel.admitPoll held.ticket (delivery session held.publish held.ticket) held.replyBy now =
        (admitting, channel)) (returned : admitting ≠ .panicked) :
      Step run (.polled (delivery session held.publish held.ticket) admitting)
        { run with sessions := earlier ++ { session with held := holds held admitting } :: later, channel }
  | expires {run} (earlier later : List TwinSession) {session : TwinSession} {held : HeldPublish}
      {admission : Admission} {channel : EventChannel sync Delivery}
      (here : run.sessions = earlier ++ session :: later) (waits : session.held = some held)
      (ran : run.channel.admitExpire held.ticket = (.done admission, channel)) :
      Step run (.expired (delivery session held.publish held.ticket) admission)
        { run with sessions := earlier ++ { session with held := none } :: later, channel }
  /-- The processor receives an event and calls back. -/
  | delivers {run} {event : Delivery} {channel : EventChannel sync Delivery} (running : run.processor = none)
      (ran : run.channel.recv = (some event, channel)) : Step run (.delivered event) { run with channel }
  /-- The callback panicked, or the task was cancelled. -/
  | processorFails {run} {exit : ProcessorExit} (running : run.processor = none) (failed : exit ≠ .finished) :
      Step run (.processorEnded exit) { run with processor := some exit, channel := run.channel.closeReceiver }
  /-- Every `event_tx` is gone and the queue is empty. -/
  | processorFinishes {run} (running : run.processor = none) (empty : run.channel.queue = [])
      (dropped : run.stage.ownsEvents = false) (idle : run.sessions = []) :
      Step run (.processorEnded .finished)
        { run with processor := some .finished, channel := run.channel.closeReceiver }

end TwinWorker
end Bench
end UringMqtt

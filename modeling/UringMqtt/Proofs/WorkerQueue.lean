import UringMqtt.Broker.WorkerLoop
import UringMqtt.Lib.Runs
import UringMqtt.Proofs.Segments

/-! The event queue of a worker over whole runs: what the sessions enqueued is what
the processor received, followed by what is still queued. -/

namespace UringMqtt.Proofs.WorkerQueue
open Lib WorkerRun Segments

def placed : Admission → Bool
  | .enqueued | .enqueuedAfterHold => true
  | .dropped | .receiverClosed | .noReplyTime => false

/-! ### What the channel's operations queue -/

section
variable {sync : LocalSync} {Event : Type}

def queuedBy (event : Event) : Admitting → List Event
  | .done admission => if placed admission then [event] else []
  | .holding | .panicked => []

theorem queuedBy_returning (event : Event) {admission : Admission} (kept : placed admission = false)
    (dropping : Semaphore.Drop) : queuedBy event (.returning admission dropping) = [] := by
  cases dropping <;> simp [Admitting.returning, queuedBy, kept]

variable {channel after : EventChannel sync Event} {ticket replyBy now : Nat} {event : Event} {admitting : Admitting}

theorem polled_queue (polled : Polled channel ticket event replyBy now admitting after) :
    after.queue = channel.queue ++ queuedBy event admitting := by
  cases polled with
  | late | gone | placed | pending => simp [queuedBy, placed]
  | closed => rw [queuedBy_returning event rfl, List.append_nil]

theorem admitPoll_queue (ran : channel.admitPoll ticket event replyBy now = (admitting, after)) :
    after.queue = channel.queue ++ queuedBy event admitting := polled_queue (admitPoll_polled ran)

theorem admitWith_queue {wait later : Nat} (ran : channel.admitWith ticket event wait replyBy now later = (admitting, after)) :
    after.queue = channel.queue ++ queuedBy event admitting := by
  cases admitWith_offered ran with
  | late | gone | placed | full => simp [EventChannel.noteDropped, queuedBy, placed]
  | waits _ _ _ polled => exact polled_queue polled

theorem queue_abandon (channel : EventChannel sync Event) (ticket : Nat) :
    (channel.abandon ticket).2.queue = channel.queue := by
  unfold EventChannel.abandon
  split <;> rfl

theorem admitExpire_queue (event : Event) (ran : channel.admitExpire ticket = (admitting, after)) :
    after.queue = channel.queue ++ queuedBy event admitting := by
  cases ran
  rw [queuedBy_returning event rfl, List.append_nil]
  exact queue_abandon channel ticket

end

/-! ### Whole runs -/

def enqueuedBy : Happening → List Delivery
  | .offered delivery admitting | .polled delivery admitting => queuedBy delivery admitting
  | .expired delivery admission => queuedBy delivery (.done admission)
  | _ => []

def deliveredBy : Happening → List Delivery
  | .delivered delivery => [delivery]
  | _ => []

def enqueued (seen : List Happening) : List Delivery := seen.flatMap enqueuedBy

def delivered (seen : List Happening) : List Delivery := seen.flatMap deliveredBy

variable {sync : LocalSync} {σ : Type} {clients : Clients σ} {maxConnections : Nat}
  {run after : WorkerRun sync σ}

private theorem dropHandler_queue {channel after : EventChannel sync Delivery} {status : SessionStatus} {dropping : Semaphore.Drop}
    (ran : dropHandler channel status = (dropping, after)) : after.queue = channel.queue := by
  cases status with
  | holding held =>
    have kept := queue_abandon channel held.ticket
    rwa [show channel.abandon held.ticket = _ from ran] at kept
  | _ => cases ran; rfl

/-- Step: an event joins the queue at its end, or leaves it at its front. -/
private theorem queue_step {happening : Happening} (moved : Step clients maxConnections run happening after) :
    run.channel.queue ++ enqueuedBy happening = deliveredBy happening ++ after.channel.queue := by
  cases moved with
  | accepted here running acquired =>
    unfold tryAcquire at acquired
    split at acquired
    · cases acquired
    · cases acquired
      simp [enqueuedBy, deliveredBy]
  | offered earlier later wait replyBy now polled here decided ran moved => exact (admitWith_queue ran).symm
  | held earlier later wait replyBy now polled here decided ran => exact (admitWith_queue ran).symm
  | resumed earlier later now here ran moved => exact (admitPoll_queue ran).symm
  | waits earlier later now here ran => exact (admitPoll_queue ran).symm
  | expired earlier later here ran moved => exact (admitExpire_queue _ ran).symm
  | sessionAborted earlier later here live closed ran =>
    simp [enqueuedBy, deliveredBy, dropHandler_queue ran]
  | delivered running ran =>
    unfold EventChannel.recv at ran
    split at ran
    · cases ran
    next queued =>
      cases ran
      simp [enqueuedBy, deliveredBy, queued]
  | _ => simp [enqueuedBy, deliveredBy, release, EventChannel.closeReceiver]

/-- Run: the callback's events and the queue are what was enqueued, in order. -/
theorem delivered_queue {dropped : Nat} {seen : List Happening}
    (ran : Runs (Step clients maxConnections) (WorkerRun.initial sync σ dropped) seen run) :
    delivered seen ++ run.channel.queue = enqueued seen := by
  have steps (state : WorkerRun sync σ) happening after (moved : Step clients maxConnections state happening after) := queue_step moved
  exact (ran.queue steps).symm

end UringMqtt.Proofs.WorkerQueue

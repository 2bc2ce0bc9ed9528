import UringMqtt.Lib.Semaphore

/-! The worker's event channel, `src/broker/worker.rs`: a bounded facade over an
unbounded queue. A semaphore keeps one permit per free slot; an offer takes a
slot at once, waits for one, or is counted as dropped. -/

namespace UringMqtt
open Lib

/-- local-sync's semaphore as the channel uses it. The crate is not part of the
repository, so it is a parameter. A ticket names one `acquire` future; a permit
that was collected is held by the caller until it is forgotten or dropped. -/
structure LocalSync where
  Room : Type
  new : Nat → Room
  availablePermits : Room → Nat
  tryAcquire : Room → Option Room
  poll : Room → Nat → Semaphore.Poll × Room
  dropAcquire : Room → Nat → Semaphore.Drop × Room
  dropPermit : Room → Room
  addPermits : Room → Room
  close : Room → Room

/-- What local-sync 0.1.1 does: acquire is first in, first out, a dropped permit is
returned, a forgotten one is not, and a permit that comes back goes to the first
waiter. A closed semaphore answers every poll with its error, and dropping an acquire
that owns an uncollected permit panics. -/
structure LocalSync.Lawful (sync : LocalSync) (view : sync.Room → Semaphore Nat) : Prop where
  new : ∀ permits, view (sync.new permits) = .new permits
  availablePermits : ∀ room, sync.availablePermits room = (view room).available
  tryAcquire : ∀ room, (sync.tryAcquire room).map view = (view room).tryAcquire
  poll : ∀ room ticket, ((sync.poll room ticket).1, view (sync.poll room ticket).2) = (view room).poll ticket
  dropAcquire : ∀ room ticket,
    ((sync.dropAcquire room ticket).1, view (sync.dropAcquire room ticket).2) = (view room).dropAcquire ticket
  dropPermit : ∀ room, view (sync.dropPermit room) = (view room).addPermit
  addPermits : ∀ room, view (sync.addPermits room) = (view room).addPermit
  close : ∀ room, view (sync.close room) = (view room).close

def LocalSync.fifo : LocalSync where
  Room := Semaphore Nat
  new := .new
  availablePermits room := room.available
  tryAcquire := Semaphore.tryAcquire
  poll := Semaphore.poll
  dropAcquire := Semaphore.dropAcquire
  dropPermit := .addPermit
  addPermits := .addPermit
  close := .close

theorem LocalSync.fifo_lawful : LocalSync.fifo.Lawful id where
  new _ := rfl
  availablePermits _ := rfl
  tryAcquire _ := Option.map_id_apply
  poll _ _ := rfl
  dropAcquire _ _ := rfl
  dropPermit _ := rfl
  addPermits _ := rfl
  close _ := rfl

namespace LocalSync.Lawful
variable {sync : LocalSync} {view : sync.Room → Semaphore Nat} {room : sync.Room} {ticket : Nat}

theorem poll_of_closed (lawful : sync.Lawful view) (closed : (view room).closed = true) (ticket : Nat) :
    ∃ after, sync.poll room ticket = (.closed, after) ∧ view after = view room := by
  have law := lawful.poll room ticket
  rw [Semaphore.poll, if_pos closed, Prod.mk.injEq] at law
  exact ⟨_, Prod.ext law.1 rfl, law.2⟩

theorem dropAcquire_quiet (lawful : sync.Lawful view) (notGranted : ticket ∉ (view room).granted) :
    ∃ after, sync.dropAcquire room ticket = (.quiet, after) ∧ view after = (view room).forgetWaiter ticket := by
  have law := lawful.dropAcquire room ticket
  rw [Semaphore.dropAcquire_quiet notGranted, Prod.mk.injEq] at law
  exact ⟨_, Prod.ext law.1 rfl, law.2⟩

end LocalSync.Lawful

inductive Admission where
  | enqueued
  | enqueuedAfterHold
  | dropped
  | receiverClosed
  | noReplyTime
deriving DecidableEq, Repr

def eventChannelCapacity : Nat := 1024

structure EventChannel (sync : LocalSync) (Event : Type) where
  queue : List Event
  txClosed : Bool
  depth : Nat
  dropped : Nat
  room : sync.Room

inductive Admitting where
  | done (admission : Admission)
  | holding
  | panicked
deriving DecidableEq, Repr

/-- `admit_with` returns once its wait is dropped. -/
def Admitting.returning (admission : Admission) : Semaphore.Drop → Admitting
  | .quiet => .done admission
  | .panicked => .panicked

namespace EventChannel
variable {sync : LocalSync} {Event : Type}

/-- `event_channel`; the drop counter is the caller's. -/
def new (sync : LocalSync) (Event : Type) (dropped : Nat) : EventChannel sync Event where
  queue := []
  txClosed := false
  depth := 0
  dropped
  room := sync.new eventChannelCapacity

def noteDropped (self : EventChannel sync Event) : EventChannel sync Event :=
  { self with dropped := self.dropped + 1 }

def wouldHold (self : EventChannel sync Event) : Bool :=
  !self.txClosed && sync.availablePermits self.room == 0

def enqueue (self : EventChannel sync Event) (event : Event) (admitted : Admission) :
    Admission × EventChannel sync Event :=
  if self.txClosed then (.receiverClosed, { self with room := sync.addPermits self.room })
  else (admitted, { self with queue := self.queue ++ [event], depth := self.depth + 1 })

def offerNow (self : EventChannel sync Event) (event : Event) : Option Admission × EventChannel sync Event :=
  if self.txClosed then (some .receiverClosed, self)
  else match sync.tryAcquire self.room with
    | some room =>
      let (admission, after) := { self with room }.enqueue event .enqueued
      (some admission, after)
    | none => (none, self)

/-- `SlotWait::drop` of a wait that has not returned: poll once more, give back a
slot granted since the last poll, and count the publish; then its acquire drops. -/
def abandon (self : EventChannel sync Event) (ticket : Nat) : Semaphore.Drop × EventChannel sync Event :=
  match sync.poll self.room ticket with
  | (.acquired, room) => (.quiet, { self with room := sync.dropPermit room }.noteDropped)
  | (.closed, room) | (.pending, room) =>
    let (dropping, room) := sync.dropAcquire room ticket
    (dropping, { self with room }.noteDropped)

/-- One poll of the slot wait inside `T::timeout`. -/
def admitPoll (self : EventChannel sync Event) (ticket : Nat) (event : Event) (replyBy now : Nat) :
    Admitting × EventChannel sync Event :=
  match sync.poll self.room ticket with
  | (.acquired, room) =>
    if now ≥ replyBy then
      -- The permit drops, then the unsettled `SlotWait` counts the publish.
      (.done .noReplyTime, { self with room := sync.dropPermit room }.noteDropped)
    else
      let (admission, after) := { self with room }.enqueue event .enqueuedAfterHold
      (.done admission, after)
  | (.closed, room) =>
    -- The wait is settled, but its acquire is still queued.
    let (dropping, room) := sync.dropAcquire room ticket
    (.returning .receiverClosed dropping, { self with room })
  | (.pending, room) => (.holding, { self with room })

/-- `admit_with` up to its first suspension. `now` and `later` are its two
readings of the clock. -/
def admitWith (self : EventChannel sync Event) (ticket : Nat) (event : Event) (wait replyBy now later : Nat) :
    Admitting × EventChannel sync Event :=
  if now ≥ replyBy ∧ !self.txClosed then (.done .noReplyTime, self.noteDropped)
  else match self.offerNow event with
    | (some admission, after) => (.done admission, after)
    | (none, after) =>
      if wait = 0 then (.done .dropped, after.noteDropped)
      else after.admitPoll ticket event replyBy later

/-- The wait's timer ran out: `T::timeout` is an error and the wait is abandoned. -/
def admitExpire (self : EventChannel sync Event) (ticket : Nat) : Admitting × EventChannel sync Event :=
  let (dropping, after) := self.abandon ticket
  (.returning .dropped dropping, after)

theorem admitExpire_dropped {self : EventChannel sync Event} {ticket : Nat} {admission : Admission}
    (ended : (self.admitExpire ticket).1 = .done admission) : admission = .dropped := by
  rcases abandoned : self.abandon ticket with ⟨_ | _, after⟩ <;> rw [admitExpire, abandoned] at ended <;> cases ended
  rfl

def recv (self : EventChannel sync Event) : Option Event × EventChannel sync Event :=
  match self.queue with
  | [] => (none, self)
  | event :: queue =>
    (some event, { self with queue, depth := self.depth - 1, room := sync.addPermits self.room })

/-- `EventReceiver::drop`: the channel first, then the slots. -/
def closeReceiver (self : EventChannel sync Event) : EventChannel sync Event :=
  { self with txClosed := true, room := sync.close self.room }

end EventChannel
end UringMqtt

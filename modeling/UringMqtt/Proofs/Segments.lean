import UringMqtt.Broker.Worker

/-! The segments of an admission: everything that a first offer, a poll and a dropped wait
can do to the event channel. What holds of the channel over whole runs is read off here. -/

namespace UringMqtt.Proofs.Segments
open Lib

variable {sync : LocalSync} {Event : Type}

section
variable (channel : EventChannel sync Event) (ticket : Nat) (event : Event) (wait replyBy now : Nat)

/-- Everything one poll of a slot wait can do. -/
inductive Polled : Admitting → EventChannel sync Event → Prop
  | late (room : sync.Room) (polled : sync.poll channel.room ticket = (.acquired, room)) (passed : replyBy ≤ now) :
      Polled (.done .noReplyTime) { channel with room := sync.dropPermit room, dropped := channel.dropped + 1 }
  | gone (room : sync.Room) (polled : sync.poll channel.room ticket = (.acquired, room))
      (tx : channel.txClosed = true) : Polled (.done .receiverClosed) { channel with room := sync.addPermits room }
  | placed (room : sync.Room) (polled : sync.poll channel.room ticket = (.acquired, room))
      (tx : channel.txClosed = false) : Polled (.done .enqueuedAfterHold)
        { channel with room, queue := channel.queue ++ [event], depth := channel.depth + 1 }
  | closed (room : sync.Room) (polled : sync.poll channel.room ticket = (.closed, room)) :
      Polled (.returning .receiverClosed (sync.dropAcquire room ticket).1)
        { channel with room := (sync.dropAcquire room ticket).2 }
  | pending (room : sync.Room) (polled : sync.poll channel.room ticket = (.pending, room)) :
      Polled .holding { channel with room }

/-- Everything `admit_with` can do up to its first suspension. -/
inductive Offered : Admitting → EventChannel sync Event → Prop
  | late (tx : channel.txClosed = false) : Offered (.done .noReplyTime) channel.noteDropped
  | gone (tx : channel.txClosed = true) : Offered (.done .receiverClosed) channel
  | placed (room : sync.Room) (taken : sync.tryAcquire channel.room = some room) (tx : channel.txClosed = false) :
      Offered (.done .enqueued) { channel with room, queue := channel.queue ++ [event], depth := channel.depth + 1 }
  | full (taken : sync.tryAcquire channel.room = none) (tx : channel.txClosed = false) (short : wait = 0) :
      Offered (.done .dropped) channel.noteDropped
  | waits {admitting : Admitting} {after : EventChannel sync Event} (taken : sync.tryAcquire channel.room = none)
      (tx : channel.txClosed = false) (worth : wait ≠ 0) (polled : Polled channel ticket event replyBy now admitting after) :
      Offered admitting after

/-- Everything `SlotWait::drop` of a wait that has not returned can do. -/
inductive Abandoned : Semaphore.Drop → EventChannel sync Event → Prop
  | granted (room : sync.Room) (polled : sync.poll channel.room ticket = (.acquired, room)) :
      Abandoned .quiet { channel with room := sync.dropPermit room, dropped := channel.dropped + 1 }
  | waiting (answer : Semaphore.Poll) (room : sync.Room) (polled : sync.poll channel.room ticket = (answer, room))
      (other : answer ≠ .acquired) : Abandoned (sync.dropAcquire room ticket).1
        { channel with room := (sync.dropAcquire room ticket).2, dropped := channel.dropped + 1 }

end

variable {channel after : EventChannel sync Event} {ticket replyBy now : Nat} {event : Event} {admitting : Admitting}

theorem admitPoll_polled (ran : channel.admitPoll ticket event replyBy now = (admitting, after)) :
    Polled channel ticket event replyBy now admitting after := by
  unfold EventChannel.admitPoll at ran
  split at ran
  next room polled =>
    split at ran
    next passed =>
      cases ran
      exact .late room polled passed
    · cases tx : channel.txClosed with
      | true =>
        simp only [EventChannel.enqueue, tx, if_true] at ran
        cases ran
        simpa only [tx] using Polled.gone room polled tx
      | false =>
        simp only [EventChannel.enqueue, tx, Bool.false_eq_true, if_false] at ran
        cases ran
        simpa only [tx] using Polled.placed room polled tx
  next room polled =>
    cases ran
    exact .closed room polled
  next room polled =>
    cases ran
    exact .pending room polled

theorem admitWith_offered {wait later : Nat} (ran : channel.admitWith ticket event wait replyBy now later = (admitting, after)) :
    Offered channel ticket event wait replyBy later admitting after := by
  unfold EventChannel.admitWith at ran
  cases tx : channel.txClosed with
  | true =>
    simp only [Bool.not_true, Bool.false_eq_true, and_false, if_false, EventChannel.offerNow, tx, if_true] at ran
    cases ran
    exact .gone tx
  | false =>
    split at ran
    · cases ran
      exact .late tx
    · simp only [EventChannel.offerNow, tx, Bool.false_eq_true, if_false] at ran
      cases taken : sync.tryAcquire channel.room with
      | some room =>
        simp only [taken, EventChannel.enqueue, Bool.false_eq_true, if_false] at ran
        cases ran
        simpa only [tx] using Offered.placed room taken tx
      | none =>
        simp only [taken] at ran
        split at ran
        next short =>
          cases ran
          exact .full taken tx short
        next worth => exact .waits taken tx worth (admitPoll_polled ran)

theorem abandon_abandoned {dropping : Semaphore.Drop} (ran : channel.abandon ticket = (dropping, after)) :
    Abandoned channel ticket dropping after := by
  unfold EventChannel.abandon at ran
  split at ran
  next room polled =>
    cases ran
    exact .granted room polled
  next room polled =>
    cases ran
    exact .waiting _ room polled (by rintro ⟨⟩)
  next room polled =>
    cases ran
    exact .waiting _ room polled (by rintro ⟨⟩)

end UringMqtt.Proofs.Segments

import UringMqtt.Broker.Runtime
import UringMqtt.Proofs.Segments

/-! The event channel as one session finds it between its own steps: whatever the
other tasks did, its slots are closed only behind the channel, and an offer made
while a slot is free does not wait. -/

namespace UringMqtt.Proofs.ChannelUse
open Lib Segments

variable {sync : LocalSync} {view : sync.Room → Semaphore Nat} {channel : EventChannel sync Publish}

/-- The slots are closed only behind the channel: `EventReceiver::drop` closes `rx` first. -/
def Coherent (view : sync.Room → Semaphore Nat) (channel : EventChannel sync Publish) : Prop :=
  (view channel.room).closed = true → channel.txClosed = true

private theorem Coherent.moved {after : EventChannel sync Publish} (coherent : Coherent view channel)
    (tx : after.txClosed = channel.txClosed) (room : (view after.room).closed = (view channel.room).closed) :
    Coherent view after := by
  intro closed
  exact tx.trans (coherent (room.symm.trans closed))

section
variable {after : EventChannel sync Publish} {ticket replyBy now wait later : Nat} {publish : Publish} {admitting : Admitting}
  (lawful : sync.Lawful view) (coherent : Coherent view channel)
include lawful

private theorem poll_closed_eq {room polled : sync.Room} {answer : Semaphore.Poll} (ran : sync.poll room ticket = (answer, polled)) :
    (view polled).closed = (view room).closed := by
  have law := congrArg Prod.snd (lawful.poll room ticket)
  rw [ran] at law
  exact (congrArg Semaphore.closed law).trans (Semaphore.closed_poll _ _)

private theorem dropAcquire_closed_eq (room : sync.Room) : (view (sync.dropAcquire room ticket).2).closed = (view room).closed := by
  have law := congrArg Prod.snd (lawful.dropAcquire room ticket)
  exact (congrArg Semaphore.closed law).trans (Semaphore.closed_dropAcquire _ _)

private theorem dropPermit_closed_eq (room : sync.Room) : (view (sync.dropPermit room)).closed = (view room).closed := by
  rw [lawful.dropPermit, Semaphore.closed_addPermit]

include coherent

theorem Coherent.abandon {dropping : Semaphore.Drop} (abandoned : Abandoned channel ticket dropping after) : Coherent view after := by
  cases abandoned with
  | granted room polled => exact coherent.moved rfl ((dropPermit_closed_eq lawful room).trans (poll_closed_eq lawful polled))
  | waiting answer room polled =>
    exact coherent.moved rfl ((dropAcquire_closed_eq lawful room).trans (poll_closed_eq lawful polled))

theorem Coherent.polled (polled : Polled channel ticket publish replyBy now admitting after) : Coherent view after := by
  cases polled with
  | late room polled => exact coherent.moved rfl ((dropPermit_closed_eq lawful room).trans (poll_closed_eq lawful polled))
  | gone room polled tx => exact fun _ => tx
  | closed room polled =>
    exact coherent.moved rfl ((dropAcquire_closed_eq lawful room).trans (poll_closed_eq lawful polled))
  | placed room polled | pending room polled => exact coherent.moved rfl (poll_closed_eq lawful polled)

theorem Coherent.offered (offered : Offered channel ticket publish wait replyBy later admitting after) : Coherent view after := by
  cases offered with
  | late | gone | full => exact coherent
  | waits _ _ _ polled => exact Coherent.polled lawful coherent polled
  | placed room taken =>
    have law := lawful.tryAcquire channel.room
    rw [taken] at law
    exact coherent.moved rfl (Semaphore.closed_tryAcquire law.symm)

/-- Step: no party breaks the order of the two closes. -/
private theorem Coherent.act (activity : Activity) : Coherent view (channel.act activity) := by
  cases activity with
  | offer => exact Coherent.offered lawful coherent (admitWith_offered rfl)
  | resume => exact Coherent.polled lawful coherent (admitPoll_polled rfl)
  | abandon => exact Coherent.abandon lawful coherent (abandon_abandoned rfl)
  | recv =>
    change Coherent view channel.recv.2
    unfold EventChannel.recv
    split
    · exact coherent
    · refine coherent.moved rfl ?_
      change (view (sync.addPermits channel.room)).closed = _
      rw [lawful.addPermits, Semaphore.closed_addPermit]
  | closeReceiver => exact fun _ => rfl

/-- Run: nor does any number of steps of the other tasks. -/
theorem Coherent.others (others : List Activity) : Coherent view (others.foldl EventChannel.act channel) := by
  induction others generalizing channel with
  | nil => exact coherent
  | cons activity rest ih => exact ih (Coherent.act lawful coherent activity)

private theorem offered_no_hold (room : channel.wouldHold = false)
    (offered : Offered channel ticket publish wait replyBy later admitting after) : admitting ≠ .holding := by
  cases offered with
  | late | gone | placed | full => rintro ⟨⟩
  | waits taken tx =>
    have law := lawful.tryAcquire channel.room
    have isOpen : (view channel.room).closed = false := by
      by_contra closed
      rw [coherent (by simpa using closed)] at tx
      cases tx
    have free : (view channel.room).available ≠ 0 := by
      intro none
      simp [EventChannel.wouldHold, tx, lawful.availablePermits, none] at room
    rw [taken, Semaphore.tryAcquire, if_neg (by simp [isOpen, free])] at law
    cases law

private theorem tx_of_closed {room : sync.Room} (polled : sync.poll channel.room ticket = (.closed, room)) :
    channel.txClosed = true := by
  have answer := congrArg Prod.fst (lawful.poll channel.room ticket)
  rw [polled] at answer
  exact coherent (Semaphore.poll_closed answer.symm)

/-- The first segment of an offer finds the channel open, so that its poll does not panic. -/
private theorem offered_quiet (offered : Offered channel ticket publish wait replyBy later admitting after) : admitting ≠ .panicked := by
  cases offered with
  | late | gone | placed | full => rintro ⟨⟩
  | waits taken tx _ polled =>
    cases polled with
    | late | gone | placed | pending => rintro ⟨⟩
    | closed room polled =>
      rw [tx_of_closed lawful coherent polled] at tx
      cases tx

/-! ### What an admission is worth -/

/-- The outcome names what the session's own steps did to the channel. -/
def Accounted (publish : Publish) (admission : Admission) (ledger : Ledger) : Prop :=
  match admission with
  | .enqueued | .enqueuedAfterHold => ledger.queued = [publish] ∧ ledger.counted = 0
  | .dropped | .noReplyTime => ledger.queued = [] ∧ ledger.counted = 1
  | .receiverClosed => ledger.queued = [] ∧ ledger.counted = 0 ∧ ledger.receiverGone = true

/-- A segment that returned is accounted for, one that still waits did nothing, and one
that panicked queued nothing. -/
def Segment (publish : Publish) (before after : EventChannel sync Publish) : Admitting → Prop
  | .done admission => Accounted publish admission (.between before after)
  | .holding => (Ledger.between before after).queued = [] ∧ (Ledger.between before after).counted = 0
  | .panicked => (Ledger.between before after).queued = []

theorem polled_segment (polled : Polled channel ticket publish replyBy now admitting after) :
    Segment publish channel after admitting := by
  cases polled with
  | late | placed | pending => simp [Segment, Accounted, Ledger.between]
  | gone room polled tx => simp [Segment, Accounted, Ledger.between, tx]
  | closed room polled =>
    have tx := tx_of_closed lawful coherent polled
    cases (sync.dropAcquire room ticket).1 <;> simp [Admitting.returning, Segment, Accounted, Ledger.between, tx]

private theorem offered_segment (offered : Offered channel ticket publish wait replyBy later admitting after) :
    Segment publish channel after admitting := by
  cases offered with
  | late | full => simp [Segment, Accounted, Ledger.between, EventChannel.noteDropped]
  | gone tx => simp [Segment, Accounted, Ledger.between, tx]
  | placed => simp [Segment, Accounted, Ledger.between]
  | waits _ _ _ polled => exact polled_segment lawful coherent polled

end

private theorem expired_segment {after : EventChannel sync Publish} {ticket : Nat} {dropping : Semaphore.Drop} (publish : Publish)
    (abandoned : Abandoned channel ticket dropping after) : Segment publish channel after (.returning .dropped dropping) := by
  cases abandoned with
  | granted => simp [Admitting.returning, Segment, Accounted, Ledger.between]
  | waiting answer room =>
    cases (sync.dropAcquire room ticket).1 <;> simp [Admitting.returning, Segment, Accounted, Ledger.between]

private theorem Accounted.after_hold {publish : Publish} {admission : Admission} {offer ledger : Ledger}
    (queued : offer.queued = []) (counted : offer.counted = 0) (accounted : Accounted publish admission ledger) :
    Accounted publish admission (offer.add ledger) := by
  cases admission <;> simp_all [Accounted, Ledger.add]

/-! ### An admission from its first poll to its end -/

variable (channel) (publish : Publish) (wait : Nat) (waiting : List Observation) in
/-- Everything `admit_with` can do: what it logs on its way, its last answer, the channel
it leaves and what its own segments did. A wait for a slot logs `waiting`. -/
inductive Admits : List Observation → Admitting → EventChannel sync Publish → Ledger → Prop
  | atOnce {ticket replyBy later : Nat} {admitting : Admitting} {after : EventChannel sync Publish}
      (offered : Offered channel ticket publish wait replyBy later admitting after) (ended : admitting ≠ .holding) :
      Admits [] admitting after (.between channel after)
  | waits {ticket replyBy later : Nat} {middle : EventChannel sync Publish}
      (offered : Offered channel ticket publish wait replyBy later .holding middle) (others : List Activity) :
      Admits waiting .holding (others.foldl EventChannel.act middle) (.between channel middle)
  | resumed {ticket replyBy later now : Nat} {middle after : EventChannel sync Publish} {admitting : Admitting}
      (offered : Offered channel ticket publish wait replyBy later .holding middle) (others : List Activity)
      (polled : Polled (others.foldl EventChannel.act middle) ticket publish replyBy now admitting after) :
      Admits waiting admitting after
        (.add (.between channel middle) (.between (others.foldl EventChannel.act middle) after))
  | expired {ticket replyBy later : Nat} {middle after : EventChannel sync Publish} {dropping : Semaphore.Drop}
      (offered : Offered channel ticket publish wait replyBy later .holding middle) (others : List Activity)
      (abandoned : Abandoned (others.foldl EventChannel.act middle) ticket dropping after) :
      Admits (waiting ++ [.slotExpired]) (.returning .dropped dropping) after
        (.add (.between channel middle) (.between (others.foldl EventChannel.act middle) after))

section
variable {after : EventChannel sync Publish} {publish : Publish} {wait : Nat} {waiting log : List Observation}
  {admitting : Admitting} {ledger : Ledger} (admits : Admits channel publish wait waiting log admitting after ledger)
include admits

theorem Admits.slot : log = [] ∨ log = waiting ∨ log = waiting ++ [.slotExpired] := by
  cases admits with
  | atOnce => exact .inl rfl
  | waits | resumed => exact .inr (.inl rfl)
  | expired => exact .inr (.inr rfl)

variable (lawful : sync.Lawful view) (coherent : Coherent view channel)
include lawful coherent

theorem Admits.settled : Coherent view after := by
  cases admits with
  | atOnce offered => exact coherent.offered lawful offered
  | waits offered others => exact (coherent.offered lawful offered).others lawful others
  | resumed offered others polled => exact ((coherent.offered lawful offered).others lawful others).polled lawful polled
  | expired offered others abandoned => exact ((coherent.offered lawful offered).others lawful others).abandon lawful abandoned

theorem Admits.quick (room : channel.wouldHold = false) : log = [] := by
  cases admits with
  | atOnce => rfl
  | waits offered | resumed offered | expired offered => exact absurd rfl (offered_no_hold lawful coherent room offered)

theorem Admits.accounted {admission : Admission} (done : admitting = .done admission) : Accounted publish admission ledger := by
  cases admits with
  | atOnce offered =>
    have segment := offered_segment lawful coherent offered
    rwa [done] at segment
  | waits => cases done
  | resumed offered others polled =>
    have first := offered_segment lawful coherent offered
    have segment := polled_segment lawful ((coherent.offered lawful offered).others lawful others) polled
    rw [done] at segment
    exact segment.after_hold first.1 first.2
  | expired offered others abandoned =>
    have first := offered_segment lawful coherent offered
    have segment := expired_segment publish abandoned
    rw [done] at segment
    exact segment.after_hold first.1 first.2

/-- Only a wait for a slot can keep an admission from returning. -/
theorem Admits.waited (stuck : ∀ admission, admitting ≠ .done admission) : waiting ⊆ log := by
  cases admits with
  | waits | resumed => exact List.Subset.refl _
  | expired => exact List.subset_append_left _ _
  | @atOnce _ _ _ admitting _ offered ended =>
    cases admitting with
    | done admission => exact absurd rfl (stuck admission)
    | holding => exact absurd rfl ended
    | panicked => exact absurd rfl (offered_quiet lawful coherent offered)

end

end UringMqtt.Proofs.ChannelUse

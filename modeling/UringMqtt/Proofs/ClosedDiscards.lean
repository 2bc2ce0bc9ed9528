import UringMqtt.Lib.Runs
import UringMqtt.Proofs.ChannelSlots

/-! What becomes of an admission that still waits for its slot when the receiver goes
away. Its next poll discards the publish without counting it, or panics if the slot was
granted before; but `SlotWait::drop` counts whatever is not settled, and only `admit_with`
itself settles. -/

namespace UringMqtt.Proofs.ClosedDiscards
open Lib ChannelSlots

variable {sync : LocalSync} {Event : Type}

def receiverDropped (state : Admissions sync Event) : Admissions sync Event :=
  { state with channel := state.channel.closeReceiver }

/-- The admission's future was polled and has neither returned nor been dropped. -/
def Unresolved (state : Admissions sync Event) (ticket : Nat) : Prop :=
  ∃ account ∈ state.accounts, account.ticket = ticket ∧ account.status = .holding

/-- A held future is dropped, or its timer runs out, before it is polled again. -/
def abandons : Move → Bool
  | .expired _ | .cancelled _ => true
  | .offered _ | .polled _ | .received | .receiverDropped => false

/-! ### Segments behind the receiver -/

structure Gone (view : sync.Room → Semaphore Nat) (channel : EventChannel sync Event) : Prop where
  tx : channel.txClosed = true
  room : (view channel.room).closed = true

section
variable {view : sync.Room → Semaphore Nat} {channel : EventChannel sync Event}

/-- What a poll or a drop of a held admission does to the slots: they stay closed, and the
acquire's own drop panics exactly if its slot was granted. -/
structure AcquireDropped (view : sync.Room → Semaphore Nat) (room : sync.Room) (ticket : Nat) (dropping : Semaphore.Drop)
    (after : sync.Room) : Prop where
  closed : (view after).closed = true
  panics : dropping = if ticket ∈ (view room).granted then .panicked else .quiet

private theorem acquireDropped (lawful : sync.Lawful view) {room polled : sync.Room} (same : view polled = view room)
    (closed : (view room).closed = true) (ticket : Nat) :
    AcquireDropped view room ticket (sync.dropAcquire polled ticket).1 (sync.dropAcquire polled ticket).2 := by
  have law := lawful.dropAcquire polled ticket
  rw [same, Prod.mk.injEq] at law
  refine ⟨?_, ?_⟩
  · rw [law.2, Semaphore.closed_dropAcquire, closed]
  · rw [law.1, Semaphore.dropAcquire]
    split <;> rfl

theorem Gone.admitPoll (gone : Gone view channel) (lawful : sync.Lawful view) (ticket : Nat) (event : Event)
    (replyBy now : Nat) :
    ∃ dropping room, channel.admitPoll ticket event replyBy now = (.returning .receiverClosed dropping, { channel with room }) ∧
      AcquireDropped view channel.room ticket dropping room := by
  obtain ⟨room, polled, same⟩ := lawful.poll_of_closed gone.room ticket
  exact ⟨_, _, by rw [EventChannel.admitPoll, polled], acquireDropped lawful same gone.room ticket⟩

private theorem Gone.abandon (gone : Gone view channel) (lawful : sync.Lawful view) (ticket : Nat) :
    ∃ dropping room, channel.abandon ticket = (dropping, { channel with room }.noteDropped) ∧
      AcquireDropped view channel.room ticket dropping room := by
  obtain ⟨room, polled, same⟩ := lawful.poll_of_closed gone.room ticket
  exact ⟨_, _, by rw [EventChannel.abandon, polled], acquireDropped lawful same gone.room ticket⟩

private theorem Gone.admitWith (gone : Gone view channel) (ticket : Nat) (event : Event) (wait replyBy now later : Nat) :
    channel.admitWith ticket event wait replyBy now later = (.done .receiverClosed, channel) := by
  simp [EventChannel.admitWith, EventChannel.offerNow, gone.tx]

theorem Gone.closeReceiver (lawful : sync.Lawful view) (channel : EventChannel sync Event) : Gone view channel.closeReceiver := by
  refine ⟨rfl, ?_⟩
  change (view (sync.close _)).closed = true
  rw [lawful.close]
  rfl

/-! ### Runs behind the receiver -/

variable {state next before after : Admissions sync Event} {move : Move} {moves : List Move}

/-- Step: what is counted is what is abandoned. -/
theorem Gone.step (gone : Gone view state.channel) (lawful : sync.Lawful view) (moved : Step state move next) :
    Gone view next.channel ∧ next.channel.dropped = state.channel.dropped + if abandons move then 1 else 0 := by
  cases moved with
  | offer ticket event wait replyBy now later fresh ran =>
    rw [gone.admitWith] at ran
    cases ran
    exact ⟨gone, rfl⟩
  | resume account now holding ran =>
    obtain ⟨dropping, room, polled, left⟩ := gone.admitPoll lawful account.ticket account.event account.replyBy now
    rw [polled] at ran
    cases ran
    exact ⟨⟨gone.tx, left.closed⟩, rfl⟩
  | expire account holding ran =>
    obtain ⟨dropping, room, abandoned, left⟩ := gone.abandon lawful account.ticket
    rw [EventChannel.admitExpire, abandoned] at ran
    cases ran
    exact ⟨⟨gone.tx, left.closed⟩, rfl⟩
  | cancel account holding ran =>
    obtain ⟨dropping, room, abandoned, left⟩ := gone.abandon lawful account.ticket
    rw [abandoned] at ran
    cases ran
    exact ⟨⟨gone.tx, left.closed⟩, rfl⟩
  | @recv channel accounts received event after ran =>
    unfold EventChannel.recv at ran
    split at ran
    · cases ran
    · cases ran
      refine ⟨⟨gone.tx, ?_⟩, rfl⟩
      change (view (sync.addPermits channel.room)).closed = true
      rw [lawful.addPermits, Semaphore.closed_addPermit]
      exact gone.room
  | closeReceiver => exact ⟨.closeReceiver lawful _, rfl⟩

/-- Run: any interleaving behind the receiver. -/
theorem Gone.run (lawful : sync.Lawful view) (run : Runs Step (receiverDropped before) moves after) :
    Gone view after.channel ∧ after.channel.dropped = before.channel.dropped + moves.countP abandons := by
  refine run.invariant (fun moves after => Gone view after.channel ∧ after.channel.dropped = before.channel.dropped + moves.countP abandons)
    ⟨.closeReceiver lawful _, rfl⟩ ?_
  rintro seen state move next ⟨gone, count⟩ moved
  obtain ⟨stays, counted⟩ := gone.step lawful moved
  refine ⟨stays, ?_⟩
  rw [counted, count, List.countP_append, List.countP_singleton, Nat.add_assoc]

/-- Once the receiver was dropped every held future that is dropped or timed out is counted
and nothing else is, so the drop counter stands still exactly as long as nobody abandons a
held admission. A poll of one counts nothing: it returns `ReceiverClosed`, or it panics
because the slot was granted before the receiver went away. -/
theorem discards_uncounted_iff (lawful : sync.Lawful view) (run : Runs Step (receiverDropped before) moves after) :
    (after.channel.dropped = before.channel.dropped ↔ ∀ move ∈ moves, abandons move = false) ∧
    after.channel.dropped = before.channel.dropped + moves.countP abandons ∧
    ∀ account ∈ after.accounts, ∀ now, ∃ channel,
      after.channel.admitPoll account.ticket account.event account.replyBy now =
        (if account.ticket ∈ (view after.channel.room).granted then .panicked else .done .receiverClosed, channel) ∧
      channel.dropped = after.channel.dropped := by
  obtain ⟨gone, count⟩ := Gone.run lawful run
  refine ⟨?_, count, fun account _ now => ?_⟩
  · rw [count, Nat.add_eq_left, List.countP_eq_zero]
    simp only [Bool.not_eq_true]
  · obtain ⟨dropping, room, polled, left⟩ := gone.admitPoll lawful account.ticket account.event account.replyBy now
    refine ⟨{ after.channel with room }, polled.trans ?_, rfl⟩
    rw [left.panics]
    split <;> rfl

end

private def vacated : EventChannel .fifo Unit := { filled 1023 ⟨0, [], [], true⟩ with txClosed := true }

private def ended (ticket : Nat) (status : Status) : Account Unit := (opened ticket () 10).charge vacated vacated status

/-- Two admissions are held at a full channel, one of them with a slot, when the receiver
goes away. Neither poll is counted, and the one with the slot panics. -/
theorem discards_uncounted_iff_polled :
    ∃ before after : Admissions .fifo Unit, Reachable .fifo 0 before ∧ before.channel.txClosed = false ∧
      Unresolved before 1024 ∧ Unresolved before 1025 ∧
      Runs Step (receiverDropped before) [.polled 1024, .polled 1025] after ∧
      (after.accounts.drop eventChannelCapacity).map (·.status) = [.panicked, .finished .receiverClosed] ∧
      after.channel.dropped = before.channel.dropped := by
  obtain ⟨accounts, length, _, reached⟩ := granted_reached
  have panics : Step (receiverDropped ⟨filled 1023 ⟨0, [1025], [1024], false⟩,
        accounts ++ [opened 1024 () 10, opened 1025 () 10], [()]⟩) (.polled 1024)
      ⟨vacated, accounts ++ [ended 1024 .panicked, opened 1025 () 10], [()]⟩ :=
    .resume (opened 1024 () 10) 0 rfl rfl
  rw [List.append_cons _ (ended 1024 .panicked)] at panics
  have run := Runs.next (.single panics) (.resume (opened 1025 () 10) 0 rfl rfl)
  have same := (discards_uncounted_iff LocalSync.fifo_lawful run).1.mpr (by decide)
  refine ⟨_, _, reached, rfl, ⟨opened 1024 () 10, by simp, rfl, rfl⟩, ⟨opened 1025 () 10, by simp, rfl, rfl⟩, run, ?_, same⟩
  rw [← List.append_cons]
  exact (congrArg (List.map (·.status)) (List.drop_left' length)).trans rfl

/-- The future of a held admission is dropped behind the receiver, before it is polled
again, and is counted. -/
theorem vanished_receiver_counted :
    ∃ before after : Admissions .fifo Unit, Reachable .fifo 0 before ∧ before.channel.txClosed = false ∧
      Unresolved before 1025 ∧ Step (receiverDropped before) (.cancelled 1025) after ∧
      (∃ account ∈ after.accounts, account.ticket = 1025 ∧ account.status = .cancelled) ∧
      before.channel.dropped = 0 ∧ after.channel.dropped = 1 := by
  obtain ⟨accounts, _, _, reached⟩ := granted_reached
  rw [List.append_cons] at reached
  refine ⟨_, _, reached, rfl, ⟨opened 1025 () 10, by simp, rfl, rfl⟩, .cancel (opened 1025 () 10) rfl rfl, ?_, rfl, rfl⟩
  exact ⟨_, List.mem_append_right _ List.mem_cons_self, rfl, rfl⟩

end UringMqtt.Proofs.ClosedDiscards

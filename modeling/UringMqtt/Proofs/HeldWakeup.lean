import UringMqtt.Proofs.CallbackOrder

/-! No wake-up is lost: a publish that waits for a slot is never stuck behind a free one. -/

namespace UringMqtt.Proofs.HeldWakeup
open Lib ChannelSlots CallbackOrder

variable {sync : LocalSync} {view : sync.Room → Semaphore Nat} {Event : Type} {state after : Admissions sync Event}

theorem mem_line (valid : Valid view state) {ticket : Nat} : ticket ∈ lineOf view state.channel ↔
    ∃ account ∈ state.accounts, account.status = .holding ∧ account.ticket = ticket := by
  have line := (List.perm_append_comm.trans valid.line).mem_iff (a := ticket)
  rw [lineOf, Semaphore.line, line]
  simp [holdingTickets, and_assoc]

/-- Step: nobody waits while a slot is free. -/
private theorem serves_step (lawful : sync.Lawful view) (valid : Valid view state) (serves : Serves view state.channel)
    {move : Move} (next : Step state move after) (alive : after.channel.txClosed = false) : Serves view after.channel := by
  have listed {account : Account Event} (member : account ∈ state.accounts) (holding : account.status = .holding) :=
    (mem_line valid).mpr ⟨account, member, holding, rfl⟩
  cases next with
  | offer ticket event wait replyBy now later fresh ran =>
    refine (serves.admitWith lawful (fun member => ?_) ran).1
    obtain ⟨account, known, -, same⟩ := (mem_line valid).mp member
    exact fresh account known same
  | resume account now holding ran => exact (serves.admitPoll lawful (listed (by simp) holding) ran).1
  | expire account holding ran =>
    cases ran
    exact (serves.abandon lawful (listed (by simp) holding) rfl).1
  | cancel account holding ran => exact (serves.abandon lawful (listed (by simp) holding) ran).1
  | recv ran => exact (serves.recv lawful ran).1
  | closeReceiver => cases alive

/-- Run: so it is in every reachable state. -/
private theorem serves_of_reachable (lawful : sync.Lawful view) {dropped : Nat} (reached : Reachable sync dropped state)
    (alive : state.channel.txClosed = false) : Serves view state.channel := by
  induction reached with
  | start => exact ⟨(Valid.start lawful dropped).alive, by simp [EventChannel.new, lawful.new, Semaphore.saturated_new]⟩
  | step earlier next ih =>
    have before := next.txClosed alive
    exact serves_step lawful (earlier.valid lawful before) (ih before) next alive

/-- While a publish waits, some waiting publish is first in line. It has its slot, so that its
next poll before its deadline enqueues it; or the queue is full, and the next receive gives it
its slot. -/
theorem held_publish_woken (lawful : sync.Lawful view) {dropped : Nat} (reached : Reachable sync dropped state)
    (alive : state.channel.txClosed = false) (held : ∃ account ∈ state.accounts, account.status = .holding) :
    ∃ first ∈ state.accounts, first.status = .holding ∧ (lineOf view state.channel).head? = some first.ticket ∧
      (first.ticket ∈ (view state.channel.room).granted ∧ (∀ now < first.replyBy,
          (state.channel.admitPoll first.ticket first.event first.replyBy now).1 = .done .enqueuedAfterHold) ∨
        state.channel.queue.length = eventChannelCapacity ∧
          first.ticket ∈ (view state.channel.recv.2.room).granted) := by
  have valid := reached.valid lawful alive
  have serves := serves_of_reachable lawful reached alive
  obtain ⟨account, member, holding⟩ := held
  have waits := (mem_line valid).mpr ⟨account, member, holding, rfl⟩
  obtain ⟨head, rest, line⟩ := List.exists_cons_of_ne_nil (List.ne_nil_of_mem waits)
  have among : head ∈ lineOf view state.channel := by simp [line]
  obtain ⟨first, known, holding, rfl⟩ := (mem_line valid).mp among
  refine ⟨first, known, holding, by simp [line], ?_⟩
  rcases polled : sync.poll state.channel.room first.ticket with ⟨answer, room⟩
  rcases serves.poll lawful among polled with ⟨rfl, granted, -⟩ | ⟨_, without, _⟩
  · refine .inl ⟨granted, fun now early => ?_⟩
    simp [EventChannel.admitPoll, polled, EventChannel.enqueue, alive, Nat.not_le.mpr early]
  · -- Whoever is granted stands in front of the line, so nobody is.
    have none : (view state.channel.room).granted = [] := by
      rw [lineOf, Semaphore.line] at line
      cases granted : (view state.channel.room).granted with
      | nil => rfl
      | cons one others => simp_all
    rw [lineOf, Semaphore.line, none] at line
    have waiting : (view state.channel.room).waiting = first.ticket :: rest := line
    have slots := valid.slots
    rw [Semaphore.unheld, none, serves.saturated (by simp [waiting])] at slots
    have full : state.channel.queue.length = eventChannelCapacity := slots
    obtain ⟨event, queue, queued⟩ := List.exists_cons_of_length_pos (show 0 < state.channel.queue.length by rw [full]; decide)
    exact .inr ⟨full, by simp [EventChannel.recv, queued, lawful.addPermits, Semaphore.addPermit, waiting]⟩

theorem held_publish_woken_crowded : ∃ state : Admissions .fifo Unit, Reachable .fifo 0 state ∧
    ∃ first ∈ state.accounts, first.status = .holding ∧ (id state.channel.room : Semaphore Nat).line.head? = some first.ticket := by
  obtain ⟨accounts, _, _, reached⟩ := granted_reached
  obtain ⟨first, known, waits, line, -⟩ :=
    held_publish_woken LocalSync.fifo_lawful reached rfl ⟨opened 1024 () 10, by simp, rfl⟩
  exact ⟨_, reached, first, known, waits, line⟩

end UringMqtt.Proofs.HeldWakeup

import Mathlib.Algebra.GroupWithZero.Nat
import UringMqtt.Proofs.ChannelSlots

/-! Every publish offered to the event channel is accounted for exactly once: it
was queued once and not counted, or it was counted once and never queued. -/

namespace UringMqtt.Proofs.ChannelAccounting
open Lib ChannelSlots

variable {sync : LocalSync} {Event : Type} {view : sync.Room → Semaphore Nat}

/-- An account holds exactly what the fate of its publish is worth. -/
def Settled (account : Account Event) : Prop :=
  ∃ fate, account.status.fate = some fate ∧ account.queued = fate.events account.event ∧ account.counted = fate.drops

/-- The accounts explain the queue, the events received and the drop counter. -/
structure Balanced (dropped : Nat) (state : Admissions sync Event) : Prop where
  settled : ∀ account ∈ state.accounts, Settled account
  ledger : (state.received ++ state.channel.queue).Perm (state.accounts.flatMap fun account => account.queued)
  total : state.channel.dropped = dropped + (state.accounts.map fun account => account.counted).sum

variable {after : EventChannel sync Event} {account : Account Event} {fate : Fate} {dropped : Nat}

private theorem charge_eq {before : EventChannel sync Event}
    (status : Status) (charged : Charged view before after account.ticket account.event fate) :
    (account.charge before after status).queued = account.queued ++ fate.events account.event ∧
      (account.charge before after status).counted = account.counted + fate.drops := by
  simp [Account.charge, charged.queue, charged.dropped]

private theorem Settled.holding (settled : Settled account)
    (holding : account.status = .holding) : account.queued = [] ∧ account.counted = 0 := by
  obtain ⟨fate, decided, queued, counted⟩ := settled
  rw [holding] at decided
  cases decided
  exact ⟨queued, counted⟩

private theorem charged_balanced {channel : EventChannel sync Event}
    {earlier later : List (Account Event)} {received : List Event}
    (status : Status) (balanced : Balanced dropped ⟨channel, earlier ++ account :: later, received⟩)
    (holding : account.status = .holding) (decided : status.fate = some fate)
    (charged : Charged view channel after account.ticket account.event fate) :
    Balanced dropped ⟨after, earlier ++ account.charge channel after status :: later, received⟩ := by
  obtain ⟨none, zero⟩ := (balanced.settled account (by simp)).holding holding
  obtain ⟨queued, counted⟩ := charge_eq status charged
  rw [none, List.nil_append] at queued
  rw [zero, Nat.zero_add] at counted
  have ledger := balanced.ledger
  have total := balanced.total
  simp only [List.flatMap_append, List.flatMap_cons, none, List.nil_append] at ledger
  simp only [List.map_append, List.map_cons, List.sum_append, List.sum_cons, zero] at total
  refine ⟨?_, ?_, ?_⟩
  · intro other member
    rcases List.mem_append.mp member with before | rest
    · exact balanced.settled other (List.mem_append_left _ before)
    · rcases List.mem_cons.mp rest with rfl | after
      · exact ⟨fate, decided, queued, counted⟩
      · exact balanced.settled other (List.mem_append_right _ (List.mem_cons_of_mem _ after))
  · -- What the segment queued stands at the end of the queue and at the account's place.
    simp only [charged.queue, List.flatMap_append, List.flatMap_cons, queued]
    rw [← List.append_assoc]
    refine (ledger.append_right _).trans ?_
    rw [List.append_assoc]
    exact List.perm_append_comm.append_left _
  · simp only [charged.dropped, total, List.map_append, List.map_cons, List.sum_append, List.sum_cons, counted]
    omega

theorem Balanced.start (dropped : Nat) :
    Balanced dropped (⟨.new sync Event dropped, [], []⟩ : Admissions sync Event) :=
  ⟨by simp, by simp [EventChannel.new], by simp [EventChannel.new]⟩

/-- Step: a segment keeps the books balanced. -/
theorem Balanced.step (lawful : sync.Lawful view) {before after : Admissions sync Event}
    {move : Move} (valid : Valid view before) (balanced : Balanced dropped before) (next : Step before move after)
    (alive : after.channel.txClosed = false) : Balanced dropped after := by
  cases next with
  | @offer channel accounts received ticket event wait replyBy now later admitting after fresh ran =>
    have absent : ticket ∉ (view channel.room).parties := by
      intro member
      obtain ⟨account, found, same⟩ := List.mem_map.mp (valid.line.mem_iff.mp member)
      exact fresh account (List.mem_of_mem_filter found) same
    obtain ⟨fate, decided, charged⟩ :=
      admitWith_charged lawful valid.alive ticket event wait replyBy now later absent ran
    -- The account opens as a waiting one and is charged by the same segment.
    have opening : Balanced dropped ⟨channel, accounts ++ [opened ticket event replyBy], received⟩ := by
      refine ⟨?_, by simpa [opened] using balanced.ledger, by simpa [opened] using balanced.total⟩
      intro account member
      rcases List.mem_append.mp member with known | new
      · exact balanced.settled account known
      · obtain rfl := List.mem_singleton.mp new
        exact ⟨.undecided, rfl, rfl, rfl⟩
    exact charged_balanced (Admitting.status admitting) opening rfl decided charged
  | resume account now holding ran =>
    obtain ⟨fate, decided, charged⟩ :=
      polled_charged lawful valid.alive account.ticket account.event (Segments.admitPoll_polled ran)
    exact charged_balanced _ balanced holding decided charged
  | expire account holding ran =>
    obtain ⟨rfl, charged⟩ := admitExpire_charged lawful valid.alive account.ticket account.event ran
    exact charged_balanced _ balanced holding rfl charged
  | cancel account holding ran =>
    obtain ⟨rfl, charged⟩ := abandon_charged lawful valid.alive account.ticket account.event ran
    exact charged_balanced _ balanced holding rfl charged
  | @recv channel accounts received event after ran =>
    unfold EventChannel.recv at ran
    split at ran
    · cases ran
    next head queue found =>
      cases ran
      have ledger := balanced.ledger
      simp only [found] at ledger
      exact ⟨balanced.settled, by simpa using ledger, balanced.total⟩
  | closeReceiver => cases alive

private theorem Reachable.balanced (lawful : sync.Lawful view) {state : Admissions sync Event}
    (reached : Reachable sync dropped state) (alive : state.channel.txClosed = false) : Balanced dropped state := by
  induction reached with
  | start => exact .start dropped
  | step earlier next ih =>
    have before := next.txClosed alive
    exact (ih before).step lawful (earlier.valid lawful before) next alive

private theorem worth_one (settled : Settled account) (ended : account.status ≠ .holding) :
    account.queued.length + account.counted = 1 := by
  obtain ⟨fate, decided, queued, counted⟩ := settled
  rw [queued, counted]
  cases fate with
  | placed => rfl
  | lost => rfl
  | undecided =>
    rcases status : account.status with _ | admission | _ | _
    · exact absurd status ended
    · rw [status] at decided
      cases admission <;> cases decided
    · rw [status] at decided
      cases decided
    · rw [status] at decided
      cases decided

private theorem worth_all {accounts : List (Account Event)}
    (each : ∀ account ∈ accounts, account.queued.length + account.counted = 1) :
    (accounts.flatMap fun account => account.queued).length + (accounts.map fun account => account.counted).sum =
      accounts.length := by
  induction accounts with
  | nil => rfl
  | cons account rest ih =>
    have one := each account (by simp)
    have others := ih fun other member => each other (List.mem_cons_of_mem _ member)
    simp only [List.flatMap_cons, List.length_append, List.map_cons, List.sum_cons, List.length_cons]
    omega

/-- Every offered publish is accounted for exactly once. An admission that
finished or was dropped queued its own event once and counted nothing, or
queued nothing and counted one drop; the accounts make up the events queued and
received and the drop counter, so when no admission waits the offers are the
events received, the events queued and the drops. -/
theorem offers_accounted_once (lawful : sync.Lawful view) {dropped : Nat} {state : Admissions sync Event}
    (reached : Reachable sync dropped state) (alive : state.channel.txClosed = false) :
    (∀ account ∈ state.accounts, account.status ≠ .holding →
      ((account.status = .finished .enqueued ∨ account.status = .finished .enqueuedAfterHold) ∧
        account.queued = [account.event] ∧ account.counted = 0) ∨
      ((account.status = .finished .dropped ∨ account.status = .finished .noReplyTime ∨
          account.status = .cancelled) ∧ account.queued = [] ∧ account.counted = 1)) ∧
    (state.received ++ state.channel.queue).Perm (state.accounts.flatMap fun account => account.queued) ∧
    state.channel.dropped = dropped + (state.accounts.map fun account => account.counted).sum ∧
    ((∀ account ∈ state.accounts, account.status ≠ .holding) →
      dropped + state.accounts.length =
        state.received.length + state.channel.queue.length + state.channel.dropped) := by
  have balanced := Reachable.balanced lawful reached alive
  refine ⟨?_, balanced.ledger, balanced.total, ?_⟩
  · intro account member ended
    obtain ⟨fate, decided, queued, counted⟩ := balanced.settled account member
    rcases status : account.status with _ | admission | _ | _
    · exact absurd status ended
    · rw [status] at decided
      cases admission <;> cases decided <;> simp_all [Fate.events, Fate.drops]
    · rw [status] at decided
      cases decided
      simp_all [Fate.events, Fate.drops]
    · rw [status] at decided
      cases decided
  · intro quiet
    have worth := worth_all fun account member => worth_one (balanced.settled account member) (quiet account member)
    have length := balanced.ledger.length_eq
    have total := balanced.total
    rw [List.length_append] at length
    omega

/-- Two publishes wait at a full channel. The first is cancelled when its slot was granted
already; the slot goes to the second, which is enqueued. -/
theorem offers_accounted_once_cancelled :
    ∃ state : Admissions .fifo Unit, Reachable .fifo 0 state ∧ state.received.length = 1 ∧
      state.channel.queue.length = 1024 ∧ state.channel.dropped = 1 ∧
      0 + state.accounts.length = state.received.length + state.channel.queue.length + state.channel.dropped := by
  obtain ⟨accounts, _, known, reached⟩ := granted_reached
  have cancelled := reached.step (.cancel (opened 1024 () 10) rfl rfl)
  rw [List.append_cons] at cancelled
  have placed := cancelled.step (.resume (opened 1025 () 10) 0 rfl rfl)
  have queued : (List.replicate 1023 () ++ [()]).length = 1024 := by rw [List.length_append, List.length_replicate]; rfl
  refine ⟨_, placed, rfl, queued, rfl, (offers_accounted_once LocalSync.fifo_lawful placed rfl).2.2.2 ?_⟩
  simp only [List.mem_append, List.mem_singleton]
  rintro account ((enqueued | rfl) | rfl)
  · rw [(known account enqueued).2]
    nofun
  · nofun
  · nofun

end UringMqtt.Proofs.ChannelAccounting

import UringMqtt.Proofs.Segments
import Mathlib.Data.List.Perm.Basic

/-! No slot of the event channel is leaked or created. Any number of admissions
share one channel and are polled, timed out and cancelled in any order, with the
receiver taking events in between. -/

namespace UringMqtt.Proofs.ChannelSlots
open Lib Segments

variable {sync : LocalSync} {Event : Type}

/-! ### Interleaved admissions -/

inductive Status where
  | holding
  | finished (admission : Admission)
  | cancelled
  | panicked
deriving DecidableEq

/-- One `admit_with` future that was polled, with what its own polls and its drop
added to the queue and to the drop counter. -/
structure Account (Event : Type) where
  ticket : Nat
  event : Event
  replyBy : Nat
  status : Status
  queued : List Event
  counted : Nat

/-- The channel, every admission polled so far, and the events received. -/
structure Admissions (sync : LocalSync) (Event : Type) where
  channel : EventChannel sync Event
  accounts : List (Account Event)
  received : List Event

def Admitting.status : Admitting → Status
  | .done admission => .finished admission
  | .holding => .holding
  | .panicked => .panicked

/-- The status of a future that was dropped while it waited. -/
def Status.ofDrop : Semaphore.Drop → Status
  | .quiet => .cancelled
  | .panicked => .panicked

def Account.charge (account : Account Event) (before after : EventChannel sync Event) (status : Status) :
    Account Event :=
  { account with
    status
    queued := account.queued ++ after.queue.drop before.queue.length
    counted := account.counted + (after.dropped - before.dropped) }

def opened (ticket : Nat) (event : Event) (replyBy : Nat) : Account Event :=
  ⟨ticket, event, replyBy, .holding, [], 0⟩

inductive Move where
  | offered (ticket : Nat)
  | polled (ticket : Nat)
  | expired (ticket : Nat)
  | cancelled (ticket : Nat)
  | received
  | receiverDropped
deriving DecidableEq

/-- One atomic segment: between two suspension points no other task runs. -/
inductive Step : Admissions sync Event → Move → Admissions sync Event → Prop
  | offer {channel accounts received} (ticket : Nat) (event : Event) (wait replyBy now later : Nat)
      {admitting after} (fresh : ∀ account ∈ accounts, account.ticket ≠ ticket)
      (ran : channel.admitWith ticket event wait replyBy now later = (admitting, after)) :
      Step ⟨channel, accounts, received⟩ (.offered ticket)
        ⟨after, accounts ++ [(opened ticket event replyBy).charge channel after (Admitting.status admitting)], received⟩
  | resume {channel earlier later received} (account : Account Event) (now : Nat) {admitting after}
      (holding : account.status = .holding)
      (ran : channel.admitPoll account.ticket account.event account.replyBy now = (admitting, after)) :
      Step ⟨channel, earlier ++ account :: later, received⟩ (.polled account.ticket)
        ⟨after, earlier ++ account.charge channel after (Admitting.status admitting) :: later, received⟩
  | expire {channel earlier later received} (account : Account Event) {admitting after}
      (holding : account.status = .holding) (ran : channel.admitExpire account.ticket = (admitting, after)) :
      Step ⟨channel, earlier ++ account :: later, received⟩ (.expired account.ticket)
        ⟨after, earlier ++ account.charge channel after (Admitting.status admitting) :: later, received⟩
  | cancel {channel earlier later received} (account : Account Event) {dropping after}
      (holding : account.status = .holding) (ran : channel.abandon account.ticket = (dropping, after)) :
      Step ⟨channel, earlier ++ account :: later, received⟩ (.cancelled account.ticket)
        ⟨after, earlier ++ account.charge channel after (.ofDrop dropping) :: later, received⟩
  | recv {channel accounts received event after} (ran : channel.recv = (some event, after)) :
      Step ⟨channel, accounts, received⟩ .received ⟨after, accounts, received ++ [event]⟩
  | closeReceiver {channel accounts received} :
      Step ⟨channel, accounts, received⟩ .receiverDropped ⟨channel.closeReceiver, accounts, received⟩

/-- A run from a fresh channel over a drop counter that stood at `dropped`. -/
inductive Reachable (sync : LocalSync) (dropped : Nat) : Admissions sync Event → Prop
  | start : Reachable sync dropped ⟨.new sync Event dropped, [], []⟩
  | step {before move after} (reached : Reachable sync dropped before) (next : Step before move after) :
      Reachable sync dropped after

/-! ### What one segment of an admission does to an open channel -/

structure Alive (view : sync.Room → Semaphore Nat) (channel : EventChannel sync Event) : Prop where
  tx : channel.txClosed = false
  room : (view channel.room).closed = false

inductive Fate where
  | placed
  | lost
  | undecided
deriving DecidableEq

def Status.fate : Status → Option Fate
  | .holding => some .undecided
  | .finished .enqueued | .finished .enqueuedAfterHold => some .placed
  | .finished .dropped | .finished .noReplyTime | .cancelled => some .lost
  | .finished .receiverClosed | .panicked => none

namespace Fate

def events (event : Event) : Fate → List Event
  | .placed => [event]
  | _ => []

def drops : Fate → Nat
  | .lost => 1
  | _ => 0

def parties (ticket : Nat) : Fate → List Nat
  | .undecided => [ticket]
  | _ => []

end Fate

/-- The whole effect of a segment, by the fate of its publish afterwards. -/
structure Charged (view : sync.Room → Semaphore Nat) (before after : EventChannel sync Event) (ticket : Nat)
    (event : Event) (fate : Fate) : Prop where
  alive : Alive view after
  queue : after.queue = before.queue ++ fate.events event
  depth : after.depth = before.depth + (fate.events event).length
  dropped : after.dropped = before.dropped + fate.drops
  unheld : (view after.room).unheld + (fate.events event).length = (view before.room).unheld
  parties : (view after.room).parties.Perm (fate.parties ticket ++ (view before.room).parties.erase ticket)

section Charges
variable {view : sync.Room → Semaphore Nat} (lawful : sync.Lawful view) {channel : EventChannel sync Event}
  (alive : Alive view channel) (ticket : Nat) (event : Event)
include lawful alive

private theorem poll_cases {answer : Semaphore.Poll} {room : sync.Room} (polled : sync.poll channel.room ticket = (answer, room)) :
    (view room).closed = false ∧
    (answer = .acquired ∧ (view room).unheld + 1 = (view channel.room).unheld ∧
      (view room).parties.Perm ((view channel.room).parties.erase ticket) ∨
    answer = .pending ∧ (view room).unheld = (view channel.room).unheld ∧ ticket ∉ (view room).granted ∧
      (view room).parties.Perm (ticket :: (view channel.room).parties.erase ticket)) := by
  have law := lawful.poll channel.room ticket
  have unheld := Semaphore.unheld_poll (view channel.room) ticket
  have closed := Semaphore.closed_poll (view channel.room) ticket
  have line := Semaphore.parties_poll (view channel.room) ticket alive.room
  rw [polled] at law
  rw [← law] at unheld closed line
  refine ⟨closed.trans alive.room, ?_⟩
  rcases line with ⟨rfl, line⟩ | ⟨rfl, line, notGranted⟩
  · exact .inl ⟨rfl, by simpa using unheld, line⟩
  · exact .inr ⟨rfl, by simpa using unheld, notGranted, line⟩

/-- A permit that is collected and dropped again. -/
private theorem returned_charged {room : sync.Room} (polled : sync.poll channel.room ticket = (.acquired, room)) :
    Charged view channel { channel with room := sync.dropPermit room, dropped := channel.dropped + 1 } ticket event .lost := by
  obtain ⟨isOpen, ⟨_, unheld, line⟩ | ⟨⟨⟩, _⟩⟩ := poll_cases lawful alive ticket polled
  refine ⟨⟨alive.tx, ?_⟩, by simp [Fate.events], rfl, rfl, ?_, ?_⟩
  · simpa [lawful.dropPermit] using isOpen
  · simpa [Fate.events, lawful.dropPermit] using unheld
  · simpa [Fate.parties, lawful.dropPermit] using (Semaphore.parties_addPermit (view room)).trans line

theorem abandon_charged {dropping : Semaphore.Drop} {after : EventChannel sync Event}
    (ran : channel.abandon ticket = (dropping, after)) :
    dropping = .quiet ∧ Charged view channel after ticket event .lost := by
  cases abandon_abandoned ran with
  | granted room polled => exact ⟨rfl, returned_charged lawful alive ticket event polled⟩
  | waiting answer room polled other =>
    obtain ⟨isOpen, ⟨acquired, _⟩ | ⟨_, unheld, notGranted, line⟩⟩ := poll_cases lawful alive ticket polled
    · exact absurd acquired other
    obtain ⟨left, dropped, left_eq⟩ := lawful.dropAcquire_quiet notGranted
    rw [dropped]
    refine ⟨rfl, ⟨alive.tx, ?_⟩, by simp [Fate.events], rfl, rfl, ?_, ?_⟩
    · simpa [left_eq, Semaphore.forgetWaiter] using isOpen
    · simpa [Fate.events, left_eq] using unheld
    · have erased := line.erase ticket
      rw [List.erase_cons_head] at erased
      simpa [Fate.parties, left_eq, Semaphore.parties_forgetWaiter (view room) ticket notGranted] using erased

theorem admitExpire_charged {admitting : Admitting} {after : EventChannel sync Event}
    (ran : channel.admitExpire ticket = (admitting, after)) :
    admitting = .done .dropped ∧ Charged view channel after ticket event .lost := by
  rcases abandoned : channel.abandon ticket with ⟨dropping, left⟩
  obtain ⟨rfl, charged⟩ := abandon_charged lawful alive ticket event abandoned
  simp only [EventChannel.admitExpire, abandoned] at ran
  cases ran
  exact ⟨rfl, charged⟩

theorem polled_charged {replyBy now : Nat} {admitting : Admitting} {after : EventChannel sync Event}
    (polled : Polled channel ticket event replyBy now admitting after) :
    ∃ fate, (Admitting.status admitting).fate = some fate ∧ Charged view channel after ticket event fate := by
  cases polled with
  | late room polled => exact ⟨.lost, rfl, returned_charged lawful alive ticket event polled⟩
  | gone room polled tx =>
    rw [alive.tx] at tx
    cases tx
  | placed room polled tx =>
    obtain ⟨isOpen, ⟨_, unheld, line⟩ | ⟨⟨⟩, _⟩⟩ := poll_cases lawful alive ticket polled
    exact ⟨.placed, rfl, ⟨tx, isOpen⟩, rfl, rfl, rfl, unheld, line⟩
  | closed room polled => obtain ⟨_, ⟨⟨⟩, _⟩ | ⟨⟨⟩, _⟩⟩ := poll_cases lawful alive ticket polled
  | pending room polled =>
    obtain ⟨isOpen, ⟨⟨⟩, _⟩ | ⟨_, unheld, _, line⟩⟩ := poll_cases lawful alive ticket polled
    exact ⟨.undecided, rfl, ⟨alive.tx, isOpen⟩, by simp [Fate.events], rfl, rfl, unheld, line⟩

theorem admitWith_charged (wait replyBy now later : Nat) {admitting : Admitting} {after : EventChannel sync Event}
    (absent : ticket ∉ (view channel.room).parties)
    (ran : channel.admitWith ticket event wait replyBy now later = (admitting, after)) :
    ∃ fate, (Admitting.status admitting).fate = some fate ∧ Charged view channel after ticket event fate := by
  have stays : (view channel.room).parties.erase ticket = (view channel.room).parties := List.erase_of_not_mem absent
  have counted : Charged view channel channel.noteDropped ticket event .lost :=
    ⟨⟨alive.tx, alive.room⟩, by simp [EventChannel.noteDropped, Fate.events], rfl, rfl, rfl, by
      rw [stays]
      exact .refl _⟩
  cases admitWith_offered ran with
  | late | full => exact ⟨.lost, rfl, counted⟩
  | gone tx =>
    rw [alive.tx] at tx
    cases tx
  | placed room taken tx =>
    have law := lawful.tryAcquire channel.room
    rw [taken] at law
    have acquired := law.symm
    refine ⟨.placed, rfl, ⟨tx, ?_⟩, rfl, rfl, rfl, Semaphore.unheld_tryAcquire acquired, ?_⟩
    · exact (Semaphore.closed_tryAcquire acquired).trans alive.room
    · change (view room).parties.Perm _
      rw [Semaphore.parties_tryAcquire acquired, stays]
      exact .refl _
  | waits _ _ _ polled => exact polled_charged lawful alive ticket event polled

end Charges

/-! ### The receiver, once gone, stays gone -/

section
variable {channel after : EventChannel sync Event} {ticket replyBy now : Nat} {event : Event} {admitting : Admitting}

private theorem txClosed_polled (polled : Polled channel ticket event replyBy now admitting after) :
    after.txClosed = channel.txClosed := by
  cases polled <;> rfl

private theorem txClosed_abandon {dropping : Semaphore.Drop} (ran : channel.abandon ticket = (dropping, after)) :
    after.txClosed = channel.txClosed := by
  cases abandon_abandoned ran <;> rfl

private theorem txClosed_admitWith {wait later : Nat}
    (ran : channel.admitWith ticket event wait replyBy now later = (admitting, after)) : after.txClosed = channel.txClosed := by
  cases admitWith_offered ran with
  | waits _ _ _ polled => exact txClosed_polled polled
  | _ => rfl

end

theorem Step.txClosed {before after : Admissions sync Event} {move : Move} (next : Step before move after)
    (alive : after.channel.txClosed = false) : before.channel.txClosed = false := by
  cases next with
  | offer ticket event wait replyBy now later fresh ran => exact (txClosed_admitWith ran).symm.trans alive
  | resume account now holding ran => exact (txClosed_polled (admitPoll_polled ran)).symm.trans alive
  | expire account holding ran =>
    cases ran
    exact (txClosed_abandon rfl).symm.trans alive
  | cancel account holding ran => exact (txClosed_abandon ran).symm.trans alive
  | recv ran =>
    unfold EventChannel.recv at ran
    split at ran
    · cases ran
    · cases ran
      exact alive
  | closeReceiver => cases alive

/-! ### Conservation over whole runs -/

def holdingTickets (accounts : List (Account Event)) : List Nat :=
  (accounts.filter fun account => account.status = .holding).map fun account => account.ticket

theorem holdingTickets_append (first second : List (Account Event)) :
    holdingTickets (first ++ second) = holdingTickets first ++ holdingTickets second := by
  simp [holdingTickets]

theorem holdingTickets_singleton {account : Account Event} (fate : Fate) (decided : account.status.fate = some fate) :
    holdingTickets [account] = fate.parties account.ticket := by
  rcases account with ⟨ticket, event, replyBy, status, queued, counted⟩
  rcases status with _ | admission | _ | _
  · cases decided
    rfl
  · cases admission <;> cases decided <;> rfl
  · cases decided
    rfl
  · cases decided

/-- The slots of the channel are all accounted for, and the semaphore's line is
made of the admissions that wait. -/
structure Valid (view : sync.Room → Semaphore Nat) (state : Admissions sync Event) : Prop where
  alive : Alive view state.channel
  slots : state.channel.queue.length + (view state.channel.room).unheld = eventChannelCapacity
  depth : state.channel.depth = state.channel.queue.length
  line : (view state.channel.room).parties.Perm (holdingTickets state.accounts)
  distinct : (state.accounts.map fun account => account.ticket).Nodup

section Runs
variable {view : sync.Room → Semaphore Nat}

private theorem charged_slots {before after : EventChannel sync Event} {ticket : Nat} {event : Event} {fate : Fate}
    (charged : Charged view before after ticket event fate)
    (slots : before.queue.length + (view before.room).unheld = eventChannelCapacity)
    (depth : before.depth = before.queue.length) :
    after.queue.length + (view after.room).unheld = eventChannelCapacity ∧ after.depth = after.queue.length := by
  have unheld := charged.unheld
  rw [charged.depth, charged.queue, List.length_append]
  constructor <;> omega

private theorem charged_valid {channel after : EventChannel sync Event} {earlier later : List (Account Event)}
    {received : List Event} {account updated : Account Event} {fate : Fate}
    (valid : Valid view ⟨channel, earlier ++ account :: later, received⟩) (holding : account.status = .holding)
    (same : updated.ticket = account.ticket) (decided : updated.status.fate = some fate)
    (charged : Charged view channel after account.ticket account.event fate) :
    Valid view ⟨after, earlier ++ updated :: later, received⟩ := by
  obtain ⟨slots, depth⟩ := charged_slots charged valid.slots valid.depth
  refine ⟨charged.alive, slots, depth, ?_, ?_⟩
  · -- The account leaves its place in the line and comes back to it if it still waits.
    have waits : holdingTickets [account] = [account.ticket] :=
      holdingTickets_singleton .undecided (by rw [holding]; rfl)
    have line : (view channel.room).parties.Perm
        (holdingTickets earlier ++ account.ticket :: holdingTickets later) := by
      have before := valid.line
      dsimp only at before
      rw [← List.singleton_append, holdingTickets_append, holdingTickets_append, waits] at before
      exact before
    have others : ((view channel.room).parties.erase account.ticket).Perm
        (holdingTickets earlier ++ holdingTickets later) := by
      have moved := (line.trans List.perm_middle).erase account.ticket
      rwa [List.erase_cons_head] at moved
    dsimp only
    rw [← List.singleton_append, holdingTickets_append, holdingTickets_append,
      holdingTickets_singleton fate decided, same]
    refine charged.parties.trans ((others.append_left _).trans ?_)
    rw [← List.append_assoc, ← List.append_assoc]
    exact List.perm_append_comm.append_right _
  · have distinct := valid.distinct
    simpa [same] using distinct

theorem Valid.start (lawful : sync.Lawful view) (dropped : Nat) :
    Valid view (⟨.new sync Event dropped, [], []⟩ : Admissions sync Event) := by
  refine ⟨⟨rfl, ?_⟩, ?_, rfl, ?_, .nil⟩
  · simp [EventChannel.new, lawful.new, Semaphore.new]
  · simp [EventChannel.new, lawful.new]
  · simp [EventChannel.new, lawful.new, holdingTickets]

/-- Step: every segment keeps the slots accounted for while the receiver is alive. -/
theorem Valid.step (lawful : sync.Lawful view) {before after : Admissions sync Event} (valid : Valid view before)
    {move : Move} (next : Step before move after) (alive : after.channel.txClosed = false) : Valid view after := by
  cases next with
  | @offer channel accounts received ticket event wait replyBy now later admitting after fresh ran =>
    have unknown : ticket ∉ holdingTickets accounts := by
      intro member
      obtain ⟨account, found, same⟩ := List.mem_map.mp member
      exact fresh account (List.mem_of_mem_filter found) same
    have absent : ticket ∉ (view channel.room).parties := fun member => unknown (valid.line.mem_iff.mp member)
    obtain ⟨fate, decided, charged⟩ :=
      admitWith_charged lawful valid.alive ticket event wait replyBy now later absent ran
    obtain ⟨slots, depth⟩ := charged_slots charged valid.slots valid.depth
    refine ⟨charged.alive, slots, depth, ?_, ?_⟩
    · dsimp only
      rw [holdingTickets_append, holdingTickets_singleton fate decided]
      have joined := charged.parties
      rw [List.erase_of_not_mem absent] at joined
      exact joined.trans ((valid.line.append_left _).trans List.perm_append_comm)
    · have distinct := valid.distinct
      simp only [List.map_append, List.map_cons, List.map_nil, List.nodup_append] at distinct ⊢
      refine ⟨distinct, by simp, ?_⟩
      intro other member one singleton
      obtain ⟨account, found, rfl⟩ := List.mem_map.mp member
      rw [List.mem_singleton.mp singleton]
      exact fresh account found
  | resume account now holding ran =>
    obtain ⟨fate, decided, charged⟩ :=
      polled_charged lawful valid.alive account.ticket account.event (admitPoll_polled ran)
    exact charged_valid valid holding rfl decided charged
  | expire account holding ran =>
    obtain ⟨rfl, charged⟩ := admitExpire_charged lawful valid.alive account.ticket account.event ran
    exact charged_valid valid holding rfl rfl charged
  | cancel account holding ran =>
    obtain ⟨rfl, charged⟩ := abandon_charged lawful valid.alive account.ticket account.event ran
    exact charged_valid valid holding rfl rfl charged
  | @recv channel accounts received event after ran =>
    unfold EventChannel.recv at ran
    split at ran
    · cases ran
    next head queue found =>
      cases ran
      have slots := valid.slots
      have depth := valid.depth
      simp only [found, List.length_cons] at slots depth
      refine ⟨⟨valid.alive.tx, ?_⟩, ?_, ?_, ?_, valid.distinct⟩
      · simpa [lawful.addPermits] using valid.alive.room
      · simp only [lawful.addPermits, Semaphore.unheld_addPermit]
        omega
      · dsimp only
        omega
      · simp only [lawful.addPermits]
        exact (Semaphore.parties_addPermit _).trans valid.line
  | closeReceiver => cases alive

/-- Run: every reachable state with a live receiver is valid. -/
theorem Reachable.valid (lawful : sync.Lawful view) {dropped : Nat} {state : Admissions sync Event}
    (reached : Reachable sync dropped state) (alive : state.channel.txClosed = false) : Valid view state := by
  induction reached with
  | start => exact .start lawful dropped
  | step _ next ih => exact (ih (next.txClosed alive)).step lawful next alive

/-- No slot is leaked or created: in every reachable state with a live receiver
the queued events, the free permits and the permits granted to admissions that
have not resumed make up the capacity, `depth` is the number of queued events,
and a `recv` that takes an event finds `depth` positive. -/
theorem slots_conserved (lawful : sync.Lawful view) {dropped : Nat} {state : Admissions sync Event}
    (reached : Reachable sync dropped state) (alive : state.channel.txClosed = false) :
    state.channel.queue.length + sync.availablePermits state.channel.room +
        (view state.channel.room).granted.length = eventChannelCapacity ∧
    (∀ ticket ∈ (view state.channel.room).granted,
      ∃ account ∈ state.accounts, account.ticket = ticket ∧ account.status = .holding) ∧
    (view state.channel.room).granted.Nodup ∧
    state.channel.depth = state.channel.queue.length ∧
    state.channel.depth ≤ eventChannelCapacity ∧
    (∀ event after, state.channel.recv = (some event, after) →
      0 < state.channel.depth ∧ after.depth + 1 = state.channel.depth) := by
  have valid := reached.valid lawful alive
  have slots := valid.slots
  have depth := valid.depth
  rw [Semaphore.unheld] at slots
  refine ⟨?_, ?_, ?_, depth, by omega, ?_⟩
  · rw [lawful.availablePermits]
    omega
  · intro ticket granted
    have member := valid.line.mem_iff.mp (List.mem_append_right _ granted)
    obtain ⟨account, found, same⟩ := List.mem_map.mp member
    obtain ⟨known, holding⟩ := List.mem_filter.mp found
    exact ⟨account, known, same, of_decide_eq_true holding⟩
  · have waiting : (holdingTickets state.accounts).Nodup :=
      valid.distinct.sublist (List.filter_sublist.map _)
    exact (List.nodup_append.mp (valid.line.nodup_iff.mpr waiting)).2.1
  · intro event after ran
    unfold EventChannel.recv at ran
    split at ran
    · cases ran
    next head queue found =>
      cases ran
      rw [found, List.length_cons] at depth
      dsimp only
      omega

end Runs

/-! ### A full channel -/

/-- `count` events are queued and none was dropped. -/
def filled (count : Nat) (room : Semaphore Nat) : EventChannel .fifo Unit where
  queue := List.replicate count ()
  txClosed := false
  depth := count
  dropped := 0
  room

theorem filled_admits {count : Nat} (room : count < eventChannelCapacity) :
    (filled count ⟨eventChannelCapacity - count, [], [], false⟩).admitWith count () 5 10 0 0 =
      (.done .enqueued, filled (count + 1) ⟨eventChannelCapacity - (count + 1), [], [], false⟩) := by
  have free : eventChannelCapacity - count ≠ 0 := Nat.sub_ne_zero_of_lt room
  simp [filled, EventChannel.admitWith, EventChannel.offerNow, LocalSync.fifo, Semaphore.tryAcquire, free,
    EventChannel.enqueue, List.replicate_succ', Nat.sub_sub]

private theorem filled_reached (count : Nat) (room : count ≤ eventChannelCapacity) :
    ∃ accounts : List (Account Unit), accounts.length = count ∧
      (∀ account ∈ accounts, account.ticket < count ∧ account.status = .finished .enqueued) ∧
      Reachable .fifo 0 ⟨filled count ⟨eventChannelCapacity - count, [], [], false⟩, accounts, []⟩ := by
  induction count with
  | zero => exact ⟨[], rfl, List.forall_mem_nil _, .start⟩
  | succ count more =>
    obtain ⟨accounts, length, known, reached⟩ := more (Nat.le_of_succ_le room)
    have fresh (account : Account Unit) (member : account ∈ accounts) := Nat.ne_of_lt (known account member).1
    refine ⟨_, by simp [length], fun account member => ?_, .step reached (.offer count () 5 10 0 0 fresh (filled_admits room))⟩
    rcases List.mem_append.mp member with earlier | last
    · exact ⟨Nat.lt_succ_of_lt (known account earlier).1, (known account earlier).2⟩
    · rw [List.mem_singleton.mp last]
      exact ⟨Nat.lt_succ_self count, rfl⟩

/-- One more publish finds the channel full and waits behind the others. -/
private theorem filled_holds {waiting : List Nat} {accounts : List (Account Unit)} (ticket : Nat) (absent : ticket ∉ waiting)
    (fresh : ∀ account ∈ accounts, account.ticket ≠ ticket)
    (reached : Reachable .fifo 0 ⟨filled eventChannelCapacity ⟨0, waiting, [], false⟩, accounts, []⟩) :
    Reachable .fifo 0
      ⟨filled eventChannelCapacity ⟨0, waiting ++ [ticket], [], false⟩, accounts ++ [opened ticket () 10], []⟩ := by
  have waits : (filled eventChannelCapacity ⟨0, waiting, [], false⟩).admitWith ticket () 5 10 0 0 =
      (.holding, filled eventChannelCapacity ⟨0, waiting ++ [ticket], [], false⟩) := by
    simp [filled, EventChannel.admitWith, EventChannel.offerNow, LocalSync.fifo, Semaphore.tryAcquire,
      EventChannel.admitPoll, Semaphore.poll, absent]
  have charged : (opened ticket () 10).charge (filled eventChannelCapacity ⟨0, waiting, [], false⟩)
      (filled eventChannelCapacity ⟨0, waiting ++ [ticket], [], false⟩) .holding = opened ticket () 10 := by
    simp [Account.charge, filled, opened]
  have next := Reachable.step reached (.offer ticket () 5 10 0 0 fresh waits)
  rwa [Admitting.status, charged] at next

/-- Two publishes wait at a full channel and the receiver takes an event, which gives the
first of them its slot. -/
theorem granted_reached : ∃ accounts : List (Account Unit), accounts.length = eventChannelCapacity ∧
    (∀ account ∈ accounts, account.ticket < eventChannelCapacity ∧ account.status = .finished .enqueued) ∧
    Reachable .fifo 0 ⟨filled 1023 ⟨0, [1025], [1024], false⟩, accounts ++ [opened 1024 () 10, opened 1025 () 10], [()]⟩ := by
  obtain ⟨accounts, length, known, full⟩ := filled_reached eventChannelCapacity (Nat.le_refl _)
  have fresh (account : Account Unit) (member : account ∈ accounts) := Nat.ne_of_lt (known account member).1
  have one := filled_holds 1024 List.not_mem_nil fresh full
  have two := filled_holds 1025 (by decide) (by
    intro account member
    rcases List.mem_append.mp member with earlier | last
    · exact Nat.ne_of_lt (Nat.lt_succ_of_lt (known account earlier).1)
    · rw [List.mem_singleton.mp last]
      decide) one
  refine ⟨accounts, length, known, ?_⟩
  have behind : accounts ++ [opened 1024 () 10] ++ [opened 1025 () 10] = accounts ++ [opened 1024 () 10, opened 1025 () 10] :=
    List.append_assoc _ _ _
  rw [behind] at two
  exact .step two (.recv rfl)

theorem slots_conserved_granted :
    ∃ state : Admissions .fifo Unit, Reachable .fifo 0 state ∧ state.channel.queue.length = 1023 ∧
      (id state.channel.room : Semaphore Nat).granted = [1024] ∧
      state.channel.queue.length + LocalSync.fifo.availablePermits state.channel.room +
        (id state.channel.room : Semaphore Nat).granted.length = eventChannelCapacity := by
  obtain ⟨accounts, _, _, reached⟩ := granted_reached
  exact ⟨_, reached, List.length_replicate, rfl, (slots_conserved LocalSync.fifo_lawful reached rfl).1⟩

end UringMqtt.Proofs.ChannelSlots

import UringMqtt.Proofs.ChannelSlots
import UringMqtt.Proofs.DeliveryOrder
import UringMqtt.Proofs.GracefulDrain

/-! In what order the callback sees the publishes of different connections. The slots
are first come, first served, and so is the queue; but a slot that was granted is
collected only when its task runs, and a publish that finds another slot free in
between does not wait for it. -/

namespace UringMqtt.Proofs.CallbackOrder
open Lib WorkerRun WorkerQueue Segments
open ChannelSlots (Alive)

variable {sync : LocalSync} {view : sync.Room → Semaphore Nat}

/-! ### One segment of an admission, and the line for slots -/

section
variable {Event : Type} {channel after : EventChannel sync Event}

/-- A channel whose receiver is there, and where nobody waits while a slot is free. -/
structure Serves (view : sync.Room → Semaphore Nat) (channel : EventChannel sync Event) : Prop where
  alive : Alive view channel
  saturated : (view channel.room).Saturated

def lineOf (view : sync.Room → Semaphore Nat) (channel : EventChannel sync Event) : List Nat := (view channel.room).line

theorem Serves.same (serves : Serves view channel) (tx : after.txClosed = channel.txClosed)
    (same : view after.room = view channel.room) : Serves view after := by
  refine ⟨⟨tx.trans serves.alive.tx, ?_⟩, ?_⟩
  · rw [same]
    exact serves.alive.room
  · rw [same]
    exact serves.saturated

/-- A permit that comes back keeps the line: the first one who waits has it granted. -/
theorem Serves.freed (serves : Serves view channel) (tx : after.txClosed = channel.txClosed)
    (freed : view after.room = (view channel.room).addPermit) : Serves view after ∧ lineOf view after = lineOf view channel := by
  refine ⟨⟨⟨tx.trans serves.alive.tx, ?_⟩, ?_⟩, ?_⟩
  · rw [freed, Semaphore.closed_addPermit]
    exact serves.alive.room
  · rw [freed]
    exact serves.saturated.addPermit
  · rw [lineOf, freed, Semaphore.line_addPermit, lineOf]

theorem Serves.recv (serves : Serves view channel) (lawful : sync.Lawful view) {event : Event}
    (ran : channel.recv = (some event, after)) : Serves view after ∧ lineOf view after = lineOf view channel := by
  unfold EventChannel.recv at ran
  split at ran
  · cases ran
  · cases ran
    exact serves.freed rfl (lawful.addPermits _)

variable {ticket replyBy now : Nat} {event : Event} {admitting : Admitting}

theorem Serves.poll (serves : Serves view channel) (lawful : sync.Lawful view) (member : ticket ∈ lineOf view channel)
    {answer : Semaphore.Poll} {room : sync.Room} (polled : sync.poll channel.room ticket = (answer, room)) :
    answer = .acquired ∧ ticket ∈ (view channel.room).granted ∧ Serves view { channel with room } ∧
      lineOf view { channel with room } = (lineOf view channel).erase ticket ∨
    answer = .pending ∧ ticket ∉ (view channel.room).granted ∧ view room = view channel.room := by
  have law := lawful.poll channel.room ticket
  have saturated := serves.saturated.poll ticket
  have closed := Semaphore.closed_poll (view channel.room) ticket
  rw [polled] at law
  rw [← law] at saturated closed
  rcases Semaphore.poll_in_line serves.alive.room member with ⟨granted, acquired, left⟩ | ⟨notGranted, pending⟩
  · rw [← law] at acquired left
    exact .inl ⟨acquired, granted, ⟨⟨serves.alive.tx, closed.trans serves.alive.room⟩, saturated⟩, left⟩
  · rw [pending, Prod.mk.injEq] at law
    exact .inr ⟨law.1, notGranted, law.2⟩

theorem Serves.abandon (serves : Serves view channel) (lawful : sync.Lawful view) (member : ticket ∈ lineOf view channel)
    {dropping : Semaphore.Drop} (ran : channel.abandon ticket = (dropping, after)) :
    Serves view after ∧ lineOf view after = (lineOf view channel).erase ticket := by
  cases abandon_abandoned ran with
  | granted room polled =>
    obtain ⟨_, _, acquired, left⟩ | ⟨⟨⟩, _⟩ := serves.poll lawful member polled
    rw [← left]
    exact acquired.freed rfl (lawful.dropPermit room)
  | waiting answer room polled other =>
    obtain ⟨acquired, _⟩ | ⟨_, notGranted, same⟩ := serves.poll lawful member polled
    · exact absurd acquired other
    obtain ⟨forgotten, quiet, dropped⟩ := lawful.dropAcquire_quiet (same ▸ notGranted : ticket ∉ (view room).granted)
    rw [same] at dropped
    refine ⟨⟨⟨serves.alive.tx, ?_⟩, ?_⟩, ?_⟩
    · simp only [quiet, dropped]
      exact serves.alive.room
    · simp only [quiet, dropped]
      exact serves.saturated.forgetWaiter
    · simp only [lineOf, quiet, dropped]
      exact Semaphore.line_forgetWaiter notGranted

/-- What a poll of a waiting admission does to the line: it goes on waiting, or it had
its slot granted and leaves. -/
inductive Turn (view : sync.Room → Semaphore Nat) (before after : EventChannel sync Event) (ticket : Nat) :
    Admitting → Prop
  | waits (same : lineOf view after = lineOf view before) : Turn view before after ticket .holding
  | leaves (admission : Admission) (granted : ticket ∈ (view before.room).granted)
      (left : lineOf view after = (lineOf view before).erase ticket) : Turn view before after ticket (.done admission)

theorem Serves.admitPoll (serves : Serves view channel) (lawful : sync.Lawful view) (member : ticket ∈ lineOf view channel)
    (ran : channel.admitPoll ticket event replyBy now = (admitting, after)) :
    Serves view after ∧ Turn view channel after ticket admitting := by
  cases admitPoll_polled ran with
  | late room polled =>
    -- The idle budget is gone: the slot goes to the next in line.
    obtain ⟨_, granted, acquired, left⟩ | ⟨⟨⟩, _⟩ := serves.poll lawful member polled
    refine And.imp_right (fun line => ?_) (acquired.freed rfl (lawful.dropPermit room))
    exact .leaves _ granted (line.trans left)
  | gone room polled tx =>
    rw [serves.alive.tx] at tx
    cases tx
  | placed room polled =>
    obtain ⟨_, granted, acquired, left⟩ | ⟨⟨⟩, _⟩ := serves.poll lawful member polled
    exact ⟨acquired.same rfl rfl, .leaves _ granted left⟩
  | closed room polled => obtain ⟨⟨⟩, _⟩ | ⟨⟨⟩, _⟩ := serves.poll lawful member polled
  | pending room polled =>
    obtain ⟨⟨⟩, _⟩ | ⟨_, _, same⟩ := serves.poll lawful member polled
    exact ⟨serves.same rfl same, .waits (congrArg Semaphore.line same)⟩

/-- What a new offer does to the line: it finds a slot free, or does without one, or
joins the line at its end. -/
inductive Arrival (view : sync.Room → Semaphore Nat) (before after : EventChannel sync Event) (ticket : Nat) :
    Admitting → Prop
  | passes (admission : Admission) (free : placed admission = true → (view before.room).available ≠ 0)
      (same : lineOf view after = lineOf view before) : Arrival view before after ticket (.done admission)
  | joins (line : lineOf view after = lineOf view before ++ [ticket]) : Arrival view before after ticket .holding

theorem Serves.admitWith (serves : Serves view channel) (lawful : sync.Lawful view)
    {wait later : Nat} (absent : ticket ∉ lineOf view channel)
    (ran : channel.admitWith ticket event wait replyBy now later = (admitting, after)) :
    Serves view after ∧ Arrival view channel after ticket admitting := by
  have untouched : Serves view channel.noteDropped := serves.same rfl rfl
  have law := lawful.tryAcquire channel.room
  cases admitWith_offered ran with
  | late | full => exact ⟨untouched, .passes _ (by rintro ⟨⟩) rfl⟩
  | gone tx =>
    rw [serves.alive.tx] at tx
    cases tx
  | placed room taken tx =>
    rw [taken] at law
    have acquired := law.symm
    refine ⟨⟨⟨tx, ?_⟩, serves.saturated.tryAcquire acquired⟩, .passes _ ?_ ?_⟩
    · exact (Semaphore.closed_tryAcquire acquired).trans serves.alive.room
    · exact fun _ => Semaphore.available_tryAcquire acquired
    · exact Semaphore.line_tryAcquire acquired
  | waits taken tx _ polled =>
    rw [taken] at law
    have none : (view channel.room).available = 0 := by
      simpa [Semaphore.tryAcquire, serves.alive.room] using law.symm
    obtain ⟨pending, line⟩ := Semaphore.poll_joins serves.alive.room absent none
    have saturated := serves.saturated.poll ticket
    have closed := Semaphore.closed_poll (view channel.room) ticket
    have law := lawful.poll channel.room ticket
    rw [← law] at saturated closed pending line
    cases polled with
    | pending room polled =>
      rw [polled] at saturated closed line
      exact ⟨⟨⟨tx, closed.trans serves.alive.room⟩, saturated⟩, .joins line⟩
    | late room polled | gone room polled | placed room polled | closed room polled =>
      rw [polled] at pending
      cases pending

end

/-! ### Whole runs -/

def offeredBy : Happening → List Delivery
  | .offered delivery _ => [delivery]
  | _ => []

/-- The publishes offered to the channel, in the order of their first poll. -/
def offers (seen : List Happening) : List Delivery := seen.flatMap offeredBy

/-- Whenever a publish has been received, those of other connections that were offered
before it and got into the queue have been received before it. -/
def CallbackInOrder (seen : List Happening) : Prop :=
  ∀ one two, one.connection ≠ two.connection → [one, two].Sublist (offers seen) → one ∈ enqueued seen →
    two ∈ delivered seen → [one, two].Sublist (delivered seen)

variable {σ : Type} {clients : Clients σ} {maxConnections : Nat} {run after : WorkerRun sync σ} {seen : List Happening}

/-- No offer finds a slot free while another one is granted and not collected, and a
granted slot is collected by the one who has had it longest. -/
def Orderly (view : sync.Room → Semaphore Nat) (run : WorkerRun sync σ) : Happening → Prop
  | .offered _ _ => (view run.channel.room).granted = [] ∨ (view run.channel.room).available = 0
  | .polled delivery _ =>
    delivery.ticket ∈ (view run.channel.room).granted → (view run.channel.room).granted.head? = some delivery.ticket
  | _ => True

def heldTicket (task : SessionTask σ) : List Nat :=
  match task.status with
  | .holding held => [held.ticket]
  | _ => []

def heldTickets (sessions : List (SessionTask σ)) : List Nat := sessions.flatMap heldTicket

theorem heldTickets_at (earlier later : List (SessionTask σ)) (task : SessionTask σ) :
    heldTickets (earlier ++ task :: later) = heldTickets earlier ++ heldTicket task ++ heldTickets later := by
  simp [heldTickets]

/-- The tickets of the events enqueued, and behind them those in line for a slot. -/
def order (view : sync.Room → Semaphore Nat) (seen : List Happening) (run : WorkerRun sync σ) : List Nat :=
  (enqueued seen).map Delivery.ticket ++ lineOf view run.channel

structure Lined (view : sync.Room → Semaphore Nat) (seen : List Happening) (run : WorkerRun sync σ) : Prop where
  serves : run.processorEnded = false → Serves view run.channel
  held : (lineOf view run.channel).Perm (heldTickets run.sessions)
  sorted : (order view seen run).Pairwise (· < ·)
  bounded : ∀ ticket ∈ order view seen run, ticket < run.nextTicket
  numbered : (offers seen).map Delivery.ticket = List.range run.nextTicket

theorem order_snoc (view : sync.Room → Semaphore Nat) (seen : List Happening) (happening : Happening) (run : WorkerRun sync σ) :
    order view (seen ++ [happening]) run =
      (enqueued seen).map Delivery.ticket ++ ((enqueuedBy happening).map Delivery.ticket ++ lineOf view run.channel) := by
  simp [order, enqueued]

variable {happening : Happening} {one two : Delivery}

theorem Lined.goes (lined : Lined view seen run) (quiet : offeredBy happening = [])
    (serves : after.processorEnded = false → Serves view after.channel)
    (held : (lineOf view after.channel).Perm (heldTickets after.sessions)) (next : after.nextTicket = run.nextTicket)
    (fewer : ((enqueuedBy happening).map Delivery.ticket ++ lineOf view after.channel).Sublist (lineOf view run.channel)) :
    Lined view (seen ++ [happening]) after := by
  have sublist : (order view (seen ++ [happening]) after).Sublist (order view seen run) := by
    rw [order_snoc]
    exact fewer.append_left _
  refine ⟨serves, held, lined.sorted.sublist sublist, ?_, ?_⟩
  · intro ticket member
    rw [next]
    exact lined.bounded ticket (sublist.subset member)
  · rw [next, ← lined.numbered]
    simp [offers, quiet]

theorem Lined.comes (lined : Lined view seen run) {delivery : Delivery}
    (offer : offeredBy happening = [delivery]) (ticket : delivery.ticket = run.nextTicket)
    (serves : after.processorEnded = false → Serves view after.channel)
    (held : (lineOf view after.channel).Perm (heldTickets after.sessions)) (next : after.nextTicket = run.nextTicket + 1)
    (last : ((enqueuedBy happening).map Delivery.ticket ++ lineOf view after.channel).Sublist
      (lineOf view run.channel ++ [run.nextTicket])) :
    Lined view (seen ++ [happening]) after := by
  have sublist : (order view (seen ++ [happening]) after).Sublist (order view seen run ++ [run.nextTicket]) := by
    rw [order_snoc, order, List.append_assoc]
    exact last.append_left _
  have sorted : (order view seen run ++ [run.nextTicket]).Pairwise (· < ·) := by
    refine List.pairwise_append.mpr ⟨lined.sorted, List.pairwise_singleton _ _, ?_⟩
    intro earlier member new same
    rw [List.mem_singleton.mp same]
    exact lined.bounded earlier member
  refine ⟨serves, held, sorted.sublist sublist, ?_, ?_⟩
  · intro earlier member
    rw [next]
    rcases List.mem_append.mp (sublist.subset member) with old | new
    · exact Nat.lt_succ_of_lt (lined.bounded earlier old)
    · rw [List.mem_singleton.mp new]
      exact Nat.lt_succ_self _
  · rw [next, List.range_succ, ← lined.numbered]
    simp [offers, offer, ticket]

theorem Lined.still (lined : Lined view seen run) (quiet : offeredBy happening = []) (nothing : enqueuedBy happening = [])
    (serves : after.processorEnded = false → Serves view after.channel) (same : lineOf view after.channel = lineOf view run.channel)
    (held : heldTickets after.sessions = heldTickets run.sessions) (next : after.nextTicket = run.nextTicket) :
    Lined view (seen ++ [happening]) after := by
  apply lined.goes quiet serves
  · rw [same, held]
    exact lined.held
  · exact next
  · rw [nothing, same]
    exact List.Sublist.refl _

section
variable {earlier later : List (SessionTask σ)} {state : σ} {held : HeldPublish}

theorem Lined.member (lined : Lined view seen run) (here : run.sessions = earlier ++ ⟨state, .holding held⟩ :: later) :
    held.ticket ∈ lineOf view run.channel := by
  apply lined.held.mem_iff.mpr
  simp [here, heldTickets_at, heldTicket]

variable {task : SessionTask σ}

theorem Lined.left (lined : Lined view seen run) (here : run.sessions = earlier ++ ⟨state, .holding held⟩ :: later)
    (free : heldTicket task = []) :
    ((lineOf view run.channel).erase held.ticket).Perm (heldTickets (earlier ++ task :: later)) := by
  have erased := lined.held.erase held.ticket
  rw [here, heldTickets_at] at erased
  rw [heldTickets_at, free, List.append_nil]
  apply erased.trans
  have moved : (heldTickets earlier ++ [held.ticket] ++ heldTickets later).Perm
      (held.ticket :: (heldTickets earlier ++ heldTickets later)) := by
    rw [List.append_assoc]
    exact List.perm_middle
  have gone := moved.erase held.ticket
  rwa [List.erase_cons_head] at gone

private theorem Lined.abandoned (lined : Lined view seen run) (lawful : sync.Lawful view) (running : run.processorEnded = false)
    {happening : Happening} (quiet : offeredBy happening = []) (nothing : enqueuedBy happening = [])
    (here : run.sessions = earlier ++ ⟨state, .holding held⟩ :: later) (free : heldTicket task = [])
    {dropping : Semaphore.Drop} (ran : run.channel.abandon held.ticket = (dropping, after.channel))
    (sessions : after.sessions = earlier ++ task :: later) (next : after.nextTicket = run.nextTicket) :
    Lined view (seen ++ [happening]) after := by
  obtain ⟨serves, left⟩ := (lined.serves running).abandon lawful (lined.member here) ran
  apply lined.goes quiet
  · exact fun _ => serves
  · rw [left, sessions]
    exact lined.left here free
  · exact next
  · rw [nothing, left]
    exact List.erase_sublist

private theorem collected_first {ticket : Nat} {channel : EventChannel sync Delivery}
    (first : (view channel.room).granted.head? = some ticket) :
    lineOf view channel = ticket :: (lineOf view channel).erase ticket := by
  obtain ⟨rest, granted⟩ := List.head?_eq_some_iff.mp first
  simp [lineOf, Semaphore.line, granted]

end

private theorem Lined.absent (lined : Lined view seen run) : run.nextTicket ∉ lineOf view run.channel := by
  intro member
  exact Nat.lt_irrefl _ (lined.bounded _ (List.mem_append_right _ member))

private theorem nobody_in_line {channel : EventChannel sync Delivery} (serves : Serves view channel)
    (free : (view channel.room).available ≠ 0)
    (orderly : (view channel.room).granted = [] ∨ (view channel.room).available = 0) : lineOf view channel = [] := by
  have granted := orderly.resolve_right free
  have waiting : (view channel.room).waiting = [] := by
    by_contra waits
    exact free (serves.saturated waits)
  simp [lineOf, Semaphore.line, granted, waiting]

private theorem joined_perm {line front back : List Nat} {ticket : Nat} (waiting : line.Perm (front ++ [] ++ back)) :
    (line ++ [ticket]).Perm (front ++ [ticket] ++ back) := by
  rw [List.append_nil] at waiting
  rw [List.append_assoc]
  exact ((waiting.append_right [ticket]).trans (List.perm_append_singleton ticket _)).trans List.perm_middle.symm

private theorem queued_ticket (delivery : Delivery) (admitting : Admitting) :
    ((queuedBy delivery admitting).map Delivery.ticket).Sublist [delivery.ticket] := by
  unfold queuedBy
  split
  · split
    · exact List.Sublist.refl _
    · exact List.nil_sublist _
  · exact List.nil_sublist _
  · exact List.nil_sublist _

/-- Step: what is enqueued keeps its place in front of the line. -/
theorem Lined.step (lined : Lined view seen run) (lawful : sync.Lawful view)
    (valid : GracefulDrain.Valid maxConnections run) (orderly : Orderly view run happening)
    (moved : Step clients maxConnections run happening after) : Lined view (seen ++ [happening]) after := by
  cases moved with
  | accepted here running acquired =>
    obtain ⟨_, rfl⟩ := GracefulDrain.tryAcquire_eq_some acquired
    exact lined.still rfl rfl lined.serves rfl (by simp [heldTickets, heldTicket]) rfl
  | rejected | acceptFailed | retries | stops | drained | deadline | returns | signalled =>
    exact lined.still rfl rfl lined.serves rfl rfl rfl
  | observed earlier later here live other moved =>
    exact lined.still rfl rfl lined.serves rfl (by simp [here, heldTickets_at, heldTicket]) rfl
  | offered earlier later wait replyBy now polled here decided ran moved =>
    have before := lined.serves (valid.unfinished here rfl).2
    obtain ⟨serves, arrival⟩ := before.admitWith lawful lined.absent ran
    rename_i publish _ admission _ _
    cases arrival with
    | passes _ free same =>
      apply lined.comes rfl rfl (fun _ => serves)
      · rw [same]
        simpa [here, heldTickets_at, heldTicket] using lined.held
      · rfl
      · cases places : placed admission with
        | true =>
          rw [same, nobody_in_line before (free places) orderly, List.append_nil]
          exact queued_ticket (delivery earlier.length publish run.nextTicket) (.done admission)
        | false =>
          simp only [enqueuedBy, queuedBy, places, same]
          exact List.sublist_append_left _ _
  | held earlier later wait replyBy now polled here decided ran =>
    obtain ⟨serves, arrival⟩ := (lined.serves (valid.unfinished here rfl).2).admitWith lawful lined.absent ran
    cases arrival with
    | joins line =>
      apply lined.comes rfl rfl (fun _ => serves)
      · have waiting := lined.held
        rw [here, heldTickets_at] at waiting
        rw [line, heldTickets_at]
        exact joined_perm waiting
      · rfl
      · rw [line]
        exact List.Sublist.refl _
  | resumed earlier later now here ran moved =>
    rename_i held admission _ _
    obtain ⟨serves, turn⟩ := (lined.serves (valid.unfinished here rfl).2).admitPoll lawful (lined.member here) ran
    cases turn with
    | leaves _ granted left =>
      have first : lineOf view run.channel = held.ticket :: (lineOf view run.channel).erase held.ticket :=
        collected_first (orderly granted)
      apply lined.goes rfl (fun _ => serves)
      · rw [left]
        exact lined.left here rfl
      · rfl
      · have whole : ((queuedBy (delivery earlier.length held.publish held.ticket) (.done admission)).map Delivery.ticket ++
            (lineOf view run.channel).erase held.ticket).Sublist (held.ticket :: (lineOf view run.channel).erase held.ticket) :=
          (queued_ticket _ _).append_right _
        rw [left]
        rwa [← first] at whole
  | waits earlier later now here ran =>
    obtain ⟨serves, turn⟩ := (lined.serves (valid.unfinished here rfl).2).admitPoll lawful (lined.member here) ran
    cases turn with
    | waits same => exact lined.still rfl rfl (fun _ => serves) same rfl rfl
  | expired earlier later here ran moved =>
    have dropped := EventChannel.admitExpire_dropped (congrArg Prod.fst ran)
    have left := congrArg Prod.snd ran
    exact lined.abandoned lawful (valid.unfinished here rfl).2 rfl (by rw [enqueuedBy, dropped]; rfl) here rfl
      (Prod.ext rfl left) rfl rfl
  | sessionReturned earlier later here =>
    exact lined.still rfl rfl lined.serves rfl (by simp [here, heldTickets_at, heldTicket]) rfl
  | sessionAborted earlier later here live closed ran =>
    rename_i state status channel
    cases status with
    | holding held => exact lined.abandoned lawful (valid.unfinished here rfl).2 rfl rfl here rfl ran rfl rfl
    | _ =>
      cases ran
      exact lined.still rfl rfl lined.serves rfl (by simp [here, heldTickets_at, heldTicket]) rfl
  | delivered running ran =>
    obtain ⟨serves, same⟩ := (lined.serves running).recv lawful ran
    exact lined.still rfl rfl (fun _ => serves) same rfl rfl
  | processorEnded running empty gone =>
    -- Every session has ended by now, so nobody is in line.
    have nobody : (view run.channel.room).line = [] := by
      have ended : heldTickets run.sessions = [] := by
        simp only [WorkerRun.eventsDisconnected, Bool.and_eq_true, List.all_eq_true] at gone
        refine List.flatMap_eq_nil_iff.mpr fun task member => ?_
        have dead := gone.2 task member
        obtain ⟨state, status⟩ := task
        cases status <;> first | rfl | cases dead
      have line := lined.held
      rwa [ended, List.perm_nil] at line
    have same : lineOf view run.channel.closeReceiver = lineOf view run.channel := by
      obtain ⟨granted, waiting⟩ := List.append_eq_nil_iff.mp nobody
      simp [lineOf, EventChannel.closeReceiver, lawful.close, Semaphore.line, Semaphore.close, granted, waiting]
    exact lined.still rfl rfl (by rintro ⟨⟩) same rfl rfl

private theorem Lined.initial (lawful : sync.Lawful view) (dropped : Nat) : Lined view [] (WorkerRun.initial sync σ dropped) := by
  have room : view (sync.new eventChannelCapacity) = .new eventChannelCapacity := lawful.new _
  have nobody : lineOf view (EventChannel.new sync Delivery dropped) = [] := by
    rw [lineOf, EventChannel.new, room]
    rfl
  have empty : order view [] (WorkerRun.initial sync σ dropped) = [] := nobody
  refine ⟨fun _ => ⟨⟨rfl, ?_⟩, ?_⟩, ?_, ?_, ?_, rfl⟩
  · simp only [WorkerRun.initial, EventChannel.new, room]
    rfl
  · simp only [WorkerRun.initial, EventChannel.new, room]
    exact Semaphore.saturated_new _
  · simp only [WorkerRun.initial, nobody]
    exact List.Perm.refl _
  · rw [empty]
    exact List.Pairwise.nil
  · rw [empty]
    rintro _ ⟨⟩

def OrderlyStep (view : sync.Room → Semaphore Nat) (clients : Clients σ) (maxConnections : Nat) (run : WorkerRun sync σ)
    (happening : Happening) (after : WorkerRun sync σ) : Prop :=
  Orderly view run happening ∧ Step clients maxConnections run happening after

private theorem lined_of_run (lawful : sync.Lawful view) {dropped : Nat}
    (ran : Runs (OrderlyStep view clients maxConnections) (WorkerRun.initial sync σ dropped) seen run) :
    GracefulDrain.Valid maxConnections run ∧ Lined view seen run := by
  apply ran.invariant (fun seen run => GracefulDrain.Valid maxConnections run ∧ Lined view seen run)
  · exact ⟨.initial dropped, .initial lawful dropped⟩
  · intro seen run happening after both moved
    exact ⟨both.1.step moved.2, both.2.step lawful both.1 moved.1 moved.2⟩

private theorem pair_of_sorted {events : List Delivery} (sorted : (events.map Delivery.ticket).Pairwise (· < ·))
    (first : one ∈ events) (second : two ∈ events) (less : one.ticket < two.ticket) : [one, two].Sublist events := by
  obtain ⟨front, back, rfl⟩ := List.append_of_mem first
  rw [List.map_append, List.map_cons, List.pairwise_append] at sorted
  rcases List.mem_append.mp second with inFront | inBack
  · have greater := sorted.2.2 two.ticket (List.mem_map_of_mem inFront) one.ticket List.mem_cons_self
    exact absurd less (Nat.lt_asymm greater)
  · rcases List.mem_cons.mp inBack with rfl | inBack
    · exact absurd less (Nat.lt_irrefl _)
    · have tail : [one, two].Sublist (one :: back) := (List.singleton_sublist.mpr inBack).cons_cons one
      exact tail.trans (List.sublist_append_right _ _)

private theorem ticket_lt_of_offers {count : Nat} (numbered : (offers seen).map Delivery.ticket = List.range count)
    (pair : [one, two].Sublist (offers seen)) : one.ticket < two.ticket := by
  have mapped := pair.map Delivery.ticket
  rw [numbered] at mapped
  have sorted := List.pairwise_lt_range.sublist mapped
  simpa using sorted

/-- The callback follows the order of the offers in every run whose steps are orderly:
no offer finds a slot free next to one that is granted and not collected, and the
granted slots are collected in the order they were granted. -/
theorem callback_in_order (lawful : sync.Lawful view) {dropped : Nat}
    (ran : Runs (OrderlyStep view clients maxConnections) (WorkerRun.initial sync σ dropped) seen run) :
    CallbackInOrder seen := by
  obtain ⟨_, lined⟩ := lined_of_run lawful ran
  have steps : Runs (Step clients maxConnections) (WorkerRun.initial sync σ dropped) seen run :=
    ran.mono fun _ _ _ moved => moved.2
  have queue := delivered_queue steps
  have sorted : ((enqueued seen).map Delivery.ticket).Pairwise (· < ·) := (List.pairwise_append.mp lined.sorted).1
  intro one two _ pair entered received
  have less := ticket_lt_of_offers lined.numbered pair
  rw [← queue] at sorted entered
  rw [List.map_append, List.pairwise_append] at sorted
  rcases List.mem_append.mp entered with early | late
  · exact pair_of_sorted sorted.1 early received less
  · have greater := sorted.2.2 two.ticket (List.mem_map_of_mem received) one.ticket (List.mem_map_of_mem late)
    exact absurd less (Nat.lt_asymm greater)

section
open Conversation DeliveryOrder Session Framing ExactlyOnce Fixtures

/-! ### Two clients at a full channel

One client sends a publish more than the channel has slots, another one sends one. -/

def crowdConfig : Config := (Scenario.prompt []).config

def backlog (count : Nat) : Bytes := (List.replicate count publishQos1T).flatten

def backlogOf (connection : Nat) : Nat := if connection = 0 then eventChannelCapacity + 1 else 1

def crowd : Clients SessionLog :=
  speakers codec (fun _ => crowdConfig) fun connection => v3ConnectTest ++ backlog (backlogOf connection)

def reading : MqttPacket := .v3 (.publish publishT)

private theorem reading_accepted : Accepted codec .mqtt3 .default publishQos1T (reading, 9) :=
  ⟨0x32, [0x09], _, ⟨rfl, by decide⟩, by decide, by simp [Varint.width], by decide, by decide +kernel, rfl⟩

private theorem connectTest_accepted : Accepted codec .mqtt3 .default v3ConnectTest (connectTest, 16) :=
  ⟨0x10, [0x10], _, ⟨rfl, by decide⟩, by decide, by simp [Varint.width], by decide, by decide +kernel, rfl⟩

private theorem parse_backlog (count : Nat) :
    Reference.parse codec .mqtt3 .default (backlog count) = (List.replicate count (reading, 9), .clean) := by
  induction count with
  | zero => simp [backlog, Reference.parse]
  | succ count ih =>
    have next := parse_accepted reading_accepted (backlog count)
    rw [ih] at next
    simpa [backlog, List.replicate_succ] using next

def backlogScript (connection : Nat) : Script := (List.replicate (backlogOf connection) reading, .clean)

private theorem crowd_script (connection : Nat) :
    scriptOf codec crowdConfig (v3ConnectTest ++ backlog (backlogOf connection)) .mqtt3 =
      (connectTest :: (backlogScript connection).1, (backlogScript connection).2) := by
  have whole := parse_accepted connectTest_accepted (backlog (backlogOf connection))
  rw [parse_backlog] at whole
  simp only [scriptOf, crowdConfig, Scenario.prompt, whole, backlogScript]
  simp

def crowdLoop : LoopConfig := ⟨millisOfSecs 90, none, 100⟩

private theorem crowd_welcome : evaluateConnect codec connectTest crowdConfig.idleTimeoutSecs crowdConfig.peerAddr
    crowdConfig.maxInboundPacketSize = .accept (.v3 (.connectAck ⟨.connectionAccepted, false⟩)) (some "test") 60 (millisOfSecs 90) none := by
  decide +kernel

def served (connection : Nat) (stage : Stage) (count : Nat) : Phase :=
  .serving .mqtt3 crowdLoop (backlogScript connection) ⟨List.replicate count reading, stage⟩

abbrev reads (log : List Observation) (connection count : Nat) : SessionTask SessionLog :=
  ⟨⟨log, served connection .reading count⟩, .free⟩

abbrev waits (log : List Observation) (connection count ticket : Nat) : SessionTask SessionLog :=
  ⟨⟨log, served connection (.offering publishT (some (.publishAck idOne)) 5) count⟩, .holding ⟨publishT, ticket, 10⟩⟩

def CrowdStep (orderly : Prop) (run : WorkerRun .fifo SessionLog) (happening : Happening) (after : WorkerRun .fifo SessionLog) : Prop :=
  Step crowd 2 run happening after ∧ (orderly → Orderly id run happening)

/-- What is offered, enqueued and received on the way from one state to another. -/
def Reaches (orderly : Prop) (run after : WorkerRun .fifo SessionLog) (offered entered received : List Delivery) : Prop :=
  ∃ seen, Runs (CrowdStep orderly) run seen after ∧ offers seen = offered ∧ enqueued seen = entered ∧ delivered seen = received

variable {orderly : Prop} {run after : WorkerRun .fifo SessionLog}

theorem Reaches.step {happening : Happening} (moved : Step crowd 2 run happening after)
    (kept : orderly → Orderly id run happening) :
    Reaches orderly run after (offeredBy happening) (enqueuedBy happening) (deliveredBy happening) :=
  ⟨[happening], .single ⟨moved, kept⟩, by simp [offers], by simp [enqueued], by simp [delivered]⟩

theorem Reaches.trans {middle : WorkerRun .fifo SessionLog} {offered entered received more further rest : List Delivery}
    (first : Reaches orderly run middle offered entered received) (second : Reaches orderly middle after more further rest) :
    Reaches orderly run after (offered ++ more) (entered ++ further) (received ++ rest) := by
  obtain ⟨seen, ran, rfl, rfl, rfl⟩ := first
  obtain ⟨last, goes, rfl, rfl, rfl⟩ := second
  exact ⟨seen ++ last, ran.append goes, by simp [offers], by simp [enqueued], by simp [delivered]⟩

section
variable {run : WorkerRun .fifo SessionLog} {earlier later : List (SessionTask SessionLog)} {log : List Observation}

theorem speaks {phase next : Phase} {observation : Observation} (here : run.sessions = earlier ++ ⟨⟨log, phase⟩, .free⟩ :: later)
    (other : observation.ofAdmission = false)
    (moved : Conversation.Step codec crowdConfig (v3ConnectTest ++ backlog (backlogOf earlier.length)) phase observation next) :
    Reaches orderly run { run with sessions := earlier ++ ⟨⟨log ++ [observation], next⟩, .free⟩ :: later } [] [] [] :=
  .step (@Step.observed .fifo SessionLog crowd 2 run earlier later ⟨log, phase⟩ .free ⟨log ++ [observation], next⟩ observation
    here rfl other ⟨rfl, moved⟩) fun _ => trivial

private theorem greets (here : run.sessions = earlier ++ ⟨⟨[], .probing⟩, .free⟩ :: later) :
    ∃ log, Reaches orderly run { run with sessions := earlier ++ reads log earlier.length 0 :: later } [] [] [] := by
  have probed : Reaches orderly run _ _ _ _ :=
    speaks here rfl (.probed .mqtt3 fun _ => ⟨v3ConnectTest, List.prefix_append _ _, by decide +kernel⟩)
  have received := probed.trans (speaks rfl rfl (.received .mqtt3 connectTest (backlogScript earlier.length)
    (fun _ => crowd_script earlier.length) ⟨0x10, v3ConnectTest.drop 2, by decide +kernel⟩))
  rw [crowd_welcome] at received
  have accepted := received.trans (speaks rfl rfl (.accepted .mqtt3 _ crowdLoop _))
  exact ⟨_, accepted.trans (speaks rfl rfl (.greeted .mqtt3 _ _))⟩

end

def crowdRun (sessions : List (SessionTask SessionLog)) (queue : List Delivery) (room : Semaphore Nat) (next : Nat) :
    WorkerRun .fifo SessionLog where
  stage := .accepting
  shutdownRequested := false
  abortClosed := false
  activeConnections := 2
  sessions
  channel := ⟨queue, false, queue.length, 0, room⟩
  nextTicket := next
  processorEnded := false

private theorem answer_reading (packets : List MqttPacket) :
    answer packets reading = .deliverThenReply publishT (.publishAck idOne) := rfl

section
variable {earlier later : List (SessionTask SessionLog)} {log : List Observation} {queue : List Delivery}
  {room : Semaphore Nat} {next count : Nat}

theorem decodes (more : count < backlogOf earlier.length) :
    Reaches orderly (crowdRun (earlier ++ reads log earlier.length count :: later) queue room next)
      (crowdRun (earlier ++ ⟨⟨log ++ [.decoded reading],
        served earlier.length (.delivering publishT (some (.publishAck idOne))) (count + 1)⟩, .free⟩ :: later)
        queue room next) [] [] [] := by
  have front : List.replicate count reading ++ [reading] <+: (backlogScript earlier.length).1 := by
    rw [← List.replicate_succ']
    exact ⟨List.replicate (backlogOf earlier.length - (count + 1)) reading, by
      rw [List.replicate_append_replicate, backlogScript]
      congr 1
      omega⟩
  have spoken : Reaches orderly (crowdRun (earlier ++ reads log earlier.length count :: later) queue room next)
      _ [] [] [] :=
    speaks rfl rfl (.served .mqtt3 crowdLoop (backlogScript earlier.length) (.decoded _ _ front))
  rw [answer_reading, ← List.replicate_succ'] at spoken
  exact spoken

theorem publishes {free : Nat} (more : count < backlogOf earlier.length) (available : room.available = free + 1)
    (isOpen : room.closed = false) (uncollected : orderly → room.granted = []) :
    ∃ log', Reaches orderly (crowdRun (earlier ++ reads log earlier.length count :: later) queue room next)
      (crowdRun (earlier ++ reads log' earlier.length (count + 1) :: later)
        (queue ++ [delivery earlier.length publishT next]) { room with available := free } (next + 1))
      [delivery earlier.length publishT next] [delivery earlier.length publishT next] [] := by
  have accounted : ChannelUse.Accounted (.fromCodec publishT) .enqueued ⟨[.fromCodec publishT], 0, false⟩ :=
    ⟨rfl, rfl⟩
  have ran : (⟨queue, false, queue.length, 0, room⟩ : EventChannel .fifo Delivery).admitWith next
      (delivery earlier.length publishT next) 5 10 0 0 =
      (.done .enqueued, ⟨queue ++ [delivery earlier.length publishT next], false,
        (queue ++ [delivery earlier.length publishT next]).length, 0, { room with available := free }⟩) := by
    simp [EventChannel.admitWith, EventChannel.offerNow, EventChannel.enqueue, LocalSync.fifo, Semaphore.tryAcquire, available, isOpen]
  have offered := (@decodes orderly earlier later log queue room next count more).trans
    (.step (@Step.offered .fifo SessionLog crowd 2 _ earlier later _ ⟨_, _⟩ ⟨_, _⟩ publishT 5 .enqueued
      ⟨[.fromCodec publishT], 0, false⟩ _ 5 10 0 0 rfl
      ⟨rfl, .served .mqtt3 _ _ (.offered _ publishT (some (.publishAck idOne)) 5)⟩ ran
      ⟨rfl, .served .mqtt3 _ _ (.admitted _ publishT _ 5 accounted rfl)⟩) fun kept => Or.inl (uncollected kept))
  exact ⟨_, offered.trans (speaks rfl rfl (.served .mqtt3 crowdLoop (backlogScript earlier.length) (.replied _ rfl)))⟩

theorem holds (more : count < backlogOf earlier.length) (isOpen : room.closed = false) (full : room.available = 0)
    (absent : next ∉ room.line) :
    ∃ state, Reaches orderly (crowdRun (earlier ++ reads log earlier.length count :: later) queue room next)
      (crowdRun (earlier ++ waits state earlier.length (count + 1) next :: later) queue
        { room with waiting := room.waiting ++ [next] } (next + 1))
      [delivery earlier.length publishT next] [] [] := by
  have granted : next ∉ room.granted := fun member => absent (List.mem_append_left _ member)
  have waiting : next ∉ room.waiting := fun member => absent (List.mem_append_right _ member)
  have ran : (⟨queue, false, queue.length, 0, room⟩ : EventChannel .fifo Delivery).admitWith next
      (delivery earlier.length publishT next) 5 10 0 0 =
      (.holding, ⟨queue, false, queue.length, 0, { room with waiting := room.waiting ++ [next] }⟩) := by
    simp [EventChannel.admitWith, EventChannel.offerNow, EventChannel.admitPoll, LocalSync.fifo, Semaphore.tryAcquire,
      Semaphore.poll, full, isOpen, granted, waiting]
  exact ⟨_, (@decodes orderly earlier later log queue room next count more).trans
    (.step (@Step.held .fifo SessionLog crowd 2 _ earlier later _ ⟨_, _⟩ publishT 5 _ 5 10 0 0 rfl
    ⟨rfl, .served .mqtt3 _ _ (.offered _ publishT (some (.publishAck idOne)) 5)⟩ ran) fun _ => Or.inr full)⟩

theorem collects {ticket : Nat} (isOpen : room.closed = false) (granted : ticket ∈ room.granted)
    (first : orderly → room.granted.head? = some ticket) :
    ∃ state, Reaches orderly (crowdRun (earlier ++ waits log earlier.length count ticket :: later) queue room next)
      (crowdRun (earlier ++ ⟨state, .free⟩ :: later) (queue ++ [delivery earlier.length publishT ticket])
        { room with granted := room.granted.erase ticket } next)
      [] [delivery earlier.length publishT ticket] [] := by
  have accounted : ChannelUse.Accounted (.fromCodec publishT) .enqueuedAfterHold ⟨[.fromCodec publishT], 0, false⟩ :=
    ⟨rfl, rfl⟩
  have ran : (⟨queue, false, queue.length, 0, room⟩ : EventChannel .fifo Delivery).admitPoll ticket
      (delivery earlier.length publishT ticket) 10 0 =
      (.done .enqueuedAfterHold, ⟨queue ++ [delivery earlier.length publishT ticket], false,
        (queue ++ [delivery earlier.length publishT ticket]).length, 0, { room with granted := room.granted.erase ticket }⟩) := by
    simp [EventChannel.admitPoll, EventChannel.enqueue, LocalSync.fifo, Semaphore.poll, granted, isOpen]
  exact ⟨_, .step (@Step.resumed .fifo SessionLog crowd 2 _ earlier later _ ⟨_, _⟩ ⟨publishT, ticket, 10⟩ .enqueuedAfterHold
      ⟨[.fromCodec publishT], 0, false⟩ _ 0 rfl ran
      ⟨rfl, .served .mqtt3 _ _ (.admitted _ publishT _ 5 accounted rfl)⟩) fun kept _ => first kept⟩

theorem receives (sessions : List (SessionTask SessionLog)) (event : Delivery) :
    Reaches orderly (crowdRun sessions (event :: queue) room next) (crowdRun sessions queue room.addPermit next) [] [] [event] :=
  .step (.delivered rfl rfl) fun _ => trivial

theorem drains (sessions : List (SessionTask SessionLog)) :
    ∃ last, Reaches orderly (crowdRun sessions queue room next) (crowdRun sessions [] last next) [] [] queue := by
  induction queue generalizing room with
  | nil => exact ⟨room, [], .start, rfl, rfl, rfl⟩
  | cons event queue ih =>
    obtain ⟨last, rest⟩ := @ih room.addPermit
    exact ⟨last, (receives sessions event).trans rest⟩

def readings (count : Nat) : List Delivery := (List.range count).map (delivery 0 publishT)

private theorem fills (other : SessionTask SessionLog) (room : count ≤ eventChannelCapacity) :
    ∃ last, Reaches orderly (crowdRun (reads log 0 0 :: [other]) [] (.new eventChannelCapacity) 0)
      (crowdRun (reads last 0 count :: [other]) (readings count)
        ⟨eventChannelCapacity - count, [], [], false⟩ count)
      (readings count) (readings count) [] := by
  induction count with
  | zero => exact ⟨log, [], .start, rfl, rfl, rfl⟩
  | succ count ih =>
    obtain ⟨last, before⟩ := ih (by omega)
    have more : count < backlogOf 0 := by
      simp only [backlogOf, if_true]
      omega
    obtain ⟨after, next⟩ := @publishes orderly [] [other] last (readings count)
      ⟨eventChannelCapacity - count, [], [], false⟩ count count (eventChannelCapacity - (count + 1)) more
      (by dsimp only; omega) rfl (fun _ => rfl)
    have both := before.trans next
    refine ⟨after, ?_⟩
    simpa [readings, List.range_succ] using both

end

theorem readings_split : ∃ one two rest, readings eventChannelCapacity = one :: two :: rest := by
  have long : (readings eventChannelCapacity).length = 1024 := by simp [readings, eventChannelCapacity]
  rcases split : readings eventChannelCapacity with _ | ⟨one, _ | ⟨two, rest⟩⟩
  · simp [split] at long
  · simp [split] at long
  · exact ⟨one, two, rest, rfl⟩

def fresh : SessionTask SessionLog := ⟨⟨[], .probing⟩, .free⟩

private theorem crowd_joins :
    Reaches orderly (WorkerRun.initial .fifo SessionLog 0) (crowdRun [fresh, fresh] [] (.new eventChannelCapacity) 0) [] [] [] := by
  have accepted : Runs (CrowdStep orderly) (WorkerRun.initial .fifo SessionLog 0) _ _ :=
    (Runs.start.next ⟨.accepted rfl rfl rfl, fun _ => trivial⟩).next ⟨.accepted rfl rfl rfl, fun _ => trivial⟩
  exact ⟨_, accepted, rfl, rfl, rfl⟩

theorem crowd_fills :
    ∃ one two, Reaches orderly (WorkerRun.initial .fifo SessionLog 0)
      (crowdRun [reads one 0 eventChannelCapacity, reads two 1 0]
        (readings eventChannelCapacity) ⟨0, [], [], false⟩ eventChannelCapacity)
      (readings eventChannelCapacity) (readings eventChannelCapacity) [] := by
  obtain ⟨one, first⟩ := @greets orderly (crowdRun [fresh, fresh] [] (.new eventChannelCapacity) 0) [] [fresh] rfl
  obtain ⟨two, second⟩ := @greets orderly (crowdRun [reads one 0 0, fresh] [] (.new eventChannelCapacity) 0)
    [reads one 0 0] [] rfl
  obtain ⟨full, filled⟩ := @fills orderly one eventChannelCapacity (reads two 1 0) (Nat.le_refl _)
  have served := ((crowd_joins.trans first).trans second).trans filled
  rw [Nat.sub_self] at served
  simp only [List.nil_append] at served
  exact ⟨full, two, served⟩

def heldReading : Delivery := delivery 0 publishT eventChannelCapacity

def lateReading : Delivery := delivery 1 publishT (eventChannelCapacity + 1)

/-- Both clients wait at the full channel when the receiver takes two events. They collect
their slots in the order they came. -/
theorem callback_in_order_both_held :
    ∃ seen more, ∃ middle run : WorkerRun .fifo SessionLog,
      Runs (OrderlyStep id crowd 2) (WorkerRun.initial .fifo SessionLog 0) seen middle ∧
      (∀ task ∈ middle.sessions, ∃ held, task.status = .holding held) ∧ Runs (OrderlyStep id crowd 2) middle more run ∧
      delivered (seen ++ more) = readings eventChannelCapacity ++ [heldReading, lateReading] ∧ CallbackInOrder (seen ++ more) := by
  obtain ⟨one, two, filled⟩ := @crowd_fills True
  obtain ⟨front, following, rest, split⟩ := readings_split
  rw [split] at filled
  have backlogged : eventChannelCapacity < backlogOf 0 := by decide
  have unsent : 0 < backlogOf 1 := by decide
  obtain ⟨waiting, held⟩ := @holds True [] [reads two 1 0] one (front :: following :: rest)
    ⟨0, [], [], false⟩ eventChannelCapacity eventChannelCapacity backlogged rfl rfl (by rintro ⟨⟩)
  obtain ⟨behind, both⟩ := @holds True [waits waiting 0 (eventChannelCapacity + 1) eventChannelCapacity] [] two (front :: following :: rest)
    ⟨0, [eventChannelCapacity], [], false⟩ (eventChannelCapacity + 1) 0 unsent rfl rfl (by decide)
  have granted : Reaches True (crowdRun [waits waiting 0 (eventChannelCapacity + 1) eventChannelCapacity,
        waits behind 1 1 (eventChannelCapacity + 1)] (front :: following :: rest)
        ⟨0, [eventChannelCapacity, eventChannelCapacity + 1], [], false⟩ (eventChannelCapacity + 2)) _ _ _ _ :=
    (receives _ front).trans (receives _ following)
  obtain ⟨state, first⟩ := @collects True [] [waits behind 1 1 (eventChannelCapacity + 1)] waiting rest
    ⟨0, [], [eventChannelCapacity, eventChannelCapacity + 1], false⟩ (eventChannelCapacity + 2) (eventChannelCapacity + 1)
    eventChannelCapacity rfl List.mem_cons_self fun _ => rfl
  obtain ⟨other, second⟩ := @collects True [⟨state, .free⟩] [] behind (rest ++ [heldReading])
    ⟨0, [], [eventChannelCapacity + 1], false⟩ (eventChannelCapacity + 2) 1 (eventChannelCapacity + 1) rfl List.mem_cons_self
    fun _ => rfl
  obtain ⟨last, drained⟩ := @drains True (rest ++ [heldReading] ++ [lateReading]) ⟨0, [], [], false⟩ (eventChannelCapacity + 2)
    [⟨state, .free⟩, ⟨other, .free⟩]
  obtain ⟨seen, ran, -, -, early⟩ := (filled.trans held).trans both
  obtain ⟨more, goes, -, -, late⟩ := ((granted.trans first).trans second).trans drained
  have steps {run after : WorkerRun .fifo SessionLog} {seen : List Happening} (ran : Runs (CrowdStep True) run seen after) :
      Runs (OrderlyStep id crowd 2) run seen after := ran.mono fun _ _ _ moved => ⟨moved.2 trivial, moved.1⟩
  refine ⟨seen, more, _, _, steps ran, ?_, steps goes, ?_, callback_in_order LocalSync.fifo_lawful ((steps ran).append (steps goes))⟩
  · simp [crowdRun, waits]
  · rw [delivered, List.flatMap_append, split]
    exact (congrArg₂ (· ++ ·) early late).trans (by simp)

private theorem overtakes (one two : List Observation) (front following : Delivery) (rest : List Delivery) :
    ∃ after, Reaches False
      (crowdRun [reads one 0 eventChannelCapacity, reads two 1 0]
        (front :: following :: rest) ⟨0, [], [], false⟩ eventChannelCapacity)
      after [heldReading, lateReading] [lateReading, heldReading]
      (front :: following :: (rest ++ [lateReading] ++ [heldReading])) := by
  have backlogged : eventChannelCapacity < backlogOf 0 := by decide
  have unsent : 0 < backlogOf 1 := by decide
  obtain ⟨waiting, held⟩ := @holds False [] [reads two 1 0] one (front :: following :: rest)
    ⟨0, [], [], false⟩ eventChannelCapacity eventChannelCapacity backlogged rfl rfl (by rintro ⟨⟩)
  have granted := held.trans (receives _ front)
  have freed := granted.trans (receives _ following)
  obtain ⟨after, overtaken⟩ := @publishes False [⟨⟨waiting, _⟩, _⟩] [] two rest ⟨1, [], [eventChannelCapacity], false⟩
    (eventChannelCapacity + 1) 0 0 unsent rfl rfl False.elim
  obtain ⟨state, collected⟩ := @collects False [] [reads after 1 1] waiting (rest ++ [lateReading])
    ⟨0, [], [eventChannelCapacity], false⟩ (eventChannelCapacity + 2) (eventChannelCapacity + 1) eventChannelCapacity
    rfl List.mem_cons_self False.elim
  obtain ⟨last, drained⟩ := @drains False (rest ++ [lateReading] ++ [heldReading]) ⟨0, [], [], false⟩ (eventChannelCapacity + 2)
    [⟨state, .free⟩, reads after 1 1]
  exact ⟨_, ((freed.trans overtaken).trans collected).trans drained⟩

/-- So the callback sees it first, though it was offered later. -/
theorem callback_overtaken :
    ∃ seen, ∃ run : WorkerRun .fifo SessionLog,
      Runs (Step crowd 2) (WorkerRun.initial .fifo SessionLog 0) seen run ∧ ¬CallbackInOrder seen := by
  obtain ⟨one, two, filled⟩ := crowd_fills
  obtain ⟨front, following, rest, split⟩ := readings_split
  rw [split] at filled
  obtain ⟨run, overtaken⟩ := overtakes one two front following rest
  obtain ⟨seen, ran, offered, entered, received⟩ := filled.trans overtaken
  replace ran : Runs (Step crowd 2) _ _ _ := ran.mono fun _ _ _ moved => moved.1
  rw [← split] at offered entered
  have received : delivered seen = readings eventChannelCapacity ++ [lateReading, heldReading] := by
    rw [received, split]
    simp
  refine ⟨seen, run, ran, ?_⟩
  intro inOrder
  have pair : [heldReading, lateReading].Sublist (readings eventChannelCapacity ++ [lateReading, heldReading]) := by
    rw [← received]
    apply inOrder
    · decide
    · rw [offered]
      exact List.sublist_append_right _ _
    · simp [entered]
    · simp [received]
  have last := pair.filter fun event => decide (eventChannelCapacity ≤ event.ticket)
  have none : (readings eventChannelCapacity).filter (fun event => decide (eventChannelCapacity ≤ event.ticket)) = [] := by
    rw [List.filter_eq_nil_iff]
    intro event member
    obtain ⟨ticket, small, rfl⟩ := List.mem_map.mp member
    intro large
    exact Nat.not_le.mpr (List.mem_range.mp small) (of_decide_eq_true large)
  rw [List.filter_append, none, List.nil_append] at last
  revert last
  decide

end

end UringMqtt.Proofs.CallbackOrder

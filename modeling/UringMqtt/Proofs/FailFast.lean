import UringMqtt.Broker.Shutdown
import UringMqtt.Proofs.StartupAgreement

/-! One party takes the signal ends of all workers, and it closes them. A worker
that dies behind the go barrier takes its siblings with it; one that dies in front
of it touches nothing. -/

namespace UringMqtt.Proofs.FailFast
open Lib Broker

variable {workers : Nat} {broker after : Broker workers}

def Taking.holds : Taking workers → Bool
  | .took (some _) | .closing _ | .done true => true
  | _ => false

def Taking.inHand : Taking workers → List (Fin workers)
  | .took (some ends) | .closing ends => ends
  | _ => []

def Taking.logged : Taking workers → Bool
  | .closing _ | .done true => true
  | _ => false

def Held (party : Party workers) (broker : Broker workers) : Prop :=
  match broker.taking party with
  | .took (some ends) => ends = List.finRange workers ∧ (∀ id, broker.isOpen id = true) ∧ broker.lines = []
  | .closing ends => ends.Nodup ∧ (∀ id, broker.isOpen id = true ↔ id ∈ ends) ∧ broker.lines = [party.line]
  | .done true => (∀ id, broker.isOpen id = false) ∧ broker.lines = [party.line]
  | _ => False

inductive Placed (broker : Broker workers) : Prop
  | shared (full : broker.cell = some (List.finRange workers))
      (before : ∀ party, broker.taking party = .idle ∨ broker.taking party = .entering)
      (isOpen : ∀ id, broker.isOpen id = true) (silent : broker.lines = [])
  | taken (party : Party workers) (empty : broker.cell = none) (held : Held party broker)
      (others : ∀ other, other ≠ party → Taking.holds (broker.taking other) = false)

structure Valid (broker : Broker workers) : Prop where
  startup : StartupAgreement.Valid broker.startup
  placed : Placed broker
  armed : ∀ id, broker.taking (.guard id) ≠ .idle → broker.startup.stage id = .live

private theorem Valid.initial (workers : Nat) : Valid (Broker.initial workers) :=
  ⟨.initial workers, .shared rfl (fun _ => .inl rfl) (fun _ => rfl) rfl, fun _ busy => absurd rfl busy⟩

/-! ### Startup goes on around it -/

variable {id : Fin workers} {party : Party workers} {next : Taking workers} {actor : Actor workers}

private theorem live_updated {stage : Fin workers → WorkerStage} {other : Fin workers} {next : WorkerStage}
    (elsewhere : stage other ≠ .live) (live : stage id = .live) : Function.update stage other next id = .live := by
  grind [Function.update_apply]

private theorem live_kept {startup later : Startup workers} {thread : Thread workers} (valid : StartupAgreement.Valid startup)
    (moved : startup.Step thread later) (live : startup.stage id = .live) :
    later.stage id = .live := by
  cases moved with
  | spawned worker here =>
    have placed := valid.placed worker
    rw [here] at placed
    exact live_updated (by simp [placed.1.mpr (Nat.le_refl _)]) live
  | built worker here | bound worker here | converted worker here | prepared worker here | released worker here
  | quit worker here | finished worker here | buildFailed worker here | bindFailed worker here | convertFailed worker here
  | reportedSuccess worker here | reportedFailure worker here | orphaned worker here | passed worker here
  | turnedBack worker here =>
    exact live_updated (by simp [here]) live
  | panicked worker here =>
    refine live_updated ?_ live
    intro alive
    rw [alive] at here
    cases here
  | _ => exact live

/-! ### The party that has the ends -/

theorem held_holds (held : Held party broker) : Taking.holds (broker.taking party) = true := by
  grind [Held, Taking.holds]

theorem Placed.moved (placed : Placed broker)
    (without : Taking.holds (broker.taking party) = false) (still : Taking.holds next = false)
    (before : broker.taking party = .idle ∨ broker.cell = none) (early : broker.taking party = .idle → next = .entering) :
    Placed (broker.move party next) := by
  cases placed with
  | shared full idle isOpen silent =>
    refine .shared full ?_ isOpen silent
    simp only [Broker.move]
    grind [Function.update_apply]
  | taken taker empty held others =>
    have different : taker ≠ party := fun same => by simp [held_holds (same ▸ held)] at without
    refine .taken taker empty ?_ ?_
    · simpa only [Held, Broker.move, Function.update_of_ne different] using held
    · simp only [Broker.move]
      grind [Function.update_apply]

theorem Placed.alone (placed : Placed broker) (party : Party workers) (holds : Taking.holds (broker.taking party) = true) :
    broker.cell = none ∧ Held party broker ∧ ∀ other, other ≠ party → Taking.holds (broker.taking other) = false := by
  cases placed with
  | shared full before isOpen silent => grind [Taking.holds]
  | taken taker empty held others => grind

theorem Placed.went {later : Broker workers} (placed : Placed broker)
    (holds : Taking.holds (broker.taking party) = true) (empty : later.cell = broker.cell)
    (taking : later.taking = Function.update broker.taking party next) (held : Held party later) : Placed later := by
  obtain ⟨none, _, others⟩ := placed.alone party holds
  refine .taken party (empty.trans none) held ?_
  intro other apart
  rw [taking, Function.update_of_ne apart]
  exact others other apart

private theorem placed_step (valid : Valid broker) (moved : Step broker actor after) : Placed after := by
  have placed := valid.placed
  cases moved with
  | startup moved =>
    cases placed with
    | shared full before isOpen silent => exact .shared full before isOpen silent
    | taken taker empty held others => exact .taken taker empty held others
  | exits _ _ here | calls _ _ here | drops _ here => exact placed.moved (by rw [here]; rfl) rfl (.inl here) fun _ => rfl
  | takes party here =>
    cases placed with
    | shared full before isOpen silent =>
      refine .taken party rfl (by simp [Held, Broker.move, full, isOpen, silent]) ?_
      simp only [Broker.move]
      grind [Function.update_apply, Taking.holds]
    | taken taker empty held others =>
      have missed : Placed (broker.move party (.took none)) :=
        (Placed.taken taker empty held others).moved (by rw [here]; rfl) rfl (.inr empty) (by simp [here])
      simpa only [empty, Broker.move] using missed
  | @logs party ends here =>
    obtain ⟨_, held, _⟩ := placed.alone party (by rw [here]; rfl)
    simp only [Held, here] at held
    obtain ⟨rfl, isOpen, silent⟩ := held
    refine placed.went (by rw [here]; rfl) rfl rfl ?_
    simp [Held, Broker.move, isOpen, silent, List.nodup_finRange]
  | misses party here =>
    have empty : broker.cell = none := by cases placed <;> grind
    exact placed.moved (by rw [here]; rfl) rfl (.inr empty) (by simp [here])
  | @closes party id ends here =>
    obtain ⟨_, held, _⟩ := placed.alone party (by rw [here]; rfl)
    refine placed.went (by rw [here]; rfl) rfl rfl ?_
    simp only [Held, here, Broker.move, Function.update_self] at held ⊢
    grind [Function.update_apply]
  | finishes party here =>
    obtain ⟨_, held, _⟩ := placed.alone party (by rw [here]; rfl)
    refine placed.went (by rw [here]; rfl) rfl rfl ?_
    simp only [Held, here, Broker.move, Function.update_self] at held ⊢
    grind

private theorem armed_step (valid : Valid broker) (moved : Step broker actor after) (id : Fin workers)
    (busy : after.taking (.guard id) ≠ .idle) : after.startup.stage id = .live := by
  have armed := valid.armed id
  cases moved with
  | startup moved => exact live_kept valid.startup moved (armed busy)
  | _ =>
    -- A guard that moves is armed already, or has just been found so.
    simp only [Broker.move] at busy ⊢
    grind [Function.update_apply]

theorem Valid.step (valid : Valid broker) (moved : Step broker actor after) : Valid after := by
  refine ⟨?_, placed_step valid moved, armed_step valid moved⟩
  cases moved with
  | startup moved => exact valid.startup.step moved
  | _ => exact valid.startup

private theorem valid_of_run {actors : List (Actor workers)} (run : Runs Step (Broker.initial workers) actors broker) :
    Valid broker :=
  run.invariant (fun _ broker => Valid broker) (Valid.initial workers) fun _ _ _ _ valid moved => valid.step moved

/-! ### One party for all -/

private theorem Held.open_iff (held : Held party broker) (id : Fin workers) :
    broker.isOpen id = true ↔ id ∈ Taking.inHand (broker.taking party) := by
  grind [Held, Taking.inHand]

theorem Held.lines (held : Held party broker) :
    broker.lines = if Taking.logged (broker.taking party) then [party.line] else [] := by
  grind [Held, Taking.logged]

private theorem logged_holds {taking : Taking workers} (logged : Taking.logged taking = true) : Taking.holds taking = true := by
  cases taking with
  | closing ends => rfl
  | done took => cases took <;> exact logged
  | _ => cases logged

private theorem taken_of_done (placed : Placed broker) {took : Bool} (ended : broker.taking party = .done took) :
    ∃ taker, Taking.holds (broker.taking taker) = true ∧ broker.cell = none ∧ Held taker broker := by
  cases placed with
  | shared full before => grind
  | taken taker empty held others => exact ⟨taker, held_holds held, empty, held⟩

private theorem lines_le (placed : Placed broker) : broker.lines.length ≤ 1 := by
  cases placed with
  | shared full before isOpen silent => simp [silent]
  | taken taker empty held others =>
    rw [held.lines]
    split <;> simp

private theorem noop_step (party : Party workers) (without : Taking.holds (broker.taking party) = false)
    (empty : broker.cell = none) (moved : Step broker (.party party) after) :
    after.cell = none ∧ after.isOpen = broker.isOpen ∧ after.lines = broker.lines := by
  cases moved with
  | exits | calls | drops | misses => exact ⟨empty, rfl, rfl⟩
  | takes party here => exact ⟨rfl, rfl, rfl⟩
  | logs party here | closes party here | finishes party here =>
    rw [here] at without
    cases without

/-- The shutdown is fail-fast, in every order of steps of the workers, the callers and
the owner. Once the exit guard of a worker that passed the barrier is through, one
party has taken the ends of all workers, and those still open are the ones it is
about to close. A worker in front of the barrier has no part in it, and startup
leaves the cell, the ends and the log alone. The ends are taken by one party, so
there is one line in the log, that party's, and everyone else's take changes
nothing. -/
theorem fail_fast {actors : List (Actor workers)} (run : Runs Step (Broker.initial workers) actors broker) :
    (∀ id took, broker.taking (.guard id) = .done took →
      ∃ party, Taking.holds (broker.taking party) = true ∧ broker.cell = none ∧
        ∀ other, broker.isOpen other = true ↔ other ∈ Taking.inHand (broker.taking party)) ∧
    (∀ id, broker.startup.stage id ≠ .live → broker.taking (.guard id) = .idle) ∧
    (∀ thread after, Step broker (.thread thread) after →
      after.cell = broker.cell ∧ after.isOpen = broker.isOpen ∧ after.lines = broker.lines) ∧
    (∀ one two, Taking.holds (broker.taking one) = true → Taking.holds (broker.taking two) = true → one = two) ∧
    (∀ party, Taking.logged (broker.taking party) = true → broker.lines = [party.line]) ∧
    broker.lines.length ≤ 1 ∧
    (∀ party took, broker.taking party = .done took →
      (∀ other, broker.taking other = .idle ∨ ∃ took, broker.taking other = .done took) →
      ∃ taker, broker.taking taker = .done true ∧ broker.lines = [taker.line] ∧ ∀ id, broker.isOpen id = false) ∧
    (∀ party after, Taking.holds (broker.taking party) = false → broker.cell = none →
      Step broker (.party party) after →
      after.cell = none ∧ after.isOpen = broker.isOpen ∧ after.lines = broker.lines) := by
  have valid := valid_of_run run
  have placed := valid.placed
  refine ⟨?_, ?_, ?_, ?_, ?_, lines_le placed, ?_, fun party _ => noop_step party⟩
  · intro id took ended
    obtain ⟨taker, holds, empty, held⟩ := taken_of_done placed ended
    exact ⟨taker, holds, empty, held.open_iff⟩
  · intro id unborn
    by_contra busy
    exact unborn (valid.armed id busy)
  · intro thread after moved
    cases moved with
    | startup moved => exact ⟨rfl, rfl, rfl⟩
  · intro one two first second
    by_contra different
    obtain ⟨_, _, others⟩ := placed.alone two second
    rw [others one different] at first
    cases first
  · intro party logged
    obtain ⟨_, held, _⟩ := placed.alone party (logged_holds logged)
    rw [held.lines, if_pos logged]
  · intro party took ended quiet
    obtain ⟨taker, holds, _, held⟩ := taken_of_done placed ended
    have ended : broker.taking taker = .done true := by grind [Taking.holds]
    simp only [Held, ended] at held
    exact ⟨taker, ended, held.2, held.1⟩

/-- The second of two workers dies, and it takes the first one's end too; a caller comes
too late. -/
theorem fail_fast_sibling :
    ∃ actors, ∃ broker : Broker 2, Runs Step (Broker.initial 2) actors broker ∧
      broker.taking (.guard 1) = .done true ∧ broker.taking (.guard 0) = .idle ∧
      broker.taking (.caller 7) = .done false ∧ broker.lines = [(Party.guard (1 : Fin 2)).line] ∧
      broker.isOpen 0 = false := by
  have spawned : Runs Step (Broker.initial 2) _ _ :=
    ((((Runs.start.next (.startup (.paired rfl Nat.two_pos))).next (.startup (.paired rfl Nat.one_lt_two))).next
      (.startup (.opened rfl))).next (.startup (.spawned 0 rfl))).next (.startup (.spawned 1 rfl))
  have first : Runs Step (Broker.initial 2) _ _ :=
    (((((spawned.next (.startup (.built 0 rfl))).next (.startup (.bound 0 rfl))).next
      (.startup (.converted 0 rfl))).next (.startup (.prepared 0 rfl))).next
      (.startup (.reportedSuccess 0 rfl))).next (.startup (.released 0 rfl))
  have second : Runs Step (Broker.initial 2) _ _ :=
    (((((first.next (.startup (.built 1 rfl))).next (.startup (.bound 1 rfl))).next
      (.startup (.converted 1 rfl))).next (.startup (.prepared 1 rfl))).next
      (.startup (.reportedSuccess 1 rfl))).next (.startup (.released 1 rfl))
  have told : Runs Step (Broker.initial 2) _ _ :=
    ((((second.next (.startup (.supervises rfl))).next (.startup (.heard rfl rfl))).next
      (.startup (.heard rfl rfl))).next (.startup (.told 0 rfl (Nat.zero_le _)))).next
      (.startup (.told 1 rfl (by decide)))
  have started : Runs Step (Broker.initial 2) _ _ :=
    ((told.next (.startup (.succeeded rfl (.inl (Nat.le_refl _))))).next (.startup (.passed 0 rfl rfl))).next
      (.startup (.passed 1 rfl rfl))
  have called : Runs Step (Broker.initial 2) _ _ :=
    (((started.next (.exits 1 rfl rfl)).next (.calls 7 rfl rfl)).next (.takes (.guard 1) rfl)).next
      (.takes (.caller 7) rfl)
  have ended : Runs Step (Broker.initial 2) _ _ :=
    ((((called.next (.logs (.guard 1) rfl)).next (.misses (.caller 7) rfl)).next (.closes (.guard 1) rfl)).next
      (.closes (.guard 1) rfl)).next (.finishes (.guard 1) rfl)
  obtain ⟨_, _, _, _, logged, _⟩ := fail_fast ended
  exact ⟨_, _, ended, rfl, rfl, rfl, logged (.guard 1) rfl, rfl⟩

end UringMqtt.Proofs.FailFast

import Mathlib.Algebra.Order.BigOperators.Group.Finset
import Mathlib.Data.Fintype.Card
import Mathlib.Data.List.Nodup
import UringMqtt.Broker.Startup
import UringMqtt.Lib.Runs

/-! The threads of a starting broker agree: all workers pass the go barrier, or
none does. The supervisor's decision is one for all, it is go only when every
worker reported success, and nobody is left waiting for it. -/

namespace UringMqtt.Proofs.StartupAgreement
open Lib Startup

variable {workers : Nat} {state after : Startup workers}

/-! ### What the calling thread knows about one worker -/

/-- A worker's stage and what its go channel was sent, by the calling thread's stage. -/
def Placed (main : MainStage) (id : Fin workers) (stage : WorkerStage) (sent : List Bool) : Prop :=
  match main with
  | .pairing _ => stage = .unspawned ∧ sent = []
  | .spawning next => (stage = .unspawned ↔ next ≤ id) ∧ sent = []
  | .supervising _ => stage ≠ .unspawned ∧ sent = []
  | .deciding next spawned verdict =>
    (stage = .unspawned ↔ spawned ≤ id) ∧ sent = if id < next then [approves verdict] else []
  | .joining next spawned _ =>
    (stage = .unspawned ↔ spawned ≤ id) ∧ (sent = if id ≤ spawned then [false] else []) ∧
      (id < next → stage = .finished)
  | .returned (.ok ()) => stage ≠ .unspawned ∧ sent = [true]
  | .returned (.error _) => (stage = .unspawned ∨ stage = .finished) ∧ true ∉ sent

/-- A worker takes from its go channel once, and lives only on a go. -/
def Heeds (stage : WorkerStage) (go : Channel Bool) : Prop :=
  match stage with
  | .live => go.received = [true]
  | .leaving | .finished => True
  | _ => go.received = []

def early : WorkerStage → Bool
  | .unspawned | .failing _ => true
  | stage => stage.unreported

/-- Every worker reports once, and stands at the barrier behind a success until it
is told to turn back. -/
@[grind cases] structure Reported (stage : Fin workers → WorkerStage) (ready : Channel (Fin workers × Except StartupError Unit))
    (go : Fin workers → Channel Bool) : Prop where
  distinct : (ready.sent.map Prod.fst).Nodup
  silent : ∀ id, early (stage id) = true → id ∉ ready.sent.map Prod.fst
  kept : ∀ id, (id, .ok ()) ∈ ready.sent →
    stage id = .releasing ∨ stage id = .awaiting ∨ stage id = .live ∨ false ∈ (go id).sent

def Tally (main : MainStage) (ready : Channel (Fin workers × Except StartupError Unit)) : Prop :=
  match main with
  | .pairing _ | .spawning _ => ready.received = []
  | .supervising count => count = ready.received.length ∧ ∀ report ∈ ready.received, report.2 = .ok ()
  | .deciding next spawned (.ok ()) => next ≤ spawned + 1 ∧ spawned = workers ∧ ∀ id, (id, .ok ()) ∈ ready.sent
  | .deciding next spawned (.error _) => next ≤ spawned + 1
  | .returned (.ok ()) => ∀ id, (id, .ok ()) ∈ ready.sent
  | _ => True

def InRange (workers : Nat) : MainStage → Prop
  | .pairing made => made ≤ workers ∧ 0 < workers
  | .spawning next => next ≤ workers ∧ 0 < workers
  | .supervising count => count < workers
  | .deciding _ spawned _ => spawned ≤ workers
  | .joining next spawned _ => next ≤ spawned ∧ spawned ≤ workers
  | .returned _ => True

structure Valid (state : Startup workers) : Prop where
  ranged : InRange workers state.main
  placed : ∀ id, Placed state.main id (state.stage id) (state.go id).sent
  heeds : ∀ id, Heeds (state.stage id) (state.go id)
  reported : Reported state.stage state.ready state.go
  tally : Tally state.main state.ready

theorem Valid.initial (workers : Nat) : Valid (Startup.initial workers) := by
  have none : ∀ id : Fin workers, workers ≠ 0 := fun id zero => absurd id.isLt (by omega)
  refine ⟨?_, ?_, fun _ => rfl, ⟨.nil, ?_, ?_⟩, ?_⟩
  · simp only [Startup.initial]
    split
    · trivial
    · exact ⟨Nat.zero_le _, by omega⟩
  · intro id
    simp [Startup.initial, none id, Placed]
  · intro id _
    simp [Startup.initial]
  · intro id sent
    simp [Startup.initial] at sent
  · simp only [Startup.initial]
    split
    · trivial
    · rfl

private theorem everyone_in {reports : List (Fin workers)} (distinct : reports.Nodup) (full : reports.length = workers)
    (id : Fin workers) : id ∈ reports := by
  have whole : reports.toFinset = Finset.univ := by
    apply Finset.eq_univ_of_card
    rw [List.toFinset_card_of_nodup distinct, full, Fintype.card_fin]
  have member : id ∈ reports.toFinset := whole ▸ Finset.mem_univ id
  exact List.mem_toFinset.mp member

private theorem unanimous {reports : List (Fin workers × Except StartupError Unit)} (distinct : (reports.map Prod.fst).Nodup)
    (full : reports.length = workers) (successes : ∀ report ∈ reports, report.2 = .ok ()) (id : Fin workers) :
    (id, .ok ()) ∈ reports := by
  have member := everyone_in distinct (by simpa using full) id
  obtain ⟨report, found, rfl⟩ := List.mem_map.mp member
  have success := successes report found
  obtain ⟨id, result⟩ := report
  cases success
  exact found

/-! ### A worker's step -/

variable {main : MainStage} {id : Fin workers} {stage next : WorkerStage} {go : Fin workers → Channel Bool} {count spawned : Nat}
  {thread : Thread workers} {ready : Channel (Fin workers × Except StartupError Unit)} {threads : List (Thread workers)}

theorem Placed.moved {sent : List Bool}
    (placed : Placed main id stage sent) (spawned : stage ≠ .unspawned) (unfinished : stage ≠ .finished)
    (stays : next ≠ .unspawned) : Placed main id next sent := by
  cases main with
  | returned result =>
    cases result with
    | error => grind [Placed]
    | ok value =>
      cases value
      grind [Placed]
  | _ => grind [Placed]

theorem forall_updated (holds : Fin workers → WorkerStage → Prop) {stage : Fin workers → WorkerStage}
    (before : ∀ other, holds other (stage other)) (moved : holds id (stage id) → holds id next)
    (other : Fin workers) : holds other (Function.update stage id next other) := by
  by_cases same : other = id
  · subst same
    simpa only [Function.update_self] using moved (before other)
  · simpa only [Function.update_of_ne same] using before other

private theorem placed_moved (valid : Valid state) (id : Fin workers) (spawned : state.stage id ≠ .unspawned)
    (unfinished : state.stage id ≠ .finished) (stays : next ≠ .unspawned) (other : Fin workers) :
    Placed state.main other ((state.move id next).stage other) (state.go other).sent :=
  forall_updated (fun other stage => Placed state.main other stage (state.go other).sent) valid.placed
    (fun placed => placed.moved spawned unfinished stays) other

theorem sent_update {later : Channel Bool}
    (same : later.sent = (go id).sent) (other : Fin workers) : (Function.update go id later other).sent = (go other).sent := by
  by_cases equal : other = id
  · subst equal
    rw [Function.update_self, same]
  · rw [Function.update_of_ne equal]

/-! ### Every step keeps the threads in place -/

private theorem placed_heard {sent : List Bool} (placed : Placed (.supervising count) id stage sent) (report : Except StartupError Unit) :
    Placed (heard workers count report) id stage sent := by
  cases report with
  | error => grind [Placed, heard]
  | ok value =>
    cases value
    grind [Placed, heard]

private theorem placed_step (valid : Valid state) (moved : Step state thread after) (id : Fin workers) :
    Placed after.main id (after.stage id) (after.go id).sent := by
  have placed := valid.placed id
  have tally := valid.tally
  cases moved with
  | heard here received =>
    rw [here] at placed
    exact placed_heard placed _
  | succeeded here all | aborts here all => grind [Placed, Tally, approves]
  | panicked worker here =>
    refine placed_moved valid worker ?_ ?_ (by simp) id <;> intro stage <;> rw [stage] at here <;> cases here
  | passed worker here received | turnedBack worker here received =>
    have same := sent_update (Channel.recv_eq_some received).2.2 id
    dsimp only
    rw [same]
    exact placed_moved valid worker (by simp [here]) (by simp [here]) (by simp) id
  | built worker here | bound worker here | converted worker here | prepared worker here | released worker here
  | quit worker here | finished worker here | buildFailed worker here | bindFailed worker here | convertFailed worker here
  | reportedSuccess worker here | reportedFailure worker here | orphaned worker here =>
    exact placed_moved valid worker (by simp [here]) (by simp [here]) (by simp) id
  | spawned | told =>
    simp only [Startup.move]
    grind [Placed, Function.update_apply, Channel.sent_send]
  | _ => grind [Placed]

def waiting : WorkerStage → Bool
  | .live | .leaving | .finished => false
  | _ => true

theorem Heeds.untaken {go : Channel Bool} (heeds : Heeds stage go) (waits : waiting stage = true) :
    go.received = [] := by
  cases stage <;> first | exact heeds | cases waits

theorem Heeds.moved {go : Channel Bool} (heeds : Heeds stage go)
    (free : waiting stage = true ∨ waiting next = false) (unborn : next ≠ .live) : Heeds next go := by
  cases next with
  | live => exact absurd rfl unborn
  | leaving | finished => trivial
  | _ => exact heeds.untaken (free.resolve_right Bool.noConfusion)

theorem Heeds.sent {go : Channel Bool} (heeds : Heeds stage go) (told : Bool) :
    Heeds stage (go.send told) := by
  cases stage <;> exact heeds

private theorem heeds_moved (valid : Valid state) (id : Fin workers)
    (free : waiting (state.stage id) = true ∨ waiting next = false) (unborn : next ≠ .live) (other : Fin workers) :
    Heeds ((state.move id next).stage other) (state.go other) :=
  forall_updated (fun other stage => Heeds stage (state.go other)) valid.heeds
    (fun heeds => heeds.moved free unborn) other

private theorem heeds_step (valid : Valid state) (moved : Step state thread after) (id : Fin workers) :
    Heeds (after.stage id) (after.go id) := by
  have heeds := valid.heeds id
  cases moved with
  | spawned worker here =>
    have placed := valid.placed worker
    rw [here] at placed
    exact heeds_moved valid worker (.inl (by simp [placed.1.mpr (Nat.le_refl _), waiting])) (by simp) id
  | built worker here | bound worker here | converted worker here | prepared worker here | released worker here
  | buildFailed worker here | bindFailed worker here | convertFailed worker here
  | reportedSuccess worker here | reportedFailure worker here =>
    exact heeds_moved valid worker (.inl (by simp [here, waiting])) (by simp) id
  | quit worker here | finished worker here | orphaned worker here | panicked worker here =>
    exact heeds_moved valid worker (.inr rfl) (by simp) id
  | passed worker here received | turnedBack worker here received =>
    have taken := (Channel.recv_eq_some received).2.1
    simp only [Startup.move]
    grind [Function.update_apply, Heeds]
  | told worker here more => grind [Function.update_apply, Heeds.sent]
  | _ => exact heeds

theorem Tally.sent
    (tally : Tally main ready) (report : Fin workers × Except StartupError Unit) : Tally main (ready.send report) := by
  cases main with
  | deciding next spawned verdict =>
    cases verdict with
    | error => grind [Tally, Channel.sent_send]
    | ok value =>
      cases value
      grind [Tally, Channel.sent_send]
  | returned result =>
    cases result with
    | error => grind [Tally, Channel.sent_send]
    | ok value =>
      cases value
      grind [Tally, Channel.sent_send]
  | _ => exact tally

private theorem tally_heard {report : Except StartupError Unit}
    {later : Channel (Fin workers × Except StartupError Unit)} (tally : Tally (.supervising count) ready)
    (distinct : (ready.sent.map Prod.fst).Nodup) (received : ready.recv = some ((id, report), later)) :
    Tally (heard workers count report) later := by
  obtain ⟨_, taken, same⟩ := Channel.recv_eq_some received
  obtain ⟨rfl, successes⟩ := tally
  cases report with
  | error reason => exact Nat.zero_le _
  | ok value =>
    have all : ∀ report ∈ later.received, report.2 = .ok () := by
      intro other member
      rw [taken] at member
      rcases List.mem_append.mp member with earlier | new
      · exact successes other earlier
      · rw [List.mem_singleton.mp new]
    have length : later.received.length = ready.received.length + 1 := by simp [taken]
    simp only [heard]
    split
    next full =>
      refine ⟨Nat.zero_le _, rfl, ?_⟩
      intro other
      rw [← same, Channel.sent, List.map_append] at distinct
      exact List.mem_append_left _ (unanimous (List.nodup_append.mp distinct).1 (length.trans full) all other)
    · exact ⟨length.symm, all⟩

private theorem tally_step (valid : Valid state) (moved : Step state thread after) :
    Tally after.main after.ready := by
  have tally := valid.tally
  cases moved with
  | heard here received =>
    rw [here] at tally
    exact tally_heard tally valid.reported.distinct received
  | reportedSuccess worker here | reportedFailure worker here => exact tally.sent _
  | @told worker spawned verdict here more =>
    cases verdict with
    | error => grind [Tally]
    | ok value =>
      cases value
      grind [Tally]
  | _ => grind [Tally, Startup.move]

/-! ### Reports -/

section
variable {stage : Fin workers → WorkerStage} {ready : Channel (Fin workers × Except StartupError Unit)}
  {go : Fin workers → Channel Bool}

variable {next : WorkerStage}

theorem Reported.moved (reported : Reported stage ready go) (id : Fin workers)
    (late : early (stage id) = true ∨ early next = false)
    (stands : stage id = .releasing ∨ stage id = .awaiting ∨ stage id = .live →
      next = .releasing ∨ next = .awaiting ∨ next = .live ∨ false ∈ (go id).sent) :
    Reported (Function.update stage id next) ready go := by
  constructor <;> grind [Function.update_apply]

private theorem Reported.told (reported : Reported stage ready go) {later : Fin workers → Channel Bool}
    (grows : ∀ id, false ∈ (go id).sent → false ∈ (later id).sent) : Reported stage ready later := by
  constructor <;> grind

private theorem Reported.spoke (reported : Reported stage ready go) (id : Fin workers)
    {report : Except StartupError Unit} (first : early (stage id) = true) (later : early next = false)
    (stands : report = .ok () → next = .releasing) :
    Reported (Function.update stage id next) (ready.send (id, report)) go := by
  have silent := reported.silent id first
  constructor <;> grind [Function.update_apply, Channel.sent_send]

end

theorem answered (valid : Valid state) {result : Except StartupError Unit}
    (here : state.stage id = .awaiting) (returned : state.main = .returned result) : (state.go id).queue = [true] := by
  have placed := valid.placed id
  have untaken := (valid.heeds id).untaken (by rw [here]; rfl)
  rw [returned, here] at placed
  cases result with
  | error reason => exact absurd placed.1 (by simp)
  | ok value => simpa [Channel.sent, untaken] using placed.2

private theorem reported_step (valid : Valid state) (moved : Step state thread after) :
    Reported after.stage after.ready after.go := by
  have reported := valid.reported
  cases moved with
  | spawned worker here =>
    have placed := valid.placed worker
    rw [here] at placed
    have unspawned := placed.1.mpr (Nat.le_refl _)
    exact reported.moved worker (.inl (by rw [unspawned]; rfl)) (by simp [unspawned])
  | heard here received =>
    have same := (Channel.recv_eq_some received).2.2
    exact ⟨same ▸ reported.distinct, same ▸ reported.silent, same ▸ reported.kept⟩
  | told worker here more =>
    apply reported.told
    intro id member
    by_cases same : id = worker
    · subst same
      simp [member]
    · simpa only [Function.update_of_ne same] using member
  | built worker here | bound worker here | converted worker here | prepared worker here
  | buildFailed worker here | bindFailed worker here | convertFailed worker here =>
    exact reported.moved worker (.inl (by rw [here]; rfl)) (by simp [here])
  | released worker here => exact reported.moved worker (.inr rfl) fun _ => .inr (.inl rfl)
  | quit worker here | finished worker here => exact reported.moved worker (.inr rfl) (by simp [here])
  | panicked worker here =>
    refine reported.moved worker (.inr rfl) ?_
    rintro (stage | stage | stage) <;> rw [stage] at here <;> cases here
  | reportedSuccess worker here => exact reported.spoke worker (by rw [here]; rfl) rfl fun _ => rfl
  | reportedFailure worker here => exact reported.spoke worker (by rw [here]; rfl) rfl (by simp)
  | passed worker here received =>
    apply Reported.told (reported.moved worker (.inr rfl) fun _ => .inr (.inr (.inl rfl)))
    intro id member
    dsimp only
    rwa [sent_update (Channel.recv_eq_some received).2.2]
  | turnedBack worker here received =>
    obtain ⟨queued, _, same⟩ := Channel.recv_eq_some received
    have told : false ∈ (state.go worker).sent := List.mem_append_right _ (by simp [queued])
    apply Reported.told (reported.moved worker (.inr rfl) fun _ => .inr (.inr (.inr told)))
    intro id member
    dsimp only
    rwa [sent_update same]
  | orphaned worker here returned drained =>
    rw [answered valid here returned] at drained
    cases drained
  | _ => exact reported

private theorem inRange_step (valid : Valid state) (moved : Step state thread after) :
    InRange workers after.main := by
  have ranged := valid.ranged
  cases moved with
  | @heard count id report ready here received =>
    cases report with
    | error => grind [InRange, heard]
    | ok value =>
      cases value
      grind [InRange, heard]
  | _ => grind [InRange, Startup.move]

/-- Step: the threads stay in place. -/
theorem Valid.step (valid : Valid state) (moved : Step state thread after) : Valid after :=
  ⟨inRange_step valid moved, placed_step valid moved, heeds_step valid moved, reported_step valid moved, tally_step valid moved⟩

/-- Run: in every order of steps. -/
private theorem valid_of_run (run : Runs Step (initial workers) threads state) : Valid state :=
  run.invariant (fun _ state => Valid state) (Valid.initial workers) fun _ _ _ _ valid moved => valid.step moved

/-! ### Nobody waits for nobody -/

def CanStep (state : Startup workers) (thread : Thread workers) : Prop := ∃ after, Step state thread after

theorem worker_canStep (spawned : state.stage id ≠ .unspawned) (away : state.stage id ≠ .awaiting)
    (unfinished : state.stage id ≠ .finished) (dead : state.stage id ≠ .live) : CanStep state (.worker id) := by
  cases here : state.stage id with
  | unspawned => exact absurd here spawned
  | building => exact ⟨_, .built id here⟩
  | binding => exact ⟨_, .bound id here⟩
  | converting => exact ⟨_, .converted id here⟩
  | preparing => exact ⟨_, .prepared id here⟩
  | reporting => exact ⟨_, .reportedSuccess id here⟩
  | failing error => exact ⟨_, .reportedFailure id here⟩
  | releasing => exact ⟨_, .released id here⟩
  | quitting => exact ⟨_, .quit id here⟩
  | awaiting => exact absurd here away
  | leaving => exact ⟨_, .finished id here⟩
  | finished => exact absurd here unfinished
  | live => exact absurd here dead

theorem holder_canStep (holds : (state.stage id).holdsReady = true) : CanStep state (.worker id) := by
  apply worker_canStep <;> intro stage <;> rw [stage] at holds <;> cases holds

theorem told_canStep (here : state.stage id = .awaiting) (told : (state.go id).queue ≠ []) :
    CanStep state (.worker id) := by
  obtain ⟨decision, go, received⟩ := Channel.recv_of_queued told
  cases decision with
  | true => exact ⟨_, .passed id here received⟩
  | false => exact ⟨_, .turnedBack id here received⟩

theorem deciding_canStep {next : Nat} {verdict : Except StartupError Unit}
    (here : state.main = .deciding next spawned verdict) : CanStep state .main := by
  by_cases more : next < workers ∧ next ≤ spawned
  · exact ⟨_, .told ⟨next, more.1⟩ here more.2⟩
  · have all : workers ≤ next ∨ spawned < next := by omega
    cases verdict with
    | ok value => exact ⟨_, .succeeded here all⟩
    | error reason => exact ⟨_, .aborts here all⟩

theorem supervisor_waits (here : state.main = .supervising count) (blocked : ¬ CanStep state .main) :
    ∃ id, (state.stage id).holdsReady = true := by
  by_contra nobody
  simp only [not_exists, Bool.not_eq_true] at nobody
  apply blocked
  by_cases drained : state.ready.queue = []
  · exact ⟨_, .disconnected here drained nobody⟩
  · obtain ⟨⟨id, report⟩, ready, received⟩ := Channel.recv_of_queued drained
    exact ⟨_, .heard here received⟩

private theorem barrier_waits (valid : Valid state) (here : state.stage id = .awaiting)
    (blocked : ¬ CanStep state (.worker id)) : ∃ thread, thread ≠ .worker id ∧ CanStep state thread := by
  have untold : (state.go id).queue = [] := by
    by_contra told
    exact blocked (told_canStep here told)
  have unsent : (state.go id).sent = [] := by
    rw [Channel.sent, (valid.heeds id).untaken (by rw [here]; rfl), untold, List.append_nil]
  have placed := valid.placed id
  have ranged := valid.ranged
  rw [here, unsent] at placed
  by_cases free : CanStep state .main
  · exact ⟨.main, by simp, free⟩
  cases main : state.main with
  | supervising count =>
    obtain ⟨other, holds⟩ := supervisor_waits main free
    refine ⟨.worker other, ?_, holder_canStep holds⟩
    intro same
    cases same
    rw [here] at holds
    cases holds
  | pairing made =>
    rw [main] at placed
    exact absurd placed.1 (by simp)
  | spawning next =>
    rw [main] at ranged
    rcases Nat.lt_or_eq_of_le ranged.1 with more | rfl
    · exact absurd ⟨_, .spawned ⟨next, more⟩ main⟩ free
    · exact absurd ⟨_, .supervises main⟩ free
  | deciding next spawned verdict => exact absurd (deciding_canStep main) free
  | joining next spawned error =>
    rw [main] at placed
    have inside : (id : Nat) ≤ spawned := by
      by_contra outside
      exact absurd (placed.1.mpr (by omega)) (by simp)
    simp [Placed, inside] at placed
  | returned result => exact absurd (answered valid here main) (by simp [untold])

/-! ### Startup ends -/

def stageRank : WorkerStage → Nat
  | .unspawned => 10
  | .building => 9
  | .binding => 8
  | .converting => 7
  | .preparing => 6
  | .reporting | .failing _ => 5
  | .releasing => 4
  | .quitting | .awaiting => 3
  | .leaving => 2
  | .finished | .live => 0

def mainRank (workers : Nat) : MainStage → Nat
  | .pairing made => 4 * workers + 8 + (workers - made)
  | .spawning next => 3 * workers + 7 + (workers - next)
  | .supervising count => 2 * workers + 6 + (workers - count)
  | .deciding next _ _ => workers + 3 + (workers - next)
  | .joining next _ _ => 1 + (workers - next)
  | .returned _ => 0

def rank (state : Startup workers) : Nat := mainRank workers state.main + ∑ id, stageRank (state.stage id)

private theorem rank_initial (workers : Nat) : rank (initial workers) ≤ 15 * workers + 8 := by
  have main : mainRank workers (initial workers).main ≤ 5 * workers + 8 := by
    simp only [Startup.initial]
    split <;> simp only [mainRank] <;> omega
  have threads : ∑ id, stageRank ((initial workers).stage id) = 10 * workers := by
    simp [Startup.initial, stageRank, Nat.mul_comm]
  rw [rank, threads]
  omega

theorem stages_fall {stage : Fin workers → WorkerStage} (falls : stageRank next < stageRank (stage id)) :
    ∑ other, stageRank (Function.update stage id next other) < ∑ other, stageRank (stage other) := by
  apply Finset.sum_lt_sum
  · intro other _
    apply forall_updated (fun other moved => stageRank moved ≤ stageRank (stage other)) (fun _ => Nat.le_refl _)
    intro _
    exact Nat.le_of_lt falls
  · exact ⟨id, Finset.mem_univ id, by simpa only [Function.update_self] using falls⟩

private theorem rank_moved (falls : stageRank next < stageRank (state.stage id)) :
    rank { state.move id next with ready, go } < rank state :=
  Nat.add_lt_add_left (stages_fall falls) _

private theorem rank_main (falls : mainRank workers main < mainRank workers state.main) :
    rank { state with main, ready, go } < rank state :=
  Nat.add_lt_add_right falls _

private theorem rank_heard (bound : count < workers) (report : Except StartupError Unit) :
    mainRank workers (heard workers count report) < mainRank workers (.supervising count) := by
  cases report with
  | error reason =>
    simp only [heard, mainRank]
    omega
  | ok value =>
    simp only [heard]
    split <;> simp only [mainRank] <;> omega

/-- Step: every step of every thread brings startup nearer to its end. -/
private theorem rank_step (valid : Valid state) (moved : Step state thread after) :
    rank after < rank state := by
  have ranged := valid.ranged
  cases moved with
  | spawned worker here =>
    have placed := valid.placed worker
    rw [here] at placed ranged
    have unspawned := placed.1.mpr (Nat.le_refl _)
    apply Nat.add_lt_add
    · rw [here]
      simp only [mainRank]
      omega
    · exact stages_fall (by rw [unspawned]; decide)
  | paired here | pairFailed here | opened here | spawnFailed worker here | supervises here | disconnected here
  | told worker here | succeeded here | aborts here | joined worker here | failed here =>
    rw [here] at ranged
    apply rank_main
    rw [here]
    simp only [mainRank, InRange] at ranged ⊢
    omega
  | heard here received =>
    rw [here] at ranged
    apply rank_main
    rw [here]
    exact rank_heard ranged _
  | panicked worker here =>
    apply rank_moved
    cases stage : state.stage worker <;> rw [stage] at here <;> first | decide | cases here
  | built worker here | bound worker here | converted worker here | prepared worker here | released worker here
  | quit worker here | finished worker here | buildFailed worker here | bindFailed worker here | convertFailed worker here
  | reportedSuccess worker here | reportedFailure worker here | orphaned worker here | passed worker here
  | turnedBack worker here =>
    apply rank_moved
    simp [here, stageRank]

/-- Run: no order of steps is longer than the ranks of the first state allow. -/
private theorem run_length (run : Runs Step (initial workers) threads state) :
    threads.length ≤ 15 * workers + 8 := by
  have falls : Valid state ∧ rank state + threads.length ≤ rank (initial workers) := by
    apply run.invariant (fun seen state => Valid state ∧ rank state + seen.length ≤ rank (initial workers))
    · exact ⟨Valid.initial workers, Nat.le_refl _⟩
    · intro seen before thread later holds moved
      have fell := rank_step holds.1 moved
      refine ⟨holds.1.step moved, ?_⟩
      rw [List.length_append, List.length_singleton]
      omega
  have first := rank_initial workers
  omega

/-! ### Agreement -/

theorem success_placed (valid : Valid state) (returned : state.main = .returned (.ok ())) (id : Fin workers) :
    state.stage id = .live ∨
      (state.stage id = .releasing ∨ state.stage id = .awaiting) ∧ (state.go id).queue = [true] := by
  have placed := valid.placed id
  have tally := valid.tally
  rw [returned] at placed tally
  have queued : waiting (state.stage id) = true → (state.go id).queue = [true] := by
    intro waits
    have sent := placed.2
    rwa [Channel.sent, (valid.heeds id).untaken waits, List.nil_append] at sent
  rcases valid.reported.kept id (tally id) with stage | stage | stage | told
  · exact .inr ⟨.inl stage, queued (by rw [stage]; rfl)⟩
  · exact .inr ⟨.inr stage, queued (by rw [stage]; rfl)⟩
  · exact .inl stage
  · rw [placed.2] at told
    cases told with
    | tail _ rest => cases rest

private theorem joined_canStep (valid : Valid state) {error : StartupError}
    (here : state.main = .joining id spawned error) (more : id < spawned) :
    CanStep state .main ∨ CanStep state (.worker id) := by
  have placed := valid.placed id
  have heeds := valid.heeds id
  rw [here] at placed
  have sent : (state.go id).sent = [false] := by simpa [Nat.le_of_lt more] using placed.2.1
  by_cases finished : state.stage id = .finished
  · exact .inl ⟨_, .joined id here more finished⟩
  · right
    by_cases awaiting : state.stage id = .awaiting
    · apply told_canStep awaiting
      intro untold
      rw [Channel.sent, heeds.untaken (by rw [awaiting]; rfl), untold] at sent
      cases sent
    · apply worker_canStep
      · intro unspawned
        exact absurd (placed.1.mp unspawned) (by omega)
      · exact awaiting
      · exact finished
      · intro live
        rw [live] at heeds
        rw [Channel.sent, show (state.go id).received = [true] from heeds] at sent
        cases sent

theorem settled (valid : Valid state) (still : ∀ thread, ¬ CanStep state thread) :
    (state.main = .returned (.ok ()) ∧ ∀ id, state.stage id = .live) ∨
      ∃ error, state.main = .returned (.error error) ∧ ∀ id, state.stage id ≠ .live := by
  have ranged := valid.ranged
  cases main : state.main with
  | pairing made =>
    rw [main] at ranged
    rcases Nat.lt_or_eq_of_le ranged.1 with more | rfl
    · exact absurd ⟨_, .paired main more⟩ (still .main)
    · exact absurd ⟨_, .opened main⟩ (still .main)
  | spawning next =>
    rw [main] at ranged
    rcases Nat.lt_or_eq_of_le ranged.1 with more | rfl
    · exact absurd ⟨_, .spawned ⟨next, more⟩ main⟩ (still .main)
    · exact absurd ⟨_, .supervises main⟩ (still .main)
  | supervising count =>
    obtain ⟨id, holds⟩ := supervisor_waits main (still .main)
    exact absurd (holder_canStep holds) (still _)
  | deciding next spawned verdict => exact absurd (deciding_canStep main) (still .main)
  | joining next spawned error =>
    rw [main] at ranged
    rcases Nat.lt_or_eq_of_le ranged.1 with more | rfl
    · have inside : next < workers := Nat.lt_of_lt_of_le more ranged.2
      have canStep : CanStep state .main ∨ CanStep state (.worker ⟨next, inside⟩) := joined_canStep valid main more
      exact (canStep.elim (still _) (still _)).elim
    · exact absurd ⟨_, .failed main⟩ (still .main)
  | returned result =>
    cases result with
    | ok value =>
      refine .inl ⟨rfl, ?_⟩
      intro id
      rcases success_placed valid main id with live | ⟨stage | stage, told⟩
      · exact live
      · exact absurd ⟨_, .released id stage⟩ (still (.worker id))
      · exact absurd (told_canStep stage (by simp [told])) (still (.worker id))
    | error reason =>
      refine .inr ⟨reason, rfl, ?_⟩
      intro id live
      have placed := valid.placed id
      rw [main, live] at placed
      exact absurd placed.1 (by simp)

private theorem go_unanimous (valid : Valid state) (told : true ∈ (state.go id).sent) (other : Fin workers) :
    (other, .ok ()) ∈ state.ready.sent := by
  have placed := valid.placed id
  have tally := valid.tally
  cases main : state.main with
  | deciding next spawned verdict => cases verdict <;> simp only [main, Placed, Tally] at placed tally <;> grind [approves]
  | returned result => cases result <;> simp only [main, Placed, Tally] at placed tally <;> grind
  | _ => grind [Placed]

private theorem one_decision (valid : Valid state) : ∃ decision, ∀ id, ∀ told ∈ (state.go id).sent, told = decision := by
  have placed := valid.placed
  cases main : state.main with
  | deciding next spawned verdict => exact ⟨approves verdict, by grind [Placed]⟩
  | returned result =>
    refine ⟨approves result, ?_⟩
    cases result <;> simp only [main, Placed, approves] at placed ⊢ <;> grind
  | _ => exact ⟨false, by grind [Placed]⟩

/-- Startup is an agreement, in every order of the threads' steps. It takes a bounded
number of steps; where none is left the start succeeded with every worker behind
the barrier, or failed with none. A start that succeeded leaves every worker alive
or with its go in hand, one that failed leaves nobody behind the barrier. All
workers are told the same, and told to go only with every worker's success in. The
supervisor is never blocked on the reports, nor a worker on its go, without another
thread that can go on. -/
theorem startup_agreement {threads : List (Thread workers)} (run : Runs Step (initial workers) threads state) :
    threads.length ≤ 15 * workers + 8 ∧
    ((∀ thread, ¬ CanStep state thread) →
      (state.main = .returned (.ok ()) ∧ ∀ id, state.stage id = .live) ∨
        ∃ error, state.main = .returned (.error error) ∧ ∀ id, state.stage id ≠ .live) ∧
    (state.main = .returned (.ok ()) → ∀ id, state.stage id = .live ∨
      (state.stage id = .releasing ∨ state.stage id = .awaiting) ∧ (state.go id).queue = [true]) ∧
    (∀ error, state.main = .returned (.error error) → ∀ id, state.stage id ≠ .live) ∧
    (∃ decision, ∀ id, ∀ told ∈ (state.go id).sent, told = decision) ∧
    (∀ id, true ∈ (state.go id).sent → ∀ other, (other, .ok ()) ∈ state.ready.sent) ∧
    (∀ count, state.main = .supervising count → ¬ CanStep state .main → ∃ id, CanStep state (.worker id)) ∧
    (∀ id, state.stage id = .awaiting → ¬ CanStep state (.worker id) →
      ∃ thread, thread ≠ .worker id ∧ CanStep state thread) := by
  have valid := valid_of_run run
  refine ⟨run_length run, settled valid, success_placed valid, ?_, one_decision valid, ?_, ?_, ?_⟩
  · intro error returned id live
    have placed := valid.placed id
    rw [returned, live] at placed
    exact absurd placed.1 (by simp)
  · intro id told
    exact go_unanimous valid told
  · intro count here blocked
    obtain ⟨id, holds⟩ := supervisor_waits here blocked
    exact ⟨id, holder_canStep holds⟩
  · intro id here blocked
    exact barrier_waits valid here blocked

/-- The first of two workers waits at the barrier, the second cannot bind its port, and
both are joined before the caller has its error. -/
theorem startup_agreement_one_fails :
    ∃ threads, ∃ state : Startup 2, Runs Step (initial 2) threads state ∧
      state.main = .returned (.error (.io "address in use")) ∧ state.ready.sent.length = 2 ∧
      threads.length ≤ 15 * 2 + 8 ∧ ∀ id, state.stage id ≠ .live := by
  have spawned : Runs Step (initial 2) _ _ :=
    ((((Runs.start.next (.paired rfl Nat.two_pos)).next (.paired rfl Nat.one_lt_two)).next (.opened rfl)).next
      (.spawned 0 rfl)).next (.spawned 1 rfl)
  have waiting : Runs Step (initial 2) _ _ :=
    (((((spawned.next (.built 0 rfl)).next (.bound 0 rfl)).next (.converted 0 rfl)).next (.prepared 0 rfl)).next
      (.reportedSuccess 0 rfl)).next (.released 0 rfl)
  have refused : Runs Step (initial 2) _ _ :=
    (((waiting.next (.built 1 rfl)).next (.bindFailed 1 rfl "address in use")).next (.reportedFailure 1 rfl)).next
      (.quit 1 rfl)
  have decided : Runs Step (initial 2) _ _ :=
    (((refused.next (.supervises rfl)).next (.heard rfl rfl)).next (.heard rfl rfl)).next (.told 0 rfl (Nat.zero_le _))
  have ended : Runs Step (initial 2) _ _ :=
    ((((decided.next (.told 1 rfl (by decide))).next (.aborts rfl (.inl (Nat.le_refl _)))).next
      (.turnedBack 0 rfl rfl)).next (.finished 0 rfl)).next (.finished 1 rfl)
  have returned : Runs Step (initial 2) _ _ :=
    ((ended.next (.joined 0 rfl Nat.two_pos rfl)).next (.joined 1 rfl Nat.one_lt_two rfl)).next (.failed rfl)
  obtain ⟨length, _, _, failure, _⟩ := startup_agreement returned
  exact ⟨_, _, returned, rfl, rfl, length, failure _ rfl⟩

end UringMqtt.Proofs.StartupAgreement

import UringMqtt.Bench.Probe

/-! The life of a started probe. It has one holder at a time, whichever way the starter
thread and the caller of `start_probe` interleave, as long as each thread keeps to the
calls that its own part permits. -/

namespace UringMqtt.Bench
open Lib Program

def ProbeChild.pid (child : ProbeChild) : Int := child.1.toNat

theorem rawPid_eq (child : ProbeChild) : rawPid child = some child.pid := by
  rw [rawPid, if_pos child.2.2]
  rfl

/-! ### The life of a probe -/

inductive ProbeLife
  | unborn
  /-- In the hands of the starter thread. -/
  | starting (child : ProbeChild)
  /-- In the waiting send. -/
  | offered (child : ProbeChild)
  /-- In the hands of `start_probe`. -/
  | received (child : ProbeChild)
  /-- Back in the hands of the starter thread. -/
  | unsent (child : ProbeChild)
  | returned (child : ProbeChild)
  /-- In `cleanup_probe`, after so many signals. -/
  | cleaning (cleaner : Cleaner) (child : ProbeChild) (signals : Nat)
  /-- Given up by `reap_probe` after both signals, to a reaper thread if one could start. -/
  | left (cleaner : Cleaner) (child : ProbeChild)
  | reaped (cleaner : Cleaner) (child : ProbeChild)
deriving DecidableEq

namespace ProbeLife

@[grind =] def opening (cleaner : Cleaner) (child : ProbeChild) : List ProbeAct :=
  match cleaner with
  | .giveUp | .starter => [.spawned child, .cleanup cleaner child]
  | .caller => [.spawned child, .returned child, .cleanup cleaner child]

@[grind =] def signals (child : ProbeChild) : List ProbeAct := [.signalled (-child.pid), .signalled child.pid]

@[grind =] def history : ProbeLife → List ProbeAct
  | .unborn => []
  | .starting child | .offered child | .received child | .unsent child => [.spawned child]
  | .returned child => [.spawned child, .returned child]
  | .cleaning cleaner child count => opening cleaner child ++ (signals child).take count
  | .left cleaner child => opening cleaner child ++ signals child
  | .reaped cleaner child => opening cleaner child ++ signals child ++ [.reaped child]

end ProbeLife

/-! ### What a thread knows -/

/-- What a thread knows of the probe by its own calls. -/
inductive ProbeView
  | idle
  /-- The caller before it has started a thread, and while it waits for the probe. -/
  | calling
  | waiting
  | got (child : ProbeChild)
  /-- The caller inside `start_probe` with nothing to wait for. -/
  | gaveUp
  | owner (child : ProbeChild)
  /-- The starter before and after `Command::spawn`. -/
  | ready
  | spawned (child : ProbeChild)
  | failed
  | blocked (started : Started)
  | unsent (child : ProbeChild)
  | sent
  | cleaning (cleaner : Cleaner) (child : ProbeChild) (signals : Nat)
  | reaping (child : ProbeChild)
  | ended
deriving DecidableEq

namespace ProbeView

@[grind =] def cleaned : Cleaner → ProbeView
  | .giveUp => .gaveUp
  | .starter => .sent
  | .caller => .ended

def afterKill : ProbeView → ProbeView
  | .cleaning cleaner child count => .cleaning cleaner child (count + 1)
  | view => view

def afterCleanup : ProbeView → ProbeView
  | .cleaning cleaner _ _ => cleaned cleaner
  | _ => .ended

def see : Respond probePort ProbeView
  | .enter .caller, _, _ => some .calling
  | .enter .starter, _, _ => some .ready
  | .enter (.reaper child), _, _ => some (.reaping child)
  | .startStarter _, .ok (), _ => some .waiting
  | .startStarter _, .error _, _ => some .gaveUp
  | .spawn, .ok child, _ => some (.spawned child)
  | .spawn, .error _, _ => some .failed
  | .offer started, _, _ => some (.blocked started)
  | .sent, some (.ok child), _ => some (.unsent child)
  | .sent, some (.error _), _ => some .sent
  | .sent, none, _ => some .sent
  | .finish, _, _ => some .ended
  | .recvTimeout, .ok (.ok child), _ => some (.got child)
  | .tryRecv, .ok (.ok child), _ => some (.got child)
  | .giveBack (.ok child), _, _ => some (.owner child)
  | .giveBack (.error _), _, _ => some .ended
  | .cleanup cleaner child, _, _ => some (.cleaning cleaner child 0)
  | .kill _, _, view => some view.afterKill
  | .wait _, _, view => some view.afterCleanup
  | .startReaper _ _, _, view => some view.afterCleanup
  | _, _, view => some view

@[grind =] def Permits (view : ProbeView) : ProbeCall → Prop
  | .enter _ => view = .idle
  | .startStarter _ => view = .calling
  | .spawn => view = .ready
  | .offer (.ok child) => view = .spawned child
  | .offer (.error _) => view = .failed
  | .sent => ∃ started, view = .blocked started
  | .finish => view = .sent
  | .recvTimeout | .tryRecv => view = .waiting
  | .giveBack (.ok child) => view = .got child
  | .giveBack (.error _) => view = .waiting ∨ view = .gaveUp
  | .cleanup .giveUp child => view = .got child
  | .cleanup .starter child => view = .unsent child
  | .cleanup .caller child => view = .owner child
  | .kill target => ∃ cleaner child count, view = .cleaning cleaner child count ∧
      (ProbeLife.signals child)[count]? = some (.signalled target)
  | .wait child => (∃ cleaner, view = .cleaning cleaner child 2) ∨ view = .reaping child
  | .startReaper _ child => ∃ cleaner, view = .cleaning cleaner child 2
  | _ => True

@[grind =] def Bare (view : ProbeView) : Prop :=
  view = .idle ∨ view = .calling ∨ view = .waiting ∨ view = .gaveUp ∨ view = .ended

end ProbeView

/-! ### One holder -/

namespace ProbeLife

/-- What the caller knows in this life of the probe. -/
@[grind =] def Caller : ProbeLife → ProbeView → Prop
  | .received child, view => view = .got child
  | .returned child, view => view = .owner child
  | .cleaning .giveUp child count, view => view = .cleaning .giveUp child count
  | .cleaning .caller child count, view => view = .cleaning .caller child count
  | _, view => view.Bare

@[grind =] def Starter : ProbeLife → ProbeView → Prop
  | .unborn, view => view = .idle ∨ view = .ready ∨ view = .failed ∨ (∃ error, view = .blocked (.error error)) ∨
      view = .sent ∨ view = .ended
  | .starting child, view => view = .spawned child
  | .offered child, view => view = .blocked (.ok child)
  | .unsent child, view => view = .unsent child
  | .cleaning .starter child count, view => view = .cleaning .starter child count
  | _, view => (∃ child, view = .blocked (.ok child)) ∨ view = .sent ∨ view = .ended

@[grind =] def Reaper : ProbeLife → ProbeView → Prop
  | .left _ child, view => view = .idle ∨ view = .reaping child
  | .reaped _ _, view => view = .idle ∨ view = .ended
  | _, view => view = .idle

end ProbeLife

@[grind =] def Cleaner.thread : Cleaner → Nat
  | .giveUp | .caller => 0
  | .starter => 1

@[grind =] def ProbeView.thread : ProbeView → Option Nat
  | .idle | .ended => none
  | .calling | .waiting | .got _ | .gaveUp | .owner _ => some 0
  | .ready | .spawned _ | .failed | .blocked _ | .unsent _ | .sent => some 1
  | .cleaning cleaner _ _ => some cleaner.thread
  | .reaping _ => some 2

/-- The probe is in this life, and each thread knows its part of it. -/
@[grind cases]
structure ProbeAgreement (host : ProbeHost) (acts : List ProbeAct) (views : Nat → ProbeView) (life : ProbeLife) : Prop where
  history : acts = life.history
  caller : life.Caller (views 0)
  starter : life.Starter (views 1)
  reaper : life.Reaper (views 2)
  others : ∀ thread, 2 < thread → views thread = .idle
  offered : ∀ child, host.offered = some (.ok child) ↔ life = .offered child
  untaken : host.offered ≠ none → host.taken = false
  blocked : ∀ started, views 1 = .blocked started → host.offered = some started ∨ host.taken = true
  receiving : host.receiving = false →
    (∃ child, views 0 = .owner child) ∨ (∃ child count, views 0 = .cleaning .caller child count) ∨ views 0 = .ended
  fresh : views 0 = .idle ∨ views 0 = .calling → host.starter = .absent
  unstarted : host.starter = .absent ∨ host.starter = .ready → views 1 = .idle
  ended : host.starter = .ended → views 1 = .idle ∨ views 1 = .ended
  pending : ∀ child, host.reaper = some child → views 2 = .idle ∧ ∃ cleaner, life = .left cleaner child

namespace ProbeLife
variable {life : ProbeLife} {view other : ProbeView} {number : Nat}

@[grind =] def ToldByCaller (life : ProbeLife) : ProbeView → Prop
  | .got child => life = .received child
  | .owner child => life = .returned child
  | .cleaning cleaner child count => life = .cleaning cleaner child count ∧ cleaner ≠ .starter
  | .idle | .calling | .waiting | .gaveUp | .ended => True
  | _ => False

@[grind =] def ToldByStarter (life : ProbeLife) : ProbeView → Prop
  | .idle | .ready | .failed => life = .unborn
  | .spawned child => life = .starting child
  | .unsent child => life = .unsent child
  | .cleaning cleaner child count => life = .cleaning .starter child count ∧ cleaner = .starter
  | .blocked _ | .sent | .ended => True
  | _ => False

@[grind =] def ToldByReaper (life : ProbeLife) : ProbeView → Prop
  | .reaping child => ∃ cleaner, life = .left cleaner child
  | .idle | .ended => True
  | _ => False

theorem Caller.told (knows : life.Caller view) : life.ToldByCaller view := by
  rcases life with _ | _ | _ | _ | _ | _ | ⟨_ | _ | _, _, _⟩ | _ | _ <;> grind

theorem Starter.told (knows : life.Starter view) : life.ToldByStarter view := by
  rcases life with _ | _ | _ | _ | _ | _ | ⟨_ | _ | _, _, _⟩ | _ | _ <;> grind

theorem Reaper.told (knows : life.Reaper view) : life.ToldByReaper view := by
  cases life <;> grind

theorem Caller.change (knows : life.Caller view) (bare : view.Bare) (next : other.Bare) : life.Caller other := by
  rcases life with _ | _ | _ | _ | _ | _ | ⟨_ | _ | _, _, _⟩ | _ | _ <;> grind

theorem Starter.sent {started : Started} (knows : life.Starter (.blocked started)) (taken : ∀ child, life ≠ .offered child) :
    life.Starter .sent := by
  rcases life with _ | _ | _ | _ | _ | _ | ⟨_ | _ | _, _, _⟩ | _ | _ <;> grind

theorem Starter.ended (knows : life.Starter .sent) : life.Starter .ended := by
  rcases life with _ | _ | _ | _ | _ | _ | ⟨_ | _ | _, _, _⟩ | _ | _ <;> grind

private theorem Caller.seat (knows : life.Caller view) (known : view.thread = some number) : number = 0 := by
  have told := knows.told
  rcases view with _ | _ | _ | _ | _ | _ | _ | _ | _ | _ | _ | _ | ⟨_ | _ | _, _, _⟩ | _ | _ <;> grind

private theorem Starter.seat (knows : life.Starter view) (known : view.thread = some number) : number = 1 := by
  have told := knows.told
  rcases view with _ | _ | _ | _ | _ | _ | _ | _ | _ | _ | _ | _ | ⟨_ | _ | _, _, _⟩ | _ | _ <;> grind

private theorem Reaper.seat (knows : life.Reaper view) (known : view.thread = some number) : number = 2 := by
  have told := knows.told
  cases view <;> grind

end ProbeLife

/-! A thread's view changes and the others stay. -/

section
variable (views : Nat → ProbeView) (view : ProbeView)

@[grind =] theorem at_self (thread : Nat) : Function.update views thread view thread = view := Function.update_self ..
@[grind =] theorem starter_at_caller : Function.update views 0 view 1 = views 1 := rfl
@[grind =] theorem reaper_at_caller : Function.update views 0 view 2 = views 2 := rfl
@[grind =] theorem caller_at_starter : Function.update views 1 view 0 = views 0 := rfl
@[grind =] theorem reaper_at_starter : Function.update views 1 view 2 = views 2 := rfl
@[grind =] theorem caller_at_reaper : Function.update views 2 view 0 = views 0 := rfl
@[grind =] theorem starter_at_reaper : Function.update views 2 view 1 = views 1 := rfl

end

namespace ProbeAgreement
variable {host after : ProbeHost} {acts : List ProbeAct} {views : Nat → ProbeView} {life : ProbeLife} {child : ProbeChild} {thread : Nat}

theorem seat {known : ProbeView} {number : Nat} (agreement : ProbeAgreement host acts views life) (knows : views thread = known)
    (seated : known.thread = some number) : thread = number := by
  rw [← knows] at seated
  rcases thread with _ | _ | _ | thread
  · exact (agreement.caller.seat seated).symm
  · exact (agreement.starter.seat seated).symm
  · exact (agreement.reaper.seat seated).symm
  · rw [agreement.others (thread + 3) (by omega)] at seated
    cases seated

variable {cleaner : Cleaner} {count : Nat} {started : Started} {target : Int} {name : String} {which : ProbeThread}

section
variable (agreement : ProbeAgreement host acts views life)
include agreement

theorem life_of_cleaning
    (cleaning : views cleaner.thread = .cleaning cleaner child count) : life = .cleaning cleaner child count := by
  cases cleaner with
  | giveUp => exact (cleaning ▸ agreement.caller).told.1
  | starter => exact (cleaning ▸ agreement.starter).told.1
  | caller => exact (cleaning ▸ agreement.caller).told.1

theorem aside :
    ∃ life, ProbeAgreement host (acts ++ []) (Function.update views thread (views thread)) life :=
  ⟨life, by rwa [List.append_nil, Function.update_eq_self]⟩

theorem received {view : ProbeView} (waiting : views 0 = .waiting) (received : host.receive started = some after)
    (seen : ProbeView.see .tryRecv (.ok started) (views 0) = some view) :
    ∃ life, ProbeAgreement after (acts ++ []) (Function.update views 0 view) life := by
  obtain ⟨⟨_, waits⟩, ⟨⟩⟩ := Option.ite_none_right_eq_some.mp received
  rcases started with _ | child <;> cases seen
  · exact ⟨life, by rw [Function.update_eq_self]; constructor <;> grind -linarith⟩
  · obtain rfl := (agreement.offered child).mp waits
    exact ⟨.received child, by constructor <;> grind -linarith⟩

end

def Agrees (op : ProbeCall) : Prop :=
  ∀ {thread host after acts views life} {answer : op.Answer} {view}, ProbeAgreement host acts views life → (views thread).Permits op →
    ProbeHost.respond thread op answer host = some after → ProbeView.see op answer (views thread) = some view →
      ∃ life, ProbeAgreement after (acts ++ probeActs op answer) (Function.update views thread view) life

private theorem enter_agrees : Agrees (.enter which) := by
  intro thread host after acts views life answer view agreement permitted answered seen
  have caller := agreement.caller
  have starter := agreement.starter
  cases which <;> cases seen
  case caller =>
    obtain ⟨⟨rfl, _⟩, ⟨⟩⟩ := Option.ite_none_right_eq_some.mp answered
    exact ⟨life, by constructor <;> grind -linarith [caller.change, probeActs]⟩
  case starter =>
    obtain ⟨⟨rfl, started⟩, ⟨⟩⟩ := Option.ite_none_right_eq_some.mp answered
    obtain rfl : life = .unborn := (permitted ▸ starter).told
    exact ⟨.unborn, by constructor <;> grind -linarith [probeActs]⟩
  case reaper child =>
    obtain ⟨⟨rfl, started⟩, ⟨⟩⟩ := Option.ite_none_right_eq_some.mp answered
    obtain ⟨cleaner, rfl⟩ := (agreement.pending child started).2
    exact ⟨.left cleaner child, by constructor <;> grind -linarith [probeActs]⟩

private theorem startStarter_agrees : Agrees (.startStarter name) := by
  intro thread host after acts views life answer view agreement permitted answered seen
  have caller := agreement.caller
  obtain rfl := agreement.seat permitted rfl
  cases answer <;> obtain ⟨⟩ := answered <;> cases seen
  all_goals exact ⟨life, by constructor <;> grind -linarith [caller.change, probeActs]⟩

private theorem spawn_agrees : Agrees .spawn := by
  intro thread host after acts views life answer view agreement permitted answered seen
  have starter := agreement.starter
  obtain rfl := agreement.seat permitted rfl
  obtain rfl : life = .unborn := (permitted ▸ starter).told
  rcases answer with _ | child <;> obtain ⟨⟩ := answered <;> cases seen
  · exact ⟨.unborn, by constructor <;> grind -linarith [probeActs]⟩
  · exact ⟨.starting child, by constructor <;> grind -linarith [probeActs]⟩

private theorem offer_agrees : Agrees (.offer started) := by
  intro thread host after acts views life answer view agreement permitted answered seen
  have starter := agreement.starter
  obtain ⟨⟩ := answered
  cases seen
  rcases started with _ | child <;> obtain rfl := agreement.seat permitted rfl
  · obtain rfl : life = .unborn := (permitted ▸ starter).told
    exact ⟨.unborn, by constructor <;> grind -linarith [probeActs]⟩
  · obtain rfl : life = .starting child := (permitted ▸ starter).told
    exact ⟨.offered child, by constructor <;> grind -linarith [probeActs]⟩

private theorem sent_agrees : Agrees .sent := by
  intro thread host after acts views life answer view agreement permitted answered seen
  have starter := agreement.starter
  obtain ⟨started, blocked⟩ := permitted
  obtain rfl := agreement.seat blocked rfl
  rw [blocked] at starter
  rcases answer with _ | error | child <;> obtain ⟨taken, ⟨⟩⟩ := Option.ite_none_right_eq_some.mp answered <;>
    cases seen
  · exact ⟨life, by constructor <;> grind -linarith [starter.sent, probeActs]⟩
  · exact ⟨life, by constructor <;> grind -linarith [starter.sent, probeActs]⟩
  · obtain rfl := (agreement.offered child).mp taken.2
    exact ⟨.unsent child, by constructor <;> grind -linarith [probeActs]⟩

private theorem finish_agrees : Agrees .finish := by
  intro thread host after acts views life answer view agreement permitted answered seen
  have starter := agreement.starter
  obtain rfl := agreement.seat permitted rfl
  obtain ⟨⟩ := answered
  cases seen
  have ended := (permitted ▸ starter).ended
  exact ⟨life, by constructor <;> grind -linarith [probeActs]⟩

private theorem recvTimeout_agrees : Agrees .recvTimeout := by
  intro thread host after acts views life answer view agreement permitted answered seen
  obtain rfl := agreement.seat permitted rfl
  cases answer with
  | ok started => exact agreement.received permitted answered (by cases started <;> exact seen)
  | timeout => obtain ⟨⟩ := answered; cases seen; exact agreement.aside
  | disconnected =>
    obtain ⟨_, ⟨⟩⟩ := Option.ite_none_right_eq_some.mp answered
    cases seen
    exact agreement.aside

private theorem tryRecv_agrees : Agrees .tryRecv := by
  intro thread host after acts views life answer view agreement permitted answered seen
  obtain rfl := agreement.seat permitted rfl
  cases answer with
  | ok started => exact agreement.received permitted answered seen
  | empty => obtain ⟨⟩ := answered; cases seen; exact agreement.aside
  | disconnected =>
    obtain ⟨_, ⟨⟩⟩ := Option.ite_none_right_eq_some.mp answered
    cases seen
    exact agreement.aside

private theorem giveBack_agrees : Agrees (.giveBack started) := by
  intro thread host after acts views life answer view agreement permitted answered seen
  have caller := agreement.caller
  obtain ⟨⟩ := answered
  rcases started with _ | child <;> cases seen
  · obtain rfl : thread = 0 := permitted.elim (agreement.seat · rfl) (agreement.seat · rfl)
    exact ⟨life, by constructor <;> grind -linarith [caller.change, probeActs]⟩
  · obtain rfl := agreement.seat permitted rfl
    obtain rfl : life = .received child := (permitted ▸ caller).told
    exact ⟨.returned child, by constructor <;> grind -linarith [probeActs]⟩

private theorem cleanup_agrees : Agrees (.cleanup cleaner child) := by
  intro thread host after acts views life answer view agreement permitted answered seen
  have caller := agreement.caller
  have starter := agreement.starter
  obtain ⟨⟩ := answered
  cases seen
  refine ⟨.cleaning cleaner child 0, ?_⟩
  cases cleaner <;> obtain rfl := agreement.seat permitted rfl
  · obtain rfl : life = .received child := (permitted ▸ caller).told
    constructor <;> grind -linarith [probeActs]
  · obtain rfl : life = .unsent child := (permitted ▸ starter).told
    constructor <;> grind -linarith [probeActs]
  · obtain rfl : life = .returned child := (permitted ▸ caller).told
    constructor <;> grind -linarith [probeActs]

private theorem kill_agrees : Agrees (.kill target) := by
  intro thread host after acts views life answer view agreement permitted answered seen
  obtain ⟨cleaner, child, count, cleaning, next⟩ := permitted
  obtain rfl := agreement.seat cleaning rfl
  obtain rfl := agreement.life_of_cleaning cleaning
  obtain ⟨⟩ := answered
  cases seen
  rw [cleaning]
  refine ⟨.cleaning cleaner child (count + 1), ?_⟩
  constructor
  case history =>
    rw [agreement.history, ProbeLife.history, ProbeLife.history, List.take_add_one, next, List.append_assoc]
    rfl
  all_goals cases cleaner <;> grind -linarith [ProbeView.afterKill]

private theorem wait_agrees : Agrees (.wait child) := by
  intro thread host after acts views life answer view agreement permitted answered seen
  obtain ⟨⟩ := answered
  cases seen
  rcases permitted with ⟨cleaner, cleaning⟩ | reaping
  · obtain rfl := agreement.seat cleaning rfl
    obtain rfl := agreement.life_of_cleaning cleaning
    rw [cleaning]
    exact ⟨.reaped cleaner child, by constructor <;> cases cleaner <;> grind -linarith [ProbeView.afterCleanup, probeActs]⟩
  · obtain rfl := agreement.seat reaping rfl
    obtain ⟨cleaner, rfl⟩ : ∃ cleaner, life = .left cleaner child := (reaping ▸ agreement.reaper).told
    exact ⟨.reaped cleaner child, by constructor <;> grind -linarith [ProbeView.afterCleanup, probeActs]⟩

private theorem startReaper_agrees : Agrees (.startReaper name child) := by
  intro thread host after acts views life answer view agreement permitted answered seen
  obtain ⟨cleaner, cleaning⟩ := permitted
  obtain rfl := agreement.seat cleaning rfl
  obtain rfl := agreement.life_of_cleaning cleaning
  cases seen
  rw [cleaning]
  have free : host.reaper = none := Option.eq_none_iff_forall_ne_some.mpr fun found pending => by
    obtain ⟨_, _, impossible⟩ := agreement.pending found pending
    cases impossible
  refine ⟨.left cleaner child, ?_⟩
  cases answer <;> obtain ⟨⟩ := answered <;> constructor
  case ok.pending =>
    rintro _ ⟨⟩
    cases cleaner <;> exact ⟨agreement.reaper, _, rfl⟩
  all_goals cases cleaner <;> grind -linarith [ProbeView.afterCleanup, probeActs]

/-- Every answered call that its thread may make leaves the threads in agreement. -/
private theorem agrees (op : ProbeCall) : Agrees op := by
  cases op with
  | enter => exact enter_agrees
  | startStarter => exact startStarter_agrees
  | spawn => exact spawn_agrees
  | offer => exact offer_agrees
  | sent => exact sent_agrees
  | finish => exact finish_agrees
  | recvTimeout => exact recvTimeout_agrees
  | tryRecv => exact tryRecv_agrees
  | giveBack => exact giveBack_agrees
  | cleanup => exact cleanup_agrees
  | kill => exact kill_agrees
  | wait => exact wait_agrees
  | startReaper => exact startReaper_agrees
  | _ =>
    intro thread host after acts views life answer view agreement permitted answered seen
    obtain ⟨⟩ := answered
    cases seen
    exact agreement.aside

end ProbeAgreement

private theorem ProbeView.see_some (op : ProbeCall) (answer : op.Answer) (view : ProbeView) : ∃ next, see op answer view = some next := by
  unfold see
  split <;> exact ⟨_, rfl⟩

/-- A thread of a probe knows what its own calls did to the probe. -/
def probeViews : Views (logged ProbeHost.respond probeActs) ProbeView where
  see := ProbeView.see
  good view op _ _ := view.Permits op
  agrees state views := ∃ life, ProbeAgreement state.1 state.2 views life
  acts := by
    intro state views thread op answer after agrees answered
    obtain ⟨life, agreement⟩ := agrees
    obtain ⟨host, given, rfl⟩ := Option.map_eq_some_iff.mp answered
    obtain ⟨view, seen⟩ := ProbeView.see_some op answer (views thread)
    exact ⟨view, seen, fun permitted => ProbeAgreement.agrees op agreement permitted given seen⟩

end UringMqtt.Bench

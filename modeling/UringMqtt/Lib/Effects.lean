import Mathlib.Logic.Function.Basic
import UringMqtt.Lib.Runs

/-! Programs that call their environment. A program is the tree of its calls and of what
it does with each answer, so it can be stopped between any two calls and run beside
others. Assertions are proved over the tree and hold in every run. -/

namespace UringMqtt.Lib

/-- The calls a program can make, the answers to each and the errors it can end with. -/
structure Interface where
  Call : Type
  Answer : Call → Type
  Error : Type

inductive Program (port : Interface) (α : Type) : Type
  | done (value : α)
  | fail (error : port.Error)
  | call (op : port.Call) (next : port.Answer op → Program port α)

/-- What an environment in some state becomes by a call it answers so; `none` for an
answer it cannot give. -/
abbrev Respond (port : Interface) (State : Type) : Type :=
  (op : port.Call) → port.Answer op → State → Option State

namespace Program
variable {port : Interface} {α β : Type} {State : Type}

def bind : Program port α → (α → Program port β) → Program port β
  | .done value, rest => rest value
  | .fail error, _ => .fail error
  | .call op next, rest => .call op fun answer => (next answer).bind rest

instance : Monad (Program port) where
  pure := .done
  bind := bind

def perform (op : port.Call) : Program port (port.Answer op) := .call op .done

/-- The program with its error as a value. -/
def attempt : Program port α → Program port (Except port.Error α)
  | .done value => .done (.ok value)
  | .fail error => .done (.error error)
  | .call op next => .call op fun answer => (next answer).attempt

/-- `program` calls only as `good` allows, and ends in `post` or fails in `stops`,
however the environment answers. -/
def Holds (respond : Respond port State) (good : State → (op : port.Call) → port.Answer op → State → Prop)
    (post : State → α → Prop) (stops : State → port.Error → Prop) : Program port α → State → Prop
  | .done value, state => post state value
  | .fail error, state => stops state error
  | .call op next, state => ∀ answer after, respond op answer state = some after →
      good state op answer after ∧ Holds respond good post stops (next answer) after

variable {respond : Respond port State} {good : State → (op : port.Call) → port.Answer op → State → Prop}

namespace Holds
variable {post : State → α → Prop} {stops : State → port.Error → Prop} {state : State}

variable {program : Program port α} {rest : α → Program port β} {final : State → β → Prop}

theorem bind
    (first : Holds respond good (fun after value => Holds respond good final stops (rest value) after) stops program state) :
    Holds respond good final stops (program >>= rest) state := by
  induction program generalizing state with
  | done value => exact first
  | fail error => exact first
  | call op next ih =>
    intro answer after answered
    obtain ⟨allowed, remains⟩ := first answer after answered
    exact ⟨allowed, ih answer remains⟩

theorem perform_bind {op : port.Call} {rest : port.Answer op → Program port β}
    (calls : ∀ answer after, respond op answer state = some after →
      good state op answer after ∧ Holds respond good final stops (rest answer) after) :
    Holds respond good final stops (perform op >>= rest) state :=
  calls

theorem perform {op : port.Call} {post : State → port.Answer op → Prop}
    (calls : ∀ answer after, respond op answer state = some after → good state op answer after ∧ post after answer) :
    Holds respond good post stops (Program.perform op) state :=
  calls

theorem weaken {larger : State → (op : port.Call) → port.Answer op → State → Prop}
    {post' : State → α → Prop} {stops' : State → port.Error → Prop} (holds : Holds respond good post stops program state)
    (grows : ∀ before op answer after, good before op answer after → larger before op answer after)
    (ends : ∀ after value, post after value → post' after value) (errs : ∀ after error, stops after error → stops' after error) :
    Holds respond larger post' stops' program state := by
  induction program generalizing state with
  | done value => exact ends _ _ holds
  | fail error => exact errs _ _ holds
  | call op next ih =>
    intro answer after answered
    obtain ⟨allowed, remains⟩ := holds answer after answered
    exact ⟨grows _ _ _ _ allowed, ih answer remains⟩

theorem mono {program : Program port α} {post' : State → α → Prop} {stops' : State → port.Error → Prop}
    (holds : Holds respond good post stops program state) (ends : ∀ after value, post after value → post' after value)
    (errs : ∀ after error, stops after error → stops' after error) : Holds respond good post' stops' program state :=
  holds.weaken (fun _ _ _ _ allowed => allowed) ends errs

theorem andThen {middle : State → α → Prop} (first : Holds respond good middle stops program state)
    (goes : ∀ after value, middle after value → Holds respond good final stops (rest value) after) :
    Holds respond good final stops (program >>= rest) state :=
  .bind (first.mono goes fun _ _ stopped => stopped)

theorem attempt {ends : State → Except port.Error α → Prop}
    (holds : Holds respond good (fun after value => ends after (.ok value)) (fun after error => ends after (.error error))
      program state) : Holds respond good ends stops program.attempt state := by
  induction program generalizing state with
  | done value => exact holds
  | fail error => exact holds
  | call op next ih =>
    intro answer after answered
    obtain ⟨allowed, remains⟩ := holds answer after answered
    exact ⟨allowed, ih answer remains⟩

end Holds

inductive Moves (respond : Respond port State) :
    State × Program port α → (op : port.Call) × port.Answer op → State × Program port α → Prop
  | call {state after : State} {op : port.Call} {next : port.Answer op → Program port α} {answer : port.Answer op}
      (answered : respond op answer state = some after) : Moves respond (state, .call op next) ⟨op, answer⟩ (after, next answer)

/-- The first calls of a program whose environment answers as `choose` says. -/
def drive (respond : Respond port State) (choose : State → (op : port.Call) → port.Answer op) :
    Nat → State × Program port α → Option (State × Program port α)
  | fuel + 1, (state, .call op next) =>
    (respond op (choose state op) state).bind fun after => drive respond choose fuel (after, next (choose state op))
  | _, point => some point

def driven (respond : Respond port State) (choose : State → (op : port.Call) → port.Answer op) :
    Nat → State × Program port α → List ((op : port.Call) × port.Answer op)
  | fuel + 1, (state, .call op next) =>
    match respond op (choose state op) state with
    | none => []
    | some after => ⟨op, choose state op⟩ :: driven respond choose fuel (after, next (choose state op))
  | _, _ => []

theorem drive_runs {choose : State → (op : port.Call) → port.Answer op} {fuel : Nat} {first last : State × Program port α}
    (ends : drive respond choose fuel first = some last) : Runs (Moves respond) first (driven respond choose fuel first) last := by
  fun_induction drive respond choose fuel first with
  | case1 fuel state op next ih =>
    obtain ⟨after, answered, ends⟩ := Option.bind_eq_some_iff.mp ends
    rw [driven, answered]
    exact (Runs.single (.call answered)).append (ih after ends)
  | case2 fuel point stops =>
    obtain rfl := Option.some.inj ends
    have none : driven respond choose fuel point = [] := by
      unfold driven
      split
      · exact absurd rfl (stops _ _ _ _ rfl)
      · rfl
    rw [none]
    exact .start

/-! ### Side by side -/

/-- A process: not started, at the rest of its program, or killed. -/
inductive Process (port : Interface) (α : Type) : Type
  | unborn
  | running (program : Program port α)
  | killed

/-- Processes, each under its own number, over one shared state. -/
structure Crowd (port : Interface) (α : Type) (Shared : Type) where
  shared : Shared
  process : Nat → Process port α

inductive CrowdEvent (port : Interface) : Type
  | start (pid : Nat)
  | kill (pid : Nat)
  | act (pid : Nat) (op : port.Call) (answer : port.Answer op)

variable {Shared : Type}

/-- One step of a crowd: a process starts on a program that `launch` admits, is killed
between two calls, or makes its next call. -/
inductive Crowd.Step (respond : Nat → Respond port Shared) (launch : Program port α → Prop) :
    Crowd port α Shared → CrowdEvent port → Crowd port α Shared → Prop
  | start {crowd : Crowd port α Shared} {pid : Nat} {program : Program port α} (unborn : crowd.process pid = .unborn)
      (admitted : launch program) :
      Step respond launch crowd (.start pid) { crowd with process := Function.update crowd.process pid (.running program) }
  | kill {crowd : Crowd port α Shared} {pid : Nat} (born : crowd.process pid ≠ .unborn) :
      Step respond launch crowd (.kill pid) { crowd with process := Function.update crowd.process pid .killed }
  | act {crowd : Crowd port α Shared} {pid : Nat} {op : port.Call} {next : port.Answer op → Program port α}
      {answer : port.Answer op} {after : Shared} (running : crowd.process pid = .running (.call op next))
      (answered : respond pid op answer crowd.shared = some after) :
      Step respond launch crowd (.act pid op answer)
        ⟨after, Function.update crowd.process pid (.running (next answer))⟩

variable {respond : Nat → Respond port Shared} {launch : Program port α → Prop} {crowd : Crowd port α Shared}

/-- A process of a crowd runs as it does alone while the others wait. -/
theorem Crowd.alone {pid : Nat} {first last : Shared × Program port α} {seen : List ((op : port.Call) × port.Answer op)}
    (running : crowd.process pid = .running first.2) (shared : crowd.shared = first.1)
    (run : Runs (Moves (respond pid)) first seen last) :
    Runs (Crowd.Step respond launch) crowd (seen.map fun label => .act pid label.1 label.2)
      ⟨last.1, Function.update crowd.process pid (.running last.2)⟩ := by
  induction run with
  | start =>
    rw [← running, Function.update_eq_self, ← shared]
    exact .start
  | next _ moved ih =>
    cases moved with
    | @call state after op next answer answered =>
      rw [List.map_append]
      refine .next ih ?_
      have acted : Crowd.Step respond launch ⟨state, Function.update crowd.process pid (.running (.call op next))⟩ _ _ :=
        .act (Function.update_self ..) answered
      rwa [Function.update_idem] at acted

/-- The environment with a log of what `notes` says of the answered calls. -/
def logged {Note : Type} (respond : Nat → Respond port Shared) (notes : (op : port.Call) → port.Answer op → List Note) :
    Nat → Respond port (Shared × List Note) :=
  fun pid op answer state => (respond pid op answer state.1).map fun after => (after, state.2 ++ notes op answer)

def CrowdEvent.notes {Note : Type} (notes : (op : port.Call) → port.Answer op → List Note) : CrowdEvent port → List Note
  | .start _ | .kill _ => []
  | .act _ op answer => notes op answer

theorem Crowd.logged_runs {Note : Type}
    {notes : (op : port.Call) → port.Answer op → List Note} {last : Crowd port α Shared} {seen : List (CrowdEvent port)}
    (run : Runs (Crowd.Step respond launch) crowd seen last) :
    Runs (Crowd.Step (logged respond notes) launch) ⟨(crowd.shared, []), crowd.process⟩ seen
      ⟨(last.shared, seen.flatMap (CrowdEvent.notes notes)), last.process⟩ := by
  induction run with
  | start => exact .start
  | next _ moved ih =>
    refine .next ih ?_
    rw [List.flatMap_append, List.flatMap_singleton]
    cases moved with
    | start unborn admitted =>
      rw [CrowdEvent.notes, List.append_nil]
      exact .start unborn admitted
    | kill born =>
      rw [CrowdEvent.notes, List.append_nil]
      exact .kill born
    | act running answered => exact .act running (by rw [logged, answered]; rfl)

/-- What each process knows of the shared state by its own calls, whatever the others do. -/
structure Views (respond : Nat → Respond port Shared) (View : Type) where
  /-- What a process knows after an answer. -/
  see : Respond port View
  /-- The calls a process may make. -/
  good : View → (op : port.Call) → port.Answer op → View → Prop
  agrees : Shared → (Nat → View) → Prop
  acts : ∀ shared views pid op answer after, agrees shared views → respond pid op answer shared = some after →
    ∃ view, see op answer (views pid) = some view ∧
      (good (views pid) op answer view → agrees after (Function.update views pid view))

namespace Views
variable {respond : Nat → Respond port Shared} {View : Type} (rules : Views respond View)

/-- Every process knows what `views` gives it and goes on as its rules allow. -/
structure Kept (crowd : Crowd port α Shared) (idle : View) (views : Nat → View) : Prop where
  agrees : rules.agrees crowd.shared views
  unborn : ∀ pid, crowd.process pid = .unborn → views pid = idle
  running : ∀ pid program, crowd.process pid = .running program →
    Holds rules.see rules.good (fun _ _ => True) (fun _ _ => True) program (views pid)

variable {rules} {launch : Program port α → Prop} {idle : View} {crowd next : Crowd port α Shared} {views : Nat → View}

theorem of_update_eq {process : Nat → Process port α} {pid other : Nat} {status found : Process port α}
    (same : Function.update process pid status other = found) : other = pid ∧ status = found ∨ other ≠ pid ∧ process other = found := by
  rcases eq_or_ne other pid with rfl | distinct
  · exact .inl ⟨rfl, by rwa [Function.update_self] at same⟩
  · exact .inr ⟨distinct, by rwa [Function.update_of_ne distinct] at same⟩

/-- A call is one its process may make, and the others keep what they know. -/
theorem Kept.act {pid : Nat} {op : port.Call} {rest : port.Answer op → Program port α} {answer : port.Answer op} {after : Shared}
    (kept : rules.Kept crowd idle views) (running : crowd.process pid = .running (.call op rest))
    (answered : respond pid op answer crowd.shared = some after) :
    ∃ view, rules.good (views pid) op answer view ∧
      rules.Kept ⟨after, Function.update crowd.process pid (.running (rest answer))⟩ idle (Function.update views pid view) := by
  obtain ⟨view, seen, agrees⟩ := rules.acts _ _ _ _ _ _ kept.agrees answered
  obtain ⟨allowed, remains⟩ := kept.running pid _ running answer view seen
  refine ⟨view, allowed, agrees allowed, fun other unborn => ?_, fun other program found => ?_⟩
  · rcases of_update_eq unborn with ⟨_, status⟩ | ⟨distinct, unborn⟩
    · exact nomatch status
    · rw [Function.update_of_ne distinct, kept.unborn other unborn]
  · rcases of_update_eq found with ⟨rfl, status⟩ | ⟨distinct, running⟩
    · rw [Function.update_self, ← Process.running.inj status]
      exact remains
    · rw [Function.update_of_ne distinct]
      exact kept.running other program running

theorem Kept.step {label : CrowdEvent port} (kept : rules.Kept crowd idle views)
    (launched : ∀ program, launch program → Holds rules.see rules.good (fun _ _ => True) (fun _ _ => True) program idle)
    (moved : Crowd.Step respond launch crowd label next) : ∃ views, rules.Kept next idle views := by
  cases moved with
  | start unborn admitted =>
    refine ⟨views, kept.agrees, fun other born => ?_, fun other program found => ?_⟩
    · rcases of_update_eq born with ⟨_, status⟩ | ⟨_, unborn⟩
      · exact nomatch status
      · exact kept.unborn other unborn
    · rcases of_update_eq found with ⟨rfl, status⟩ | ⟨_, running⟩
      · rw [kept.unborn other unborn, ← Process.running.inj status]
        exact launched _ admitted
      · exact kept.running other program running
  | kill born =>
    refine ⟨views, kept.agrees, fun other gone => ?_, fun other program found => ?_⟩
    · rcases of_update_eq gone with ⟨_, status⟩ | ⟨_, unborn⟩
      · exact nomatch status
      · exact kept.unborn other unborn
    · rcases of_update_eq found with ⟨_, status⟩ | ⟨_, running⟩
      · exact nomatch status
      · exact kept.running other program running
  | act running answered =>
    obtain ⟨view, _, kept⟩ := kept.act running answered
    exact ⟨_, kept⟩

theorem Kept.runs {seen : List (CrowdEvent port)} (kept : rules.Kept crowd idle views)
    (launched : ∀ program, launch program → Holds rules.see rules.good (fun _ _ => True) (fun _ _ => True) program idle)
    (run : Runs (Crowd.Step respond launch) crowd seen next) : ∃ views, rules.Kept next idle views :=
  run.invariant (fun _ crowd => ∃ views, rules.Kept crowd idle views) ⟨views, kept⟩ fun _ _ _ _ ⟨_, kept⟩ moved =>
    kept.step launched moved

end Views
end Program
end UringMqtt.Lib

import UringMqtt.Lib.Run

/-! Ghost state. A program is annotated by running it beside a value it cannot see
and noting in that value what a proof wants to know of the run. Without its notes
the annotated program is the program. -/

namespace UringMqtt.Lib.Ghost

variable {ε σ γ α β : Type}

/-- The program, with a note of what it did to the state however it ends. -/
def noting (change : σ → σ → γ → γ) (program : EStateM ε σ α) : EStateM ε (σ × γ) α := fun (state, ghost) =>
  match program state with
  | .ok value after => .ok value (after, change state after ghost)
  | .error reason after => .error reason (after, change state after ghost)

theorem noting_apply (change : σ → σ → γ → γ) (program : EStateM ε σ α) (state : σ) (ghost : γ) :
    noting change program (state, ghost) =
      match program state with
      | .ok value after => .ok value (after, change state after ghost)
      | .error reason after => .error reason (after, change state after ghost) := rfl

/-- The program beside a ghost it leaves alone. -/
def lift (program : EStateM ε σ α) : EStateM ε (σ × γ) α := noting (fun _ _ ghost => ghost) program

theorem lift_apply (program : EStateM ε σ α) (state : σ) (ghost : γ) :
    lift program (state, ghost) =
      match program state with
      | .ok value after => .ok value (after, ghost)
      | .error reason after => .error reason (after, ghost) := rfl

/-- A note: it may look at the state and changes the ghost only. -/
def note (change : σ → γ → γ) : EStateM ε (σ × γ) PUnit :=
  modify fun (state, ghost) => (state, change state ghost)

def look : EStateM ε (σ × γ) σ := do
  return (← get).1

def forget : EStateM.Result ε (σ × γ) α → EStateM.Result ε σ α
  | .ok value after => .ok value after.1
  | .error reason after => .error reason after.1

/-- Without its notes the annotated program is the program. -/
structure Erases (annotated : EStateM ε (σ × γ) α) (program : EStateM ε σ α) : Prop where
  same : ∀ state ghost, forget (annotated (state, ghost)) = program state

namespace Erases

theorem noting (change : σ → σ → γ → γ) (program : EStateM ε σ α) :
    Erases (Ghost.noting change program : EStateM ε (σ × γ) α) program := by
  constructor
  intro state ghost
  rw [noting_apply]
  cases program state <;> rfl

theorem lift (program : EStateM ε σ α) : Erases (Ghost.lift program : EStateM ε (σ × γ) α) program := noting _ program

theorem pure (value : α) : Erases (Pure.pure value : EStateM ε (σ × γ) α) (Pure.pure value) := ⟨fun _ _ => rfl⟩

theorem throw (reason : ε) : Erases (MonadExcept.throw reason : EStateM ε (σ × γ) α) (MonadExcept.throw reason) :=
  ⟨fun _ _ => rfl⟩

theorem note (change : σ → γ → γ) : Erases (Ghost.note change : EStateM ε (σ × γ) PUnit) (Pure.pure ⟨⟩) :=
  ⟨fun _ _ => rfl⟩

theorem look : Erases (Ghost.look : EStateM ε (σ × γ) σ) MonadState.get := ⟨fun _ _ => rfl⟩

variable {annotated : EStateM ε (σ × γ) α} {program : EStateM ε σ α}

theorem bind {noted : α → EStateM ε (σ × γ) β}
    {next : α → EStateM ε σ β} (first : Erases annotated program) (rest : ∀ value, Erases (noted value) (next value)) :
    Erases (annotated >>= noted) (program >>= next) := by
  constructor
  intro state ghost
  have begun := first.same state ghost
  rw [Run.bind_apply, Run.bind_apply, ← begun]
  cases annotated (state, ghost) with
  | ok value after => exact (rest value).same after.1 after.2
  | error reason after => rfl

theorem note_bind {change : σ → γ → γ} (rest : Erases annotated program) : Erases (do Ghost.note change; annotated) program :=
  ⟨fun state ghost => rest.same state (change state ghost)⟩

theorem ite {condition : Prop} [Decidable condition] {one two : EStateM ε (σ × γ) α} {first second : EStateM ε σ α}
    (yes : Erases one first) (no : Erases two second) :
    Erases (if condition then one else two) (if condition then first else second) := by
  split
  · exact yes
  · exact no

end Erases

/-! ### What an annotated program ensures -/

section
variable {state : σ} {ghost : γ} {post : α → σ × γ → Prop} {stops : ε → σ × γ → Prop}

variable {change : σ → σ → γ → γ} {program : EStateM ε σ β} {next : β → EStateM ε (σ × γ) α} {value : β} {after : σ}

theorem ensures_noting {program : EStateM ε σ α}
    (ran : Run.Ensures program state (fun value after => post value (after, change state after ghost))
      (fun reason after => stops reason (after, change state after ghost))) :
    Run.Ensures (noting change program) (state, ghost) post stops := by
  have known := ran.ran
  constructor
  rw [noting_apply]
  cases result : program state with
  | ok value after =>
    rw [result] at known
    exact known
  | error reason after =>
    rw [result] at known
    exact known

theorem ensures_lift {program : EStateM ε σ α} (ran : Run.Ensures program state (fun value after => post value (after, ghost))
      (fun reason after => stops reason (after, ghost))) :
    Run.Ensures (lift program) (state, ghost) post stops := ensures_noting ran

theorem ensures_noting_bind {middle : β → σ → Prop}
    (first : Run.Ensures program state middle fun reason after => stops reason (after, change state after ghost))
    (rest : ∀ value after, middle value after → Run.Ensures (next value) (after, change state after ghost) post stops) :
    Run.Ensures (noting change program >>= next) (state, ghost) post stops := by
  have begun := first.ran
  constructor
  rw [Run.bind_apply, noting_apply]
  cases ran : program state with
  | ok value after =>
    rw [ran] at begun
    exact (rest value after begun).ran
  | error reason after =>
    rw [ran] at begun
    exact begun

theorem ensures_lift_bind {middle : β → σ → Prop}
    (first : Run.Ensures program state middle fun reason after => stops reason (after, ghost))
    (rest : ∀ value after, middle value after → Run.Ensures (next value) (after, ghost) post stops) :
    Run.Ensures (lift program >>= next) (state, ghost) post stops := ensures_noting_bind first rest

theorem ensures_noting_step (ran : program state = .ok value after)
    (rest : Run.Ensures (next value) (after, change state after ghost) post stops) :
    Run.Ensures (noting change program >>= next) (state, ghost) post stops := by
  constructor
  rw [Run.bind_apply, noting_apply, ran]
  exact rest.ran

theorem ensures_step (ran : program state = .ok value after) (rest : Run.Ensures (next value) (after, ghost) post stops) :
    Run.Ensures (lift program >>= next) (state, ghost) post stops := ensures_noting_step ran rest

theorem ensures_note {change : σ → γ → γ} {next : PUnit → EStateM ε (σ × γ) α}
    (rest : Run.Ensures (next ⟨⟩) (state, change state ghost) post stops) :
    Run.Ensures (note change >>= next) (state, ghost) post stops := ⟨rest.ran⟩

theorem ensures_look {next : σ → EStateM ε (σ × γ) α} (rest : Run.Ensures (next state) (state, ghost) post stops) :
    Run.Ensures (look >>= next) (state, ghost) post stops := ⟨rest.ran⟩

theorem maintains_look {holds : σ × γ → Prop} : Run.Maintains holds (look : EStateM ε (σ × γ) σ) := fun _ held => ⟨held⟩

end

end UringMqtt.Lib.Ghost

import Mathlib.Order.Defs.Unbundled

/-! Running a program that keeps a state and may stop: what each construct does to
the state, as rewriting rules. -/

namespace UringMqtt.Lib.Run

variable {ε σ α β : Type} (state : σ)

@[simp] theorem bind_apply (program : EStateM ε σ α) (next : α → EStateM ε σ β) :
    (program >>= next) state =
      match program state with
      | .ok value after => next value after
      | .error reason after => .error reason after := rfl

@[simp] theorem pure_apply (value : α) : (pure value : EStateM ε σ α) state = .ok value state := rfl

@[simp] theorem get_apply : (get : EStateM ε σ σ) state = .ok state state := rfl

@[simp] theorem modify_apply (change : σ → σ) : (modify change : EStateM ε σ PUnit) state = .ok ⟨⟩ (change state) := rfl

/-! ### From the first state to the last

A relation that is reflexive and transitive holds along a program if it holds along
its parts, however the program ends. -/

def Along (related : σ → σ → Prop) (program : EStateM ε σ α) : Prop := ∀ state,
  match program state with
  | .ok _ after => related state after
  | .error _ after => related state after

variable {program : EStateM ε σ α} {next : α → EStateM ε σ β}

namespace Along
variable {related : σ → σ → Prop} [IsPreorder σ related]

theorem pure (value : α) : Along related (Pure.pure value : EStateM ε σ α) := fun state => refl_of related state

theorem throw (reason : ε) : Along related (MonadExcept.throw reason : EStateM ε σ α) := fun state => refl_of related state

theorem get : Along related (MonadState.get : EStateM ε σ σ) := fun state => refl_of related state

omit [IsPreorder σ related] in
theorem update {change : σ → σ} (moves : ∀ state, related state (change state)) :
    Along related (modify change : EStateM ε σ PUnit) := moves

theorem bind (first : Along related program) (rest : ∀ value, Along related (next value)) :
    Along related (program >>= next) := by
  intro state
  have begun := first state
  rw [bind_apply]
  cases ran : program state with
  | ok value middle =>
    simp only [ran] at begun ⊢
    have ended := rest value middle
    cases finish : next value middle with
    | ok _ after =>
      rw [finish] at ended
      exact trans_of related begun ended
    | error _ after =>
      rw [finish] at ended
      exact trans_of related begun ended
  | error reason after =>
    simp only [ran] at begun ⊢
    exact begun

omit [IsPreorder σ related] in
theorem mono {wider : σ → σ → Prop} (ran : Along related program)
    (weaker : ∀ before after, related before after → wider before after) : Along wider program := by
  intro state
  have ended := ran state
  cases result : program state with
  | ok _ after =>
    rw [result] at ended
    exact weaker state after ended
  | error _ after =>
    rw [result] at ended
    exact weaker state after ended

end Along

/-! ### What a program ensures

From one state on: what holds of the value and the state if it returns, and of the
reason and the state if it stops. A structure, so that no tactic runs the program. -/

structure Ensures (program : EStateM ε σ α) (state : σ) (post : α → σ → Prop) (stops : ε → σ → Prop) : Prop where
  ran : match program state with
    | .ok value after => post value after
    | .error reason after => stops reason after

namespace Ensures
variable {state : σ} {post : α → σ → Prop} {stops : ε → σ → Prop}

theorem pure {value : α} (holds : post value state) : Ensures (Pure.pure value) state post stops := ⟨holds⟩

theorem throw {reason : ε} (holds : stops reason state) :
    Ensures (MonadExcept.throw reason : EStateM ε σ α) state post stops := ⟨holds⟩

theorem get_bind {next : σ → EStateM ε σ α} (rest : Ensures (next state) state post stops) :
    Ensures (MonadState.get >>= next) state post stops := ⟨rest.ran⟩

theorem modify_bind {change : σ → σ} {next : PUnit → EStateM ε σ α} (rest : Ensures (next ⟨⟩) (change state) post stops) :
    Ensures ((modifyGet fun current => (⟨⟩, change current)) >>= next) state post stops := ⟨rest.ran⟩

theorem set {after : σ} {post : PUnit → σ → Prop} (holds : post ⟨⟩ after) :
    Ensures (MonadStateOf.set after) state post stops := ⟨holds⟩

theorem modify {change : σ → σ} {post : PUnit → σ → Prop} (holds : post ⟨⟩ (change state)) :
    Ensures (modifyGet fun current => (⟨⟩, change current)) state post stops := ⟨holds⟩

theorem bind {middle : α → σ → Prop} {post : β → σ → Prop}
    (first : Ensures program state middle stops)
    (rest : ∀ value after, middle value after → Ensures (next value) after post stops) :
    Ensures (program >>= next) state post stops := by
  have begun := first.ran
  constructor
  rw [bind_apply]
  cases ran : program state with
  | ok value after =>
    rw [ran] at begun
    exact (rest value after begun).ran
  | error reason after =>
    rw [ran] at begun
    exact begun

theorem weaken {wider : α → σ → Prop} {also : ε → σ → Prop}
    (ensured : Ensures program state post stops) (returned : ∀ value after, post value after → wider value after)
    (stopped : ∀ reason after, stops reason after → also reason after) : Ensures program state wider also := by
  have known := ensured.ran
  constructor
  cases ran : program state with
  | ok value after =>
    rw [ran] at known
    exact returned value after known
  | error reason after =>
    rw [ran] at known
    exact stopped reason after known

theorem seq {middle : α → σ → Prop} {halts : ε → σ → Prop}
    {post : β → σ → Prop} (first : Ensures program state middle halts)
    (stopped : ∀ reason after, halts reason after → stops reason after)
    (rest : ∀ value after, middle value after → Ensures (next value) after post stops) :
    Ensures (program >>= next) state post stops := .bind (first.weaken (fun _ _ => id) stopped) rest

theorem along {related : σ → σ → Prop} (ran : Along related program) :
    Ensures program state (fun _ after => related state after) (fun _ after => related state after) := ⟨ran state⟩

theorem to_along {related : σ → σ → Prop}
    (each : ∀ state, Ensures program state (fun _ after => related state after) (fun _ after => related state after)) :
    Along related program := fun state => (each state).ran

theorem and {other : α → σ → Prop} {also : ε → σ → Prop}
    (one : Ensures program state post stops) (two : Ensures program state other also) :
    Ensures program state (fun value after => post value after ∧ other value after)
      (fun reason after => stops reason after ∧ also reason after) := by
  have first := one.ran
  have second := two.ran
  constructor
  cases ran : program state with
  | ok value after =>
    rw [ran] at first second
    exact ⟨first, second⟩
  | error reason after =>
    rw [ran] at first second
    exact ⟨first, second⟩

end Ensures

theorem Along.seq {related : σ → σ → Prop} {state : σ}
    {post : β → σ → Prop} {stops : ε → σ → Prop} (first : Along related program)
    (stopped : ∀ reason after, related state after → stops reason after)
    (rest : ∀ value after, related state after → Ensures (next value) after post stops) :
    Ensures (program >>= next) state post stops := (Ensures.along first).seq stopped rest

/-- However the program ends, what holds before it holds behind it. -/
def Maintains (holds : σ → Prop) (program : EStateM ε σ α) : Prop :=
  ∀ state, holds state → Ensures program state (fun _ => holds) fun _ => holds

namespace Maintains
variable {holds : σ → Prop} {program other : EStateM ε σ α}

theorem pure (value : α) : Maintains holds (Pure.pure value : EStateM ε σ α) := fun _ held => .pure held

theorem throw (reason : ε) : Maintains holds (MonadExcept.throw reason : EStateM ε σ α) := fun _ held => .throw held

theorem bind (first : Maintains holds program) (rest : ∀ value, Maintains holds (next value)) :
    Maintains holds (program >>= next) := fun state held => .bind (first state held) fun value => rest value

theorem ite {condition : Prop} [Decidable condition] (yes : Maintains holds program) (no : Maintains holds other) :
    Maintains holds (if condition then program else other) := by
  split
  · exact yes
  · exact no

end Maintains

end UringMqtt.Lib.Run

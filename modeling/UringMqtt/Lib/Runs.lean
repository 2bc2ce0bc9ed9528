import Mathlib.Init

/-! Runs of a labelled transition system. A run grows at its end, so an invariant
may speak of everything that was seen before. -/

namespace UringMqtt.Lib

variable {State Label : Type} {step : State → Label → State → Prop}

/-- The steps that lead from `first` to the last state, by their labels. -/
inductive Runs (step : State → Label → State → Prop) (first : State) : List Label → State → Prop
  | start : Runs step first [] first
  | next {seen : List Label} {state after : State} {label : Label} (run : Runs step first seen state)
      (moved : step state label after) : Runs step first (seen ++ [label]) after

namespace Runs
variable {first middle last : State} {one two : List Label}

theorem single {label : Label} (moved : step first label last) : Runs step first [label] last :=
  .next .start moved

/-- What holds at the start and is kept by every step holds at the end of every run. -/
theorem invariant (holds : List Label → State → Prop) (start : holds [] first)
    (kept : ∀ seen state label after, holds seen state → step state label after → holds (seen ++ [label]) after)
    (run : Runs step first one last) : holds one last := by
  induction run with
  | start => exact start
  | next _ moved ih => exact kept _ _ _ _ ih moved

/-- A queue over a run: what was in it and what entered left it in this order, or is
in it still. -/
theorem queue {Event : Type} {held : State → List Event} {enters leaves : Label → List Event}
    (steps : ∀ state label after, step state label after → held state ++ enters label = leaves label ++ held after)
    (run : Runs step first one last) : held first ++ one.flatMap enters = one.flatMap leaves ++ held last := by
  induction run with
  | start => simp
  | next _ moved ih =>
    have step := steps _ _ _ moved
    rw [List.flatMap_append, List.flatMap_append, List.flatMap_singleton, List.flatMap_singleton, ← List.append_assoc, ih,
      List.append_assoc, step, ← List.append_assoc]

theorem append (run : Runs step first one middle) (rest : Runs step middle two last) :
    Runs step first (one ++ two) last := by
  induction rest with
  | start => rwa [List.append_nil]
  | next rest moved ih =>
    rw [← List.append_assoc]
    exact .next ih moved

theorem lift {Other : Type} {other : Other → Label → Other → Prop} {embed : State → Other}
    (steps : ∀ state label after, step state label after → other (embed state) label (embed after))
    (run : Runs step first one last) : Runs other (embed first) one (embed last) := by
  induction run with
  | start => exact .start
  | next _ moved ih => exact .next ih (steps _ _ _ moved)

theorem mono {other : State → Label → State → Prop} (steps : ∀ state label after, step state label after → other state label after)
    (run : Runs step first one last) : Runs other first one last :=
  run.lift steps

theorem stay (still : ∀ label ∈ one, step first label first) : Runs step first one first := by
  induction one with
  | nil => exact .start
  | cons label rest ih =>
    have tail := ih fun other member => still other (List.mem_cons_of_mem _ member)
    exact (single (still label List.mem_cons_self)).append tail

theorem last_step {label : Label} (run : Runs step first (one ++ [label]) last) :
    ∃ state, Runs step first one state ∧ step state label last := by
  generalize whole : one ++ [label] = labels at run
  cases run with
  | start => simp at whole
  | next run moved =>
    obtain ⟨rfl, same⟩ := List.append_inj' whole rfl
    obtain rfl := List.singleton_inj.mp same
    exact ⟨_, run, moved⟩

theorem cut (run : Runs step first (one ++ two) last) :
    ∃ middle, Runs step first one middle ∧ Runs step middle two last := by
  generalize whole : one ++ two = labels at run
  induction run generalizing two with
  | start =>
    obtain ⟨rfl, rfl⟩ := List.append_eq_nil_iff.mp whole
    exact ⟨first, .start, .start⟩
  | @next seen state after label run moved ih =>
    rcases two.eq_nil_or_concat with rfl | ⟨front, final, rfl⟩
    · rw [List.append_nil] at whole
      subst whole
      exact ⟨after, run.next moved, .start⟩
    · rw [List.concat_eq_append, ← List.append_assoc] at whole
      obtain ⟨rfl, same⟩ := List.append_inj' whole rfl
      obtain rfl := List.singleton_inj.mp same
      obtain ⟨middle, before, behind⟩ := ih rfl
      rw [List.concat_eq_append]
      exact ⟨middle, before, behind.next moved⟩

theorem cut_at {label : Label} (run : Runs step first (one ++ label :: two) last) :
    ∃ before after, Runs step first one before ∧ step before label after ∧ Runs step after two last := by
  rw [List.append_cons] at run
  obtain ⟨after, early, late⟩ := run.cut
  obtain ⟨before, early, moved⟩ := early.last_step
  exact ⟨before, after, early, moved, late⟩

end Runs
end UringMqtt.Lib

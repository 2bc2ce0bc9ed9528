import Mathlib.Data.Finset.Card
import Mathlib.Data.List.Induction

/-! The first occurrence of each key in a list. What a list holds of distinct keys is
counted by them, and two orders in which every key has the same first occurrence keep
the same elements. -/

namespace UringMqtt.Lib

variable {α κ : Type} [DecidableEq κ] (key : α → κ)

/-- The elements whose key has not occurred before them, in order. -/
def firsts (list : List α) : List α :=
  list.foldl (fun kept element => if key element ∈ kept.map key then kept else kept ++ [element]) []

namespace Firsts
variable {key} {list other : List α} {element : α}

@[simp] theorem firsts_nil : firsts key [] = [] := rfl

theorem firsts_snoc : firsts key (list ++ [element]) =
    if key element ∈ (firsts key list).map key then firsts key list else firsts key list ++ [element] := by
  rw [firsts, List.foldl_append]
  rfl

theorem mem_keys (wanted : κ) : wanted ∈ (firsts key list).map key ↔ wanted ∈ list.map key := by
  induction list using List.reverseRecOn with
  | nil => rfl
  | append_singleton list element ih =>
    rw [firsts_snoc, List.map_append, List.mem_append, ← ih, List.map_singleton, List.mem_singleton]
    split
    next seen =>
      constructor
      · exact Or.inl
      · rintro (before | rfl)
        · exact before
        · exact seen
    next => rw [List.map_append, List.mem_append, List.map_singleton, List.mem_singleton]

theorem nodup_keys : ((firsts key list).map key).Nodup := by
  induction list using List.reverseRecOn with
  | nil => exact List.nodup_nil
  | append_singleton list element ih =>
    rw [firsts_snoc]
    split
    next => exact ih
    next fresh =>
      rw [List.map_append, List.map_singleton, List.nodup_append]
      refine ⟨ih, List.nodup_singleton _, fun one before two same => ?_⟩
      rw [List.mem_singleton.mp same]
      exact fun equal => fresh (equal ▸ before)

theorem length_firsts : (firsts key list).length = (list.map key).toFinset.card := by
  have same : (list.map key).toFinset = ((firsts key list).map key).toFinset := by
    ext wanted
    rw [List.mem_toFinset, List.mem_toFinset, mem_keys]
  rw [same, List.toFinset_card_of_nodup nodup_keys, List.length_map]

theorem sublist : (firsts key list).Sublist list := by
  induction list using List.reverseRecOn with
  | nil => exact .slnil
  | append_singleton list element ih =>
    rw [firsts_snoc]
    split
    · exact ih.trans (List.sublist_append_left _ _)
    · exact ih.append (List.Sublist.refl _)

theorem filter_firsts (choice : κ → Bool) :
    (firsts key list).filter (fun element => choice (key element)) =
      firsts key (list.filter fun element => choice (key element)) := by
  induction list using List.reverseRecOn with
  | nil => rfl
  | append_singleton list element ih =>
    rw [firsts_snoc, List.filter_append]
    by_cases chosen : choice (key element) = true
    · have known : key element ∈ (firsts key list).map key ↔
          key element ∈ (firsts key (list.filter fun element => choice (key element))).map key := by
        rw [mem_keys, mem_keys]
        simp only [List.mem_map, List.mem_filter]
        constructor
        · rintro ⟨before, member, same⟩
          exact ⟨before, ⟨member, by rw [same]; exact chosen⟩, same⟩
        · rintro ⟨before, ⟨member, _⟩, same⟩
          exact ⟨before, member, same⟩
      simp only [List.filter_cons, chosen, if_true, List.filter_nil]
      rw [firsts_snoc]
      simp only [← known]
      split
      · exact ih
      · simp [List.filter_append, ih, chosen]
    · have skipped : [element].filter (fun element => choice (key element)) = [] := by simp [chosen]
      rw [skipped, List.append_nil, ← ih]
      split
      · rfl
      · simp [List.filter_append, chosen]

theorem mem_firsts_iff : element ∈ firsts key list ↔
    list.find? (fun candidate => key candidate = key element) = some element := by
  induction list using List.reverseRecOn with
  | nil => simp
  | append_singleton list last ih =>
    have known : key last ∈ (firsts key list).map key ↔ list.find? (fun candidate => key candidate = key last) ≠ none := by
      rw [mem_keys, List.mem_map, Ne, List.find?_eq_none]
      simp
    rw [firsts_snoc, List.find?_append]
    cases found : list.find? (fun candidate => key candidate = key element) with
    | some earlier =>
      rw [found] at ih
      have same : key earlier = key element := by simpa using List.find?_some found
      rw [Option.some_or]
      split
      · exact ih
      next fresh =>
        rw [List.mem_append, List.mem_singleton, ih]
        refine ⟨fun either => either.resolve_right fun equal => fresh ?_, Or.inl⟩
        rw [known, ← equal, found]
        exact Option.some_ne_none _
    | none =>
      rw [found] at ih
      have absent : element ∉ firsts key list := fun member => absurd (ih.mp member) (Option.some_ne_none _).symm
      rw [Option.none_or, List.find?_singleton]
      by_cases same : key last = key element
      · have fresh : key last ∉ (firsts key list).map key := by
          rw [known, same, found]
          exact fun differs => differs rfl
        rw [if_neg fresh, List.mem_append, List.mem_singleton, if_pos (decide_eq_true same), Option.some_inj]
        exact ⟨fun either => (either.resolve_left absent).symm, fun equal => .inr equal.symm⟩
      · split
        · simp [absent, same]
        · have apart : element ≠ last := fun equal => same (by rw [equal])
          simp [absent, same, apart]

/-- Two orders that agree on the first occurrence of every key keep the same elements. -/
theorem perm_of_same_first
    (agree : ∀ wanted, list.find? (fun candidate => key candidate = wanted) = other.find? (fun candidate => key candidate = wanted)) :
    (firsts key list).Perm (firsts key other) := by
  refine (List.perm_ext_iff_of_nodup (List.Nodup.of_map key nodup_keys) (List.Nodup.of_map key nodup_keys)).mpr ?_
  intro element
  rw [mem_firsts_iff, mem_firsts_iff, agree]

end Firsts

theorem perm_classes (number : α → Nat) (list : List α) (count : Nat) (inside : ∀ element ∈ list, number element < count) :
    ((List.range count).flatMap fun wanted => list.filter fun element => number element = wanted).Perm list := by
  have below : ((List.range count).flatMap fun wanted => list.filter fun element => number element = wanted).Perm
      (list.filter fun element => number element < count) := by
    clear inside
    induction count with
    | zero => simp
    | succ count ih =>
      rw [List.range_succ, List.flatMap_append, List.flatMap_singleton]
      refine (ih.append_right _).trans ?_
      have cut := List.filter_append_perm (fun element => decide (number element < count))
        (list.filter fun element => number element < count + 1)
      rw [List.filter_filter, List.filter_filter] at cut
      convert cut using 2
      · apply List.filter_congr
        intro element _
        grind
      · apply List.filter_congr
        intro element _
        grind
  rwa [List.filter_eq_self.mpr fun element member => decide_eq_true (inside element member)] at below

end UringMqtt.Lib

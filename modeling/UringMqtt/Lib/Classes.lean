import Mathlib.Algebra.BigOperators.Group.List.Basic
import Mathlib.Algebra.GroupWithZero.Nat
import UringMqtt.Lib.Firsts

/-! A list by the keys of its elements, where an element may have none. -/

namespace UringMqtt.Lib

variable {α κ : Type} [DecidableEq κ] (key : α → Option κ)

/-- The keys of a list, each where it occurs first. -/
def keysOf (list : List α) : List κ := firsts id (list.filterMap key)

/-- The elements with that key. -/
def classOf (list : List α) (wanted : κ) : List α := list.filter fun element => key element = some wanted

namespace Classes
variable {key} {list : List α} {element : α} {wanted : κ}

theorem mem_keysOf : wanted ∈ keysOf key list ↔ ∃ element ∈ list, key element = some wanted := by
  have kept := @Firsts.mem_keys κ κ _ id (list.filterMap key) wanted
  rw [List.map_id, List.map_id] at kept
  rw [keysOf, kept, List.mem_filterMap]

theorem nodup_keysOf : (keysOf key list).Nodup := by
  have once := @Firsts.nodup_keys κ κ _ id (list.filterMap key)
  rwa [List.map_id] at once

theorem keysOf_snoc_none (none : key element = none) : keysOf key (list ++ [element]) = keysOf key list := by
  rw [keysOf, List.filterMap_append, List.filterMap_cons_none none, List.filterMap_nil, List.append_nil, keysOf]

theorem keysOf_snoc_some (some_ : key element = some wanted) :
    keysOf key (list ++ [element]) = if wanted ∈ keysOf key list then keysOf key list else keysOf key list ++ [wanted] := by
  rw [keysOf, List.filterMap_append, List.filterMap_cons_some some_, List.filterMap_nil, Firsts.firsts_snoc, List.map_id]
  rfl

theorem classOf_snoc_same (same : key element = some wanted) :
    classOf key (list ++ [element]) wanted = classOf key list wanted ++ [element] := by
  simp [classOf, same]

theorem classOf_snoc_other (other : key element ≠ some wanted) :
    classOf key (list ++ [element]) wanted = classOf key list wanted := by
  simp [classOf, other]

theorem classOf_eq_nil (absent : wanted ∉ keysOf key list) : classOf key list wanted = [] := by
  rw [classOf, List.filter_eq_nil_iff]
  intro element member same
  exact absent (mem_keysOf.mpr ⟨element, member, of_decide_eq_true same⟩)

theorem classOf_ne_nil (present : wanted ∈ keysOf key list) : classOf key list wanted ≠ [] := by
  obtain ⟨element, member, same⟩ := mem_keysOf.mp present
  exact List.ne_nil_of_mem (List.mem_filter.mpr ⟨member, decide_eq_true same⟩)

theorem sum_classes_of (weight : α → Nat) {keys : List κ} (nodup : keys.Nodup)
    (all : ∀ element ∈ list, ∀ wanted, key element = some wanted → wanted ∈ keys) :
    (keys.map fun wanted => ((classOf key list wanted).map weight).sum).sum =
      ((list.filter fun element => (key element).isSome).map weight).sum := by
  induction list with
  | nil => simp [classOf]
  | cons element rest ih =>
    have later := ih fun other member => all other (List.mem_cons_of_mem _ member)
    have split (wanted : κ) : ((classOf key (element :: rest) wanted).map weight).sum =
        (if key element = some wanted then weight element else 0) + ((classOf key rest wanted).map weight).sum := by
      by_cases same : key element = some wanted <;> simp [classOf, same]
    simp only [split]
    rw [List.sum_map_add, later]
    cases owner : key element with
    | none => simp [owner]
    | some wanted =>
      have single : (keys.map fun other => if some wanted = some other then weight element else 0).sum = weight element := by
        rw [List.sum_map_eq_nsmul_single wanted _ fun other differs _ => if_neg fun same => differs (Option.some.inj same).symm,
          List.count_eq_one_of_mem nodup (all element List.mem_cons_self wanted owner), if_pos rfl, one_nsmul]
      rw [single, List.filter_cons_of_pos (by rw [owner]; rfl), List.map_cons, List.sum_cons]

theorem sum_classes (weight : α → Nat) (list : List α) :
    ((keysOf key list).map fun wanted => ((classOf key list wanted).map weight).sum).sum =
      ((list.filter fun element => (key element).isSome).map weight).sum :=
  sum_classes_of weight nodup_keysOf fun element member _ same => mem_keysOf.mpr ⟨element, member, same⟩

end Classes
end UringMqtt.Lib

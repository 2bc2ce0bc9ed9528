import UringMqtt.Proofs.AttemptLaws
import UringMqtt.Proofs.CpuGrammar

/-! `cpu_count` is the size of the set of CPUs that the elements name. The line is cut at
every bound, and each of the three ways to count a segment counts the same set. -/

namespace UringMqtt.Bench
open Lib Checked

/-! ### One segment -/

def named (active : List Stride) (lo hi : Nat) : Set Nat := {cpu | cpu ∈ Stride.union active ∧ lo ≤ cpu ∧ cpu < hi}

private theorem named_finite (active : List Stride) (lo hi : Nat) : (named active lo hi).Finite :=
  (Set.finite_Ico lo hi).subset fun _ member => member.2

private theorem named_ncard_le (active : List Stride) (lo hi : Nat) : (named active lo hi).ncard ≤ hi - lo := by
  rw [← Set.ncard_Ico_nat lo hi]
  exact Set.ncard_le_ncard (fun _ member => member.2) (Set.finite_Ico lo hi)

/-- A segment of the CPU line inside every active element. -/
structure Segment (lo hi : Nat) (active : List Stride) : Prop where
  ordered : lo ≤ hi
  narrow : hi ≤ 2 ^ 32
  begun : ∀ stride ∈ active, stride.start ≤ lo
  steps : ∀ stride ∈ active, stride.step < 2 ^ 32

variable {lo hi : Nat} {active : List Stride} {stride : Stride}

theorem Segment.firstFrom_eq (segment : Segment lo hi active) (member : stride ∈ active) :
    firstFrom stride lo = some (stride.catchUp lo).start ∧ (stride.catchUp lo).start < 2 ^ 33 := by
  have ordered := segment.ordered
  have narrow := segment.narrow
  have begun := segment.begun stride member
  have steps := segment.steps stride member
  have close := Stride.catchUp_start_lt begun
  refine ⟨?_, by omega⟩
  simp only [Stride.catchUp] at close ⊢
  simp only [firstFrom, sub_some begun, Option.bind_eq_bind, Option.bind_some]
  rw [mul_some (by omega), Option.bind_some, add_some (by omega)]

theorem Segment.rangeCount_eq (segment : Segment lo hi active) (plain : ∃ stride ∈ active, stride.step = 1) :
    rangeCount lo hi = some (named active lo hi).ncard := by
  obtain ⟨stride, member, one⟩ := plain
  have every : named active lo hi = Set.Ico lo hi := by
    ext cpu
    refine ⟨fun found => found.2, fun within => ⟨⟨stride, member, ?_⟩, within⟩⟩
    exact Stride.mem_points_of_step_one one (Nat.le_trans (segment.begun stride member) within.1)
  rw [rangeCount, sub_some segment.ordered, every, Set.ncard_Ico_nat]

private theorem named_singleton : named [stride] lo hi = {cpu ∈ (stride.catchUp lo).points | cpu < hi} := by
  ext cpu
  simp only [named, Stride.points_catchUp, Stride.union, List.mem_singleton, exists_eq_left]
  exact and_assoc.symm

theorem Segment.strideCount_eq (segment : Segment lo hi [stride]) : strideCount lo hi stride = some (named [stride] lo hi).ncard := by
  obtain ⟨first, _⟩ := segment.firstFrom_eq List.mem_cons_self
  have narrow := segment.narrow
  rw [named_singleton, Stride.ncard_points_below]
  simp only [strideCount, first, Option.bind_eq_bind, Option.bind_some]
  split
  next within =>
    have share := Nat.div_le_self (hi - 1 - (stride.catchUp lo).start) stride.step
    rw [sub_some (by omega), Option.bind_some, sub_some (by omega), Option.bind_some, add_some (by omega)]
    rfl
  next => rfl

/-- What a merge up to `hi` rests on: the heap gives its entries back in order, and none of
them lies before the last CPU counted. -/
structure Merging (hi : Nat) (heap : List Stride) (last : Option Nat) (count : Nat) : Prop where
  narrow : hi ≤ 2 ^ 32
  sorted : heap.Pairwise Stride.le
  steps : ∀ stride ∈ heap, stride.step < 2 ^ 32
  earlier : ∀ cpu, last = some cpu → ∀ stride ∈ heap, cpu ≤ stride.start
  room : count + (Stride.remaining heap hi last).ncard ≤ 2 ^ 32

section Merge
variable {heap : List Stride} {last : Option Nat} {count : Nat}

section
variable (merging : Merging hi (stride :: heap) last count)
include merging

theorem Merging.least : ∀ other ∈ heap, stride.start ≤ other.start := by
  intro other member
  have := List.rel_of_pairwise_cons merging.sorted member
  unfold Stride.le at this
  omega

theorem Merging.drop (beyond : hi ≤ stride.start) : Merging hi heap last count :=
  ⟨merging.narrow, merging.sorted.of_cons, fun other member => merging.steps other (List.mem_cons_of_mem _ member),
    fun cpu same other member => merging.earlier cpu same other (List.mem_cons_of_mem _ member),
    Stride.remaining_beyond beyond ▸ merging.room⟩

def countOf (last : Option Nat) (cpu count : Nat) : Nat := count + if last = some cpu then 0 else 1

theorem Merging.counts (within : stride.start < hi) :
    count + (Stride.remaining (stride :: heap) hi last).ncard = countOf last stride.start count +
      (Stride.remaining (heap.orderedInsert Stride.le stride.next) hi (some stride.start)).ncard := by
  have split := Stride.ncard_remaining_next merging.least within fun cpu same => merging.earlier cpu same stride List.mem_cons_self
  rw [Stride.remaining_perm (List.perm_orderedInsert Stride.le stride.next heap), split, countOf]
  omega

theorem Merging.step (within : stride.start < hi) :
    Merging hi (heap.orderedInsert Stride.le stride.next) (some stride.start) (countOf last stride.start count) := by
  have among (other : Stride) (member : other ∈ heap.orderedInsert Stride.le stride.next) : other = stride.next ∨ other ∈ heap :=
    List.mem_cons.mp ((List.perm_orderedInsert Stride.le stride.next heap).mem_iff.mp member)
  refine ⟨merging.narrow, merging.sorted.of_cons.orderedInsert _ _, fun other member => ?_, fun cpu same other member => ?_,
    merging.counts within ▸ merging.room⟩
  · rcases among other member with rfl | member
    · exact merging.steps stride List.mem_cons_self
    · exact merging.steps other (List.mem_cons_of_mem _ member)
  · cases same
    rcases among other member with rfl | member
    · exact Nat.le_add_right _ _
    · exact merging.least other member

private theorem Merging.walk_step (within : stride.start < hi) :
    walk hi (stride :: heap) last count =
      walk hi (heap.orderedInsert Stride.le stride.next) (some stride.start) (countOf last stride.start count) := by
  have narrow := merging.narrow
  have steps := merging.steps stride List.mem_cons_self
  have room := merging.counts within ▸ merging.room
  have fits : stride.start + stride.step < 2 ^ 64 := by omega
  unfold countOf at room ⊢
  rw [walk, if_neg (Nat.not_le.mpr within)]
  by_cases again : last = some stride.start
  · simp only [again, ne_eq, not_true_eq_false, if_false, if_true, fits, Option.bind_eq_bind, Option.bind_some, Nat.add_zero]
  · rw [if_neg again] at room
    have counted : add 64 count 1 = some (count + 1) := add_some (by omega)
    simp only [again, counted, ne_eq, not_false_eq_true, if_false, if_true, fits, Option.bind_eq_bind, Option.bind_some]

end

private theorem walk_counts (merging : Merging hi heap last count) :
    walk hi heap last count = some (count + (Stride.remaining heap hi last).ncard) := by
  induction heap, last, count using walk.induct hi with
  | case1 last count =>
    have none : Stride.remaining [] hi last = ∅ := by
      ext cpu
      simp [Stride.remaining, Stride.union]
    rw [walk, none, Set.ncard_empty, Nat.add_zero]
  | case2 stride rest last count beyond ih =>
    rw [walk, if_pos beyond, ih (merging.drop beyond), Stride.remaining_beyond beyond]
  | case3 stride rest last count within _ ih | case4 stride rest last count within _ ih =>
    have within := Nat.lt_of_not_le within
    rw [merging.walk_step within, ih _ (merging.step within), merging.counts within]

end Merge

private theorem Segment.firsts_eq (segment : Segment lo hi active) :
    (active.mapM fun stride => do return (⟨← firstFrom stride lo, stride.step, stride.moves⟩ : Stride)) =
      some (active.map (·.catchUp lo)) := by
  rw [mapM_eq_some, List.forall₂_map_right_iff, List.forall₂_same]
  intro stride member
  rw [(segment.firstFrom_eq member).1]
  rfl

private theorem named_eq_remaining : named active lo hi = Stride.remaining (active.map (·.catchUp lo)) hi none := by
  ext cpu
  simp only [named, Stride.remaining, Stride.union, List.mem_map]
  constructor
  · rintro ⟨⟨stride, member, found⟩, above, below⟩
    exact ⟨⟨_, ⟨stride, member, rfl⟩, Stride.points_catchUp stride lo ▸ ⟨found, above⟩⟩, below, fun same => by cases same⟩
  · rintro ⟨⟨_, ⟨stride, member, rfl⟩, found⟩, below, _⟩
    rw [Stride.points_catchUp] at found
    exact ⟨⟨stride, member, found.1⟩, found.2, below⟩

theorem Segment.mergeCount_eq (segment : Segment lo hi active) : mergeCount lo hi active = some (named active lo hi).ncard := by
  have perm := List.perm_insertionSort Stride.le (active.map (·.catchUp lo))
  have same : Stride.remaining _ hi none = Stride.remaining _ hi none := Stride.remaining_perm perm
  have merging : Merging hi ((active.map (·.catchUp lo)).insertionSort Stride.le) none 0 := by
    refine ⟨segment.narrow, List.pairwise_insertionSort _ _, fun stride member => ?_, fun _ same => (by cases same), ?_⟩
    · obtain ⟨stride, among, rfl⟩ := List.mem_map.mp (perm.mem_iff.mp member)
      exact segment.steps stride among
    · rw [same, ← named_eq_remaining]
      have few := named_ncard_le active lo hi
      have narrow := segment.narrow
      omega
  rw [mergeCount, segment.firsts_eq, Option.bind_eq_bind, Option.bind_some, walk_counts merging, same, ← named_eq_remaining, Nat.zero_add]

private theorem Segment.segmentCount_eq (segment : Segment lo hi active) : segmentCount lo hi active = some (named active lo hi).ncard := by
  unfold segmentCount
  split
  next empty =>
    have none : named active lo hi = ∅ := by
      ext cpu
      simp [named, Stride.union, List.isEmpty_iff.mp empty]
    rw [none, Set.ncard_empty]
  next =>
    split
    next plain => exact segment.rangeCount_eq (by simpa using plain)
    next =>
      split
      · exact segment.strideCount_eq
      · exact segment.mergeCount_eq

/-! ### The line -/

def CpuElement.cpus (element : CpuElement) : Set Nat :=
  {cpu | ∃ count, cpu = element.first.toNat + count * element.stride.toNat ∧ cpu ≤ element.last.toNat}

def cpusOf (elements : List CpuElement) : Set Nat := {cpu | ∃ element ∈ elements, cpu ∈ element.cpus}

theorem CpuElement.past_some (element : CpuElement) : add 64 element.last.toNat 1 = some (element.last.toNat + 1) := by
  have := element.last.toNat_lt
  exact add_some (by omega)

def CpuElement.covers (lo hi : Nat) (element : CpuElement) : Bool :=
  decide (element.first.toNat ≤ lo) && decide (hi ≤ element.last.toNat + 1)

private theorem CpuElement.holds_eq (element : CpuElement) (lo hi : Nat) : element.holds lo hi = some (element.covers lo hi) := by
  unfold holds covers
  rw [element.past_some]
  split <;> simp_all

private theorem activeIn_eq (lo hi : Nat) (elements : List CpuElement) :
    activeIn lo hi elements = some ((elements.filter (·.covers lo hi)).map (·.steps)) := by
  induction elements with
  | nil => rfl
  | cons element rest ih =>
    simp only [activeIn, element.holds_eq, ih, Option.bind_eq_bind, Option.bind_some, List.filter_cons]
    cases element.covers lo hi <;> rfl

theorem mem_dedupRuns {cut : Nat} (cuts : List Nat) : cut ∈ dedupRuns cuts ↔ cut ∈ cuts := by
  fun_induction dedupRuns cuts with
  | case1 two rest ih => simp [ih]
  | case2 one two rest apart ih => simp [ih]
  | case3 => rfl

private theorem dedupRuns_ascending {cuts : List Nat} (sorted : cuts.Pairwise (· ≤ ·)) : (dedupRuns cuts).Pairwise (· < ·) := by
  fun_induction dedupRuns cuts with
  | case1 two rest ih => exact ih sorted.of_cons
  | case2 one two rest apart ih =>
    obtain ⟨least, later⟩ := List.pairwise_cons.mp sorted
    refine List.pairwise_cons.mpr ⟨fun cut member => ?_, ih later⟩
    have between : two ≤ cut := by
      rcases List.mem_cons.mp ((mem_dedupRuns _).mp member) with rfl | member
      · exact Nat.le_refl _
      · exact List.rel_of_pairwise_cons later member
    have := least two List.mem_cons_self
    omega
  | case3 short single =>
    rcases short with _ | ⟨one, _ | ⟨two, rest⟩⟩
    · exact .nil
    · exact List.pairwise_singleton _ _
    · exact absurd rfl (single one two rest)

private theorem cutsOf_eq (elements : List CpuElement) : ∃ cuts, cutsOf elements = some cuts ∧ cuts.Pairwise (· < ·) ∧
    ∀ cut, cut ∈ cuts ↔ ∃ element ∈ elements, cut = element.first.toNat ∨ cut = element.last.toNat + 1 := by
  have bounds : elements.mapM (·.bounds) = some (elements.map fun element => [element.first.toNat, element.last.toNat + 1]) := by
    rw [mapM_eq_some, List.forall₂_map_right_iff, List.forall₂_same]
    intro element _
    rw [CpuElement.bounds, element.past_some]
    rfl
  refine ⟨_, by rw [cutsOf, bounds]; rfl, dedupRuns_ascending ?_, fun cut => ?_⟩
  · have sorted (cuts : List Nat) : (sortBy (fun one two => decide (one ≤ two)) cuts).Pairwise fun one two => decide (one ≤ two) = true :=
      sortBy_sorted (fun a b c => by simpa using Nat.le_trans) (fun a b => by simpa using Nat.le_total a b) cuts
    exact (sorted _).imp fun le => by simpa using le
  · rw [mem_dedupRuns, mem_sortBy]
    simp [List.mem_flatten]

/-- The line from `lo` on, cut at every bound. -/
structure Cut (elements : List CpuElement) (lo : Nat) (rest : List Nat) : Prop where
  ascending : (lo :: rest).Pairwise (· < ·)
  narrow : ∀ cut ∈ rest, cut ≤ 2 ^ 32
  first : ∀ element ∈ elements, element.first.toNat ≤ lo ∨ element.first.toNat ∈ rest
  past : ∀ element ∈ elements, element.last.toNat + 1 ≤ lo ∨ element.last.toNat + 1 ∈ rest

section Line
variable {elements : List CpuElement} {rest : List Nat}

private theorem Cut.tail (cut : Cut elements lo (hi :: rest)) : Cut elements hi rest := by
  obtain ⟨least, later⟩ := List.pairwise_cons.mp cut.ascending
  have below : lo < hi := least hi List.mem_cons_self
  refine ⟨later, fun other member => cut.narrow other (List.mem_cons_of_mem _ member), fun element member => ?_, fun element member => ?_⟩
  · rcases cut.first element member with before | among
    · exact .inl (by omega)
    · exact (List.mem_cons.mp among).imp Nat.le_of_eq id
  · rcases cut.past element member with before | among
    · exact .inl (by omega)
    · exact (List.mem_cons.mp among).imp Nat.le_of_eq id

private theorem Cut.outside (cut : Cut elements lo (hi :: rest)) {bound : Nat} (placed : bound ≤ lo ∨ bound ∈ hi :: rest) :
    bound ≤ lo ∨ hi ≤ bound := by
  refine placed.imp id fun among => ?_
  rcases List.mem_cons.mp among with rfl | among
  · exact Nat.le_refl _
  · exact Nat.le_of_lt (List.rel_of_pairwise_cons cut.ascending.of_cons among)

private theorem Cut.segment (cut : Cut elements lo (hi :: rest)) : Segment lo hi ((elements.filter (·.covers lo hi)).map (·.steps)) := by
  refine ⟨Nat.le_of_lt (List.rel_of_pairwise_cons cut.ascending List.mem_cons_self), cut.narrow hi List.mem_cons_self,
    fun stride member => ?_, fun stride member => ?_⟩
  · obtain ⟨element, held, rfl⟩ := List.mem_map.mp member
    have covered := (List.mem_filter.mp held).2
    simp only [CpuElement.covers, Bool.and_eq_true, decide_eq_true_eq] at covered
    exact covered.1
  · obtain ⟨element, _, rfl⟩ := List.mem_map.mp member
    exact element.stride.toNat_lt

private theorem Cut.named_eq (cut : Cut elements lo (hi :: rest)) :
    named ((elements.filter (·.covers lo hi)).map (·.steps)) lo hi = {cpu ∈ cpusOf elements | lo ≤ cpu ∧ cpu < hi} := by
  ext cpu
  refine and_congr_left fun ⟨above, below⟩ => ?_
  simp only [Stride.union, cpusOf, List.mem_map, List.mem_filter, CpuElement.covers, Bool.and_eq_true, decide_eq_true_eq]
  constructor
  · rintro ⟨_, ⟨element, ⟨member, _, reaches⟩, rfl⟩, count, same⟩
    exact ⟨element, member, count, same, by omega⟩
  · rintro ⟨element, member, count, same, within⟩
    have first := cut.outside (cut.first element member)
    have past := cut.outside (cut.past element member)
    exact ⟨_, ⟨element, ⟨member, by omega, by omega⟩, rfl⟩, count, same⟩

theorem cpusOf_lt {cpu : Nat} (member : cpu ∈ cpusOf elements) : cpu < 2 ^ 32 := by
  obtain ⟨element, _, _, _, within⟩ := member
  have := element.last.toNat_lt
  omega

theorem cpusOf_finite (elements : List CpuElement) : (cpusOf elements).Finite :=
  (Set.finite_Iio (2 ^ 32)).subset fun _ => cpusOf_lt

def fromOn (elements : List CpuElement) (lo : Nat) : Set Nat := {cpu ∈ cpusOf elements | lo ≤ cpu}

private theorem fromOn_finite (elements : List CpuElement) (lo : Nat) : (fromOn elements lo).Finite :=
  (cpusOf_finite elements).subset fun _ member => member.1

private theorem Cut.fromOn_ncard (cut : Cut elements lo (hi :: rest)) :
    (fromOn elements lo).ncard = (named ((elements.filter (·.covers lo hi)).map (·.steps)) lo hi).ncard + (fromOn elements hi).ncard := by
  have below : lo < hi := List.rel_of_pairwise_cons cut.ascending List.mem_cons_self
  have apart : Disjoint (named ((elements.filter (·.covers lo hi)).map (·.steps)) lo hi) (fromOn elements hi) :=
    Set.disjoint_left.mpr fun cpu one two => absurd one.2.2 (Nat.not_lt.mpr two.2)
  have whole : fromOn elements lo = named ((elements.filter (·.covers lo hi)).map (·.steps)) lo hi ∪ fromOn elements hi := by
    rw [cut.named_eq]
    ext cpu
    constructor
    · rintro ⟨member, above⟩
      exact (Nat.lt_or_ge cpu hi).imp (fun inside => ⟨member, above, inside⟩) (fun beyond => ⟨member, beyond⟩)
    · rintro (⟨member, above, _⟩ | ⟨member, beyond⟩)
      · exact ⟨member, above⟩
      · exact ⟨member, Nat.le_trans (Nat.le_of_lt below) beyond⟩
  rw [whole, Set.ncard_union_eq apart (named_finite _ _ _) (fromOn_finite _ _)]

private theorem countSegments_eq (rest : List Nat) {lo total : Nat} (cut : Cut elements lo rest)
    (room : total + (fromOn elements lo).ncard ≤ 2 ^ 32) :
    countSegments elements (lo :: rest) total = some (total + (fromOn elements lo).ncard) := by
  induction rest generalizing lo total with
  | nil =>
    have none : fromOn elements lo = ∅ := by
      ext cpu
      refine ⟨?_, False.elim⟩
      rintro ⟨⟨element, member, _, _, within⟩, above⟩
      have past := (cut.past element member).resolve_right List.not_mem_nil
      omega
    rw [none, Set.ncard_empty]
    rfl
  | cons hi rest ih =>
    rw [cut.fromOn_ncard] at room ⊢
    simp only [countSegments, activeIn_eq, cut.segment.segmentCount_eq, Option.bind_eq_bind, Option.bind_some]
    rw [add_some (by omega), Option.bind_some, ih cut.tail (by omega), Nat.add_assoc]

private theorem cpusOf_ncard_le (elements : List CpuElement) : (cpusOf elements).ncard ≤ 2 ^ 32 := by
  rw [← Set.ncard_Iio_nat (2 ^ 32)]
  exact Set.ncard_le_ncard (fun _ => cpusOf_lt) (Set.finite_Iio _)

private theorem countElements_eq (elements : List CpuElement) :
    countElements elements = some (UInt32.ofNat (min (cpusOf elements).ncard (2 ^ 32 - 1))) := by
  obtain ⟨cuts, cutAt, ascending, members⟩ := cutsOf_eq elements
  have total : countSegments elements cuts 0 = some (cpusOf elements).ncard := by
    cases cuts with
    | nil =>
      have none : cpusOf elements = ∅ := by
        ext cpu
        refine ⟨?_, False.elim⟩
        rintro ⟨element, member, _⟩
        exact absurd ((members element.first.toNat).mpr ⟨element, member, .inl rfl⟩) List.not_mem_nil
      rw [none, Set.ncard_empty]
      rfl
    | cons lo rest =>
      have placed {bound : Nat} (among : bound ∈ lo :: rest) : bound ≤ lo ∨ bound ∈ rest := (List.mem_cons.mp among).imp Nat.le_of_eq id
      have cut : Cut elements lo rest := by
        refine ⟨ascending, fun cut member => ?_, fun element member => placed ((members _).mpr ⟨element, member, .inl rfl⟩),
          fun element member => placed ((members _).mpr ⟨element, member, .inr rfl⟩)⟩
        obtain ⟨element, _, same⟩ := (members cut).mp (List.mem_cons_of_mem _ member)
        have := element.first.toNat_lt
        have := element.last.toNat_lt
        omega
      have all : fromOn elements lo = cpusOf elements := by
        ext cpu
        refine ⟨And.left, fun member => ⟨member, ?_⟩⟩
        obtain ⟨element, among, count, same, _⟩ := member
        have least : lo ≤ element.first.toNat := by
          rcases List.mem_cons.mp ((members _).mpr ⟨element, among, .inl rfl⟩) with same | later
          · exact Nat.le_of_eq same.symm
          · exact Nat.le_of_lt (List.rel_of_pairwise_cons ascending later)
        omega
      have room := cpusOf_ncard_le elements
      rw [countSegments_eq rest cut (by rw [all]; omega), all, Nat.zero_add]
  rw [countElements, cutAt, Option.bind_eq_bind, Option.bind_some, total]
  rfl

end Line

/-! ### The text -/

private theorem cpuCount_written {text : String} {elements : List CpuElement} (written : CpuList text.toList elements) :
    cpuCount text = some (some (UInt32.ofNat (min (cpusOf elements).ncard (2 ^ 32 - 1)))) := by
  rw [cpuCount, parseElements_eq_some.mpr written]
  exact congrArg (Option.map some) (countElements_eq elements)

private theorem cpuCount_refused {text : String} (refused : ¬∃ elements, CpuList text.toList elements) : cpuCount text = some none := by
  rw [cpuCount]
  cases parsed : (text.toList.splitOn ',').mapM parseElement with
  | none => rfl
  | some elements => exact absurd ⟨elements, parseElements_eq_some.mp parsed⟩ refused

private theorem saturated_le {fewer more : Set Nat} (finite : more.Finite) (subset : fewer ⊆ more) :
    UInt32.ofNat (min fewer.ncard (2 ^ 32 - 1)) ≤ UInt32.ofNat (min more.ncard (2 ^ 32 - 1)) := by
  have count := Set.ncard_le_ncard subset finite
  rw [UInt32.le_iff_toNat_le, UInt32.toNat_ofNat_of_lt' (by rw [UInt32.size]; omega), UInt32.toNat_ofNat_of_lt' (by rw [UInt32.size]; omega)]
  omega

/-- `cpu_count` returns the size of the union of its elements, at most `u32::MAX`, on the
texts of the grammar, and refuses every other text. -/
theorem cpu_count_union :
    (∀ (text : String) (elements : List CpuElement), CpuList text.toList elements →
      ∃ count : UInt32, cpuCount text = some (some count) ∧ count.toNat = min (cpusOf elements).ncard (2 ^ 32 - 1)) ∧
    (∀ text : String, (¬∃ elements, CpuList text.toList elements) → cpuCount text = some none) ∧
    (∀ elements : List CpuElement, elements ≠ [] → ∃ text : String, CpuList text.toList elements) ∧
    (∀ (text other : String) (elements others : List CpuElement), CpuList text.toList elements → CpuList other.toList others →
      (∀ element, element ∈ elements ↔ element ∈ others) → cpuCount text = cpuCount other) ∧
    (∀ (text other : String) (elements others : List CpuElement), CpuList text.toList elements → CpuList other.toList others →
      elements ⊆ others → ∃ fewer more, cpuCount text = some (some fewer) ∧ cpuCount other = some (some more) ∧ fewer ≤ more) ∧
    (∀ (lo hi : Nat) (active : List Stride), Segment lo hi active →
      ((∃ stride ∈ active, stride.step = 1) → rangeCount lo hi = mergeCount lo hi active) ∧
      ∀ stride, active = [stride] → strideCount lo hi stride = mergeCount lo hi active ∧
        (stride.step = 1 → rangeCount lo hi = strideCount lo hi stride)) := by
  have counts (elements : List CpuElement) : min (cpusOf elements).ncard (2 ^ 32 - 1) < UInt32.size := by
    rw [UInt32.size]
    omega
  refine ⟨fun text elements written => ⟨_, cpuCount_written written, UInt32.toNat_ofNat_of_lt' (counts elements)⟩,
    fun text => cpuCount_refused, fun elements some_ => ?_, fun text other elements others written written' same => ?_,
    fun text other elements others written written' subset => ?_, fun lo hi active segment => ⟨fun plain => ?_, ?_⟩⟩
  · obtain ⟨text, written⟩ := exists_cpuList some_
    exact ⟨String.ofList text, by simpa using written⟩
  · have union : cpusOf elements = cpusOf others := by simp only [cpusOf, same]
    rw [cpuCount_written written, cpuCount_written written', union]
  · have union : cpusOf elements ⊆ cpusOf others := fun cpu ⟨element, member, found⟩ => ⟨element, subset member, found⟩
    exact ⟨_, _, cpuCount_written written, cpuCount_written written', saturated_le (cpusOf_finite others) union⟩
  · rw [segment.rangeCount_eq plain, segment.mergeCount_eq]
  · rintro stride rfl
    refine ⟨by rw [segment.strideCount_eq, segment.mergeCount_eq], fun one => ?_⟩
    rw [segment.rangeCount_eq ⟨stride, List.mem_cons_self, one⟩, segment.strideCount_eq]

def overlapping : List CpuElement := [⟨0, 10, 2, by decide, by decide⟩, ⟨5, 15, 3, by decide, by decide⟩]

theorem cpu_count_union_overlapping : min (cpusOf overlapping).ncard (2 ^ 32 - 1) = 9 := by
  have written : CpuList "0-10:2,5-15:3".toList overlapping := parseElements_eq_some.mp (by decide +kernel)
  have nine : cpuCount "0-10:2,5-15:3" = some (some 9) := by decide +kernel
  obtain ⟨count, counted, union⟩ := cpu_count_union.1 "0-10:2,5-15:3" overlapping written
  rw [nine] at counted
  cases counted
  exact union.symm

end UringMqtt.Bench

import UringMqtt.Bench.Matrix

/-! What the judgement of a configuration depends on. A complete attempt, a passing one and
the plan of a resumed session do not depend on the order in which the records were read. -/

namespace UringMqtt.Bench
open Lib

variable {f64 : F64}

/-! ### Sorting -/

section Sorting
variable {α : Type} {le : α → α → Bool}

theorem sortBy_perm (values : List α) : (sortBy le values).Perm values := List.perm_insertionSort _ _

variable {values : List α}

theorem mem_sortBy {value : α} : value ∈ sortBy le values ↔ value ∈ values := (sortBy_perm values).mem_iff

section
variable (trans : ∀ a b c, le a b → le b c → le a c)
include trans

theorem sortBy_sorted (total : ∀ a b, le a b ∨ le b a) (values : List α) :
    (sortBy le values).Pairwise fun first second => le first second = true :=
  have : Std.Total fun first second => le first second = true := ⟨total⟩
  have : IsTrans α fun first second => le first second = true := ⟨trans⟩
  List.pairwise_insertionSort _ _

private theorem sortBy_sorted_on {good : α → Prop}
    (total : ∀ a b, good a → good b → le a b ∨ le b a) (all : ∀ value ∈ values, good value) :
    (sortBy le values).Pairwise fun first second => le first second = true := by
  lift values to List { value // good value } using all
  have mapped : (sortBy (fun first second => le first.1 second.1) values).map Subtype.val = sortBy le (values.map Subtype.val) :=
    List.map_insertionSort _ _ _ _ fun _ _ _ _ => Iff.rfl
  rw [← mapped, List.pairwise_map]
  exact @sortBy_sorted { value // good value } (fun first second => le first.1 second.1) (fun a b c => trans a b c)
    (fun a b => total a b a.2 b.2) values

private theorem sortBy_eq_of_perm (total : ∀ a b, le a b ∨ le b a)
    (antisymm : ∀ a b, le a b → le b a → a = b) {others : List α} (same : values.Perm others) :
    sortBy le values = sortBy le others :=
  List.Perm.eq_of_pairwise (fun a b _ _ => antisymm a b) (sortBy_sorted trans total values) (sortBy_sorted trans total others)
    ((sortBy_perm values).trans (same.trans (sortBy_perm others).symm))

end

private theorem filter_sortBy {key : α → UInt32} (values : List α) (rank : UInt32) :
    (sortBy (fun first second => key first ≤ key second) values).filter (fun value => key value = rank) =
      values.filter fun value => key value = rank := by
  have inserted (value : α) (list : List α) :
      (list.orderedInsert (fun first second => decide (key first ≤ key second) = true) value).filter
          (fun value => decide (key value = rank)) =
        (value :: list).filter fun value => decide (key value = rank) := by
    induction list with
    | nil => rfl
    | cons next rest ih =>
      rw [List.orderedInsert_cons]
      split
      · rfl
      next above =>
        -- What the value is moved behind has a lower rank.
        have apart : key value = rank → key next ≠ rank := fun here there => above (by simp [here, there])
        rw [List.filter_cons, ih]
        by_cases here : key value = rank
        · simp [here, apart here]
        · simp [here, List.filter_cons]
  induction values with
  | nil => rfl
  | cons value rest ih =>
    change (List.orderedInsert _ value (sortBy _ rest)).filter _ = _
    rw [inserted, List.filter_cons, List.filter_cons, ih]

theorem le_getLast {last : α} (sorted : values.Pairwise fun first second => le first second = true)
    (refl : ∀ value, le value value) (ends : values.getLast? = some last) : ∀ value ∈ values, le value last = true := by
  obtain ⟨front, rfl⟩ := List.getLast?_eq_some_iff.mp ends
  intro value member
  rcases List.mem_append.mp member with before | here
  · exact (List.pairwise_append.mp sorted).2.2 value before last List.mem_cons_self
  · rw [List.mem_singleton.mp here]
    exact refl last

end Sorting

variable {values : List UInt32} {repetitions attempt : UInt32} {runs others : List (RunRecord f64)}

theorem sortBy_numbers_eq {others : List UInt32} (same : values.Perm others) :
    sortBy (· ≤ ·) values = sortBy (· ≤ ·) others := by
  refine sortBy_eq_of_perm (fun a b c => ?_) (fun a b => ?_) (fun a b => ?_) same
  all_goals simp only [decide_eq_true_eq]
  · exact UInt32.le_trans
  · exact UInt32.le_total a b
  · exact UInt32.le_antisymm

/-! ### Repetitions -/

private theorem repetitionRange_sorted (repetitions : UInt32) : (repetitionRange repetitions).Pairwise fun first second => first < second := by
  have bound := repetitions.toNat_lt
  refine List.pairwise_map.mpr ((List.pairwise_lt_range (n := repetitions.toNat)).imp_of_mem fun {first second} one two less => ?_)
  have := List.mem_range.mp one
  have := List.mem_range.mp two
  rw [UInt32.lt_iff_toNat_lt, UInt32.toNat_ofNat_of_lt' (by grind), UInt32.toNat_ofNat_of_lt' (by grind)]
  omega

theorem length_repetitionRange (repetitions : UInt32) : (repetitionRange repetitions).length = repetitions.toNat := by
  simp [repetitionRange]

private theorem sortBy_eq_range :
    sortBy (· ≤ ·) values = repetitionRange repetitions ↔ values.Perm (repetitionRange repetitions) := by
  constructor
  · intro same
    exact same ▸ (sortBy_perm values).symm
  · intro same
    rw [sortBy_numbers_eq same]
    have sorted : (repetitionRange repetitions).Pairwise fun first second => decide (first ≤ second) = true :=
      (repetitionRange_sorted repetitions).imp fun less => by simpa using UInt32.le_of_lt less
    exact List.Pairwise.insertionSort_eq sorted

/-! ### A complete attempt -/

theorem attemptComplete_iff :
    attemptComplete runs repetitions = true ↔ (∀ run ∈ runs, run.cancelled = false) ∧ (∀ run ∈ runs, run.survived = false) ∧
      (runs.map (·.repetition)).Perm (repetitionRange repetitions) := by
  rw [← sortBy_eq_range]
  cases cancelled : runs.find? (·.cancelled) with
  | some run =>
    have found := List.find?_some cancelled
    have member := List.mem_of_find?_eq_some cancelled
    simp only [attemptComplete, incompleteReason, cancelled, Option.isNone_some, Bool.false_eq_true, false_iff, not_and]
    exact fun none => absurd found (by simp [none run member])
  | none =>
    cases survived : runs.find? (·.survived) with
    | some run =>
      have found := List.find?_some survived
      have member := List.mem_of_find?_eq_some survived
      simp only [attemptComplete, incompleteReason, cancelled, survived, Option.isNone_some, Bool.false_eq_true, false_iff, not_and]
      exact fun _ none => absurd found (by simp [none run member])
    | none =>
      have cancelled' := List.find?_eq_none.mp cancelled
      have survived' := List.find?_eq_none.mp survived
      simp only [Bool.not_eq_true] at cancelled' survived'
      simp only [attemptComplete, incompleteReason, cancelled, survived]
      constructor
      · intro complete
        refine ⟨cancelled', survived', ?_⟩
        by_contra other
        simp [other] at complete
      · rintro ⟨_, _, same⟩
        simp [same]

theorem attemptComplete_perm (same : runs.Perm others) :
    attemptComplete runs repetitions = attemptComplete others repetitions := by
  rw [Bool.eq_iff_iff, attemptComplete_iff, attemptComplete_iff]
  have reps := same.map (·.repetition)
  constructor
  · rintro ⟨cancelled, survived, all⟩
    exact ⟨fun run member => cancelled run (same.mem_iff.mpr member), fun run member => survived run (same.mem_iff.mpr member),
      reps.symm.trans all⟩
  · rintro ⟨cancelled, survived, all⟩
    exact ⟨fun run member => cancelled run (same.mem_iff.mp member), fun run member => survived run (same.mem_iff.mp member),
      reps.trans all⟩

/-! ### The spread -/

/-- Equal in every comparison: the same number, or the two zeros. -/
def Alike (one two : f64.Value) : Prop := f64.le one two = true ∧ f64.le two one = true

def IsNumber (value : f64.Value) : Prop := f64.le value value = true

def Same (one two : f64.Value) : Prop := one = two ∨ Alike one two

/-- The comparisons of `f64` order the numbers, and no operation of the spread tells the
two zeros apart, but for a division by one of them. -/
class OrderedF64 (f64 : F64) [Figures f64] : Prop where
  le_trans : ∀ a b c, f64.le a b → f64.le b c → f64.le a c
  le_total : ∀ a b : f64.Value, IsNumber a → IsNumber b → f64.le a b ∨ f64.le b a
  lt_eq : ∀ a b : f64.Value, IsNumber a → IsNumber b → f64.lt a b = !f64.le b a
  sub_same : ∀ a a' b b' : f64.Value, Same a a' → Same b b' → Same (f64.sub a b) (f64.sub a' b')
  div_same : ∀ a a' b b' : f64.Value, Same a a' → Same b b' → ¬Alike b (f64.ofNat 0) → Same (f64.div a b) (f64.div a' b')
  midpoint_same : ∀ a a' b b' : f64.Value, Same a a' → Same b b' → Same (Figures.midpoint a b) (Figures.midpoint a' b')

def Numeric (runs : List (RunRecord f64)) : Prop := ∀ run ∈ runs, ∀ value, metric run = some value → IsNumber value

section Spread

private theorem foldl_best {before better : f64.Value → f64.Value → Bool} {good : f64.Value → Prop}
    (trans : ∀ a b c, before a b → before b c → before a c) (total : ∀ a b, good a → good b → before a b ∨ before b a)
    (strict : ∀ a b, good a → good b → better a b = !before b a) (value : f64.Value) (rest : List f64.Value)
    (all : ∀ other ∈ value :: rest, good other) :
    let best := rest.foldl (fun best value => if better value best then value else best) value
    best ∈ value :: rest ∧ ∀ other ∈ value :: rest, before best other = true := by
  have refl (a : f64.Value) (good : good a) : before a a = true := (total a a good good).elim id id
  induction rest generalizing value with
  | nil => simpa using refl value (all value List.mem_cons_self)
  | cons next rest ih =>
    obtain ⟨goodValue, goodNext, goodRest⟩ : good value ∧ good next ∧ ∀ other ∈ rest, good other := by simpa using all
    have goodBest : good (if better next value then next else value) := by split <;> assumption
    obtain ⟨member, least⟩ := ih (if better next value then next else value) (by simpa using ⟨goodBest, goodRest⟩)
    have chosen : before (if better next value then next else value) value = true ∧
        before (if better next value then next else value) next = true := by
      rw [strict _ _ goodNext goodValue]
      cases order : before value next with
      | true => simp [order, refl _ goodValue]
      | false => simp [refl _ goodNext, (total value next goodValue goodNext).resolve_left (by simp [order])]
    have first := least _ List.mem_cons_self
    refine ⟨?_, fun other among => ?_⟩
    · rcases List.mem_cons.mp member with same | later
      · rw [List.foldl_cons, same]
        split <;> simp
      · exact List.mem_cons_of_mem _ (List.mem_cons_of_mem _ later)
    · rcases List.mem_cons.mp among with rfl | among
      · exact trans _ _ _ first chosen.1
      rcases List.mem_cons.mp among with rfl | among
      · exact trans _ _ _ first chosen.2
      · exact least other (List.mem_cons_of_mem _ among)

private theorem foldl_best_perm {before better : f64.Value → f64.Value → Bool} {good : f64.Value → Prop}
    (trans : ∀ a b c, before a b → before b c → before a c) (total : ∀ a b, good a → good b → before a b ∨ before b a)
    (strict : ∀ a b, good a → good b → better a b = !before b a) {value value' : f64.Value} {rest rest' : List f64.Value}
    (same : (value :: rest).Perm (value' :: rest')) (all : ∀ other ∈ value :: rest, good other) :
    let best := rest.foldl (fun best value => if better value best then value else best) value
    let best' := rest'.foldl (fun best value => if better value best then value else best) value'
    before best best' = true ∧ before best' best = true := by
  obtain ⟨member, best⟩ := foldl_best trans total strict value rest all
  obtain ⟨member', best'⟩ := foldl_best trans total strict value' rest' fun other among => all other (same.mem_iff.mpr among)
  exact ⟨best _ (same.mem_iff.mpr member'), best' _ (same.mem_iff.mp member)⟩

variable [Figures f64]

variable {runs : List (RunRecord f64)} {repetitions : UInt32} {enforceSpread : Bool} {one two : f64.Value}
  {values others : List f64.Value}

theorem configPasses_iff :
    configPasses runs repetitions enforceSpread = true ↔ attemptComplete runs repetitions = true ∧
      (∀ run ∈ runs, run.valid = true) ∧ (enforceSpread = true → (∀ run ∈ runs, (metric run).isSome) ∧
        ∃ s, spread (runs.filterMap metric) = some s ∧ f64.le s spreadLimit = true) := by
  unfold configPasses configFailure attemptComplete
  cases incompleteReason runs repetitions with
  | some reason => simp
  | none =>
    cases invalid : runs.find? fun run => !run.valid with
    | some run =>
      have found := List.find?_some invalid
      have member := List.mem_of_find?_eq_some invalid
      simp only [Option.isNone_some, Bool.false_eq_true, Option.isNone_none, true_and, false_iff, not_and]
      exact fun all => absurd found (by simp [all run member])
    | none =>
      have valid := List.find?_eq_none.mp invalid
      cases enforceSpread with
      | false => simpa using valid
      | true =>
        cases missing : missingMetric runs with
        | some run =>
          have found := List.find?_some missing
          have member := List.mem_of_find?_eq_some missing
          simp only [Bool.not_true, Bool.false_eq_true, if_false, Option.isNone_some, false_iff, not_and]
          exact fun _ _ all => absurd ((all trivial).1 run member) (by simpa using found)
        | none =>
          have present : ∀ run ∈ runs, (metric run).isSome := by
            simpa [Option.isSome_iff_ne_none] using List.find?_eq_none.mp missing
          cases spread (runs.filterMap metric) with
          | none => simp
          | some s =>
            by_cases fits : f64.le s spreadLimit = true
            · simpa [fits] using ⟨by simpa using valid, present⟩
            · simp [fits]

variable [OrderedF64 f64]

theorem Same.le_eq (same : Same one two) (bound : f64.Value) : f64.le one bound = f64.le two bound := by
  rcases same with rfl | ⟨below, above⟩
  · rfl
  · rw [Bool.eq_iff_iff]
    exact ⟨OrderedF64.le_trans _ _ _ above, OrderedF64.le_trans _ _ _ below⟩

private theorem Same.eq_le (same : Same one two) (bound : f64.Value) : f64.le bound one = f64.le bound two := by
  rcases same with rfl | ⟨below, above⟩
  · rfl
  · rw [Bool.eq_iff_iff]
    exact ⟨fun least => OrderedF64.le_trans _ _ _ least below, fun least => OrderedF64.le_trans _ _ _ least above⟩

/-- The numbers up to a value, which tell values apart but for the zeros. -/
def lowerSet (value : f64.Value) : Set f64.Value := {other | f64.le other value = true}

omit [Figures f64] [OrderedF64 f64] in
private theorem alike_of_lowerSet (first : IsNumber one) (second : IsNumber two) (same : lowerSet one = lowerSet two) : Alike one two :=
  ⟨(same ▸ first : one ∈ lowerSet two), (same.symm ▸ second : two ∈ lowerSet one)⟩

private theorem sortBy_same (same : values.Perm others) (numbers : ∀ value ∈ values, IsNumber value)
    (index : Nat) : Option.Rel Same (sortBy f64.le values)[index]? (sortBy f64.le others)[index]? := by
  have numbers' : ∀ value ∈ others, IsNumber value := fun value member => numbers value (same.mem_iff.mpr member)
  have ascending {list : List f64.Value} (numbers : ∀ value ∈ list, IsNumber value) :
      ((sortBy f64.le list).map lowerSet).Pairwise (· ⊆ ·) := by
    rw [List.pairwise_map]
    refine (sortBy_sorted_on OrderedF64.le_trans OrderedF64.le_total numbers).imp fun {one two} below other => ?_
    exact fun least => OrderedF64.le_trans _ _ _ least below
  have perm : (sortBy f64.le values).Perm (sortBy f64.le others) := (sortBy_perm _).trans (same.trans (sortBy_perm _).symm)
  have sets : (sortBy f64.le values).map lowerSet = (sortBy f64.le others).map lowerSet :=
    (perm.map lowerSet).eq_of_pairwise (fun _ _ _ _ => Set.Subset.antisymm) (ascending numbers) (ascending numbers')
  have here := congrArg (·[index]?) sets
  simp only [List.getElem?_map] at here
  cases one : (sortBy f64.le values)[index]? with
  | none =>
    rw [one, Option.map_none, eq_comm, Option.map_eq_none_iff] at here
    rw [here]
    exact .none
  | some value =>
    rw [one, Option.map_some, eq_comm, Option.map_eq_some_iff] at here
    obtain ⟨other, two, lower⟩ := here
    rw [two]
    have first := numbers value (mem_sortBy.mp (List.mem_of_getElem? one))
    have second := numbers' other (mem_sortBy.mp (List.mem_of_getElem? two))
    exact .some (.inr (alike_of_lowerSet first second lower.symm))

private theorem median_perm (same : values.Perm others) (numbers : ∀ value ∈ values, IsNumber value) :
    Option.Rel Same (median values) (median others) := by
  have lengths : (sortBy f64.le values).length = (sortBy f64.le others).length :=
    ((sortBy_perm _).trans (same.trans (sortBy_perm _).symm)).length_eq
  unfold median
  dsimp only
  rw [lengths]
  generalize (sortBy f64.le others).length = n
  split
  · exact sortBy_same same numbers _
  · have low := sortBy_same same numbers (n / 2 - 1)
    have high := sortBy_same same numbers (n / 2)
    generalize (sortBy f64.le values)[n / 2 - 1]? = low1, (sortBy f64.le others)[n / 2 - 1]? = low2 at low
    generalize (sortBy f64.le values)[n / 2]? = high1, (sortBy f64.le others)[n / 2]? = high2 at high
    cases low with
    | none => exact .none
    | some low =>
      cases high with
      | none => exact .none
      | some high => exact .some (OrderedF64.midpoint_same _ _ _ _ low high)

private theorem spread_perm (same : values.Perm others) (numbers : ∀ value ∈ values, IsNumber value) :
    Option.Rel Same (spread values) (spread others) := by
  cases values with
  | nil =>
    rw [List.nil_perm.mp same]
    exact .none
  | cons value rest =>
    cases others with
    | nil => exact absurd same.length_eq (by simp)
    | cons value' rest' =>
      have least := foldl_best_perm OrderedF64.le_trans OrderedF64.le_total OrderedF64.lt_eq same numbers
      have most := @foldl_best_perm f64 (fun a b => f64.le b a) (fun a b => f64.lt b a) IsNumber
        (fun a b c first second => OrderedF64.le_trans c b a second first) (fun a b one two => OrderedF64.le_total b a two one)
        (fun a b one two => OrderedF64.lt_eq b a two one) _ _ _ _ same numbers
      have medians := median_perm same numbers
      rw [spread, spread]
      generalize median (value :: rest) = m, median (value' :: rest') = m' at medians
      cases medians with
      | none => exact .none
      | some alike =>
        rename_i m m'
        simp only [Option.bind_eq_bind, Option.bind_some, ← alike.le_eq, ← alike.eq_le]
        split
        · exact .none
        next nonzero =>
          refine .some (OrderedF64.div_same _ _ _ _ (OrderedF64.sub_same _ _ _ _ (.inr most.symm) (.inr least)) alike fun zero => ?_)
          exact nonzero (by simp [zero.1, zero.2])

theorem configPasses_perm {others : List (RunRecord f64)} (numeric : Numeric runs) (same : runs.Perm others) :
    configPasses runs repetitions enforceSpread = configPasses others repetitions enforceSpread := by
  have numbers : ∀ value ∈ runs.filterMap metric, IsNumber value := by
    intro value member
    obtain ⟨run, among, found⟩ := List.mem_filterMap.mp member
    exact numeric run among value found
  have within : (∃ s, spread (runs.filterMap metric) = some s ∧ f64.le s spreadLimit = true) ↔
      ∃ s, spread (others.filterMap metric) = some s ∧ f64.le s spreadLimit = true := by
    have spreads := spread_perm (same.filterMap metric) numbers
    generalize spread (runs.filterMap metric) = s, spread (others.filterMap metric) = s' at spreads
    cases spreads with
    | none => exact Iff.rfl
    | some alike => simp [alike.le_eq]
  rw [Bool.eq_iff_iff, configPasses_iff, configPasses_iff, attemptComplete_perm same, within]
  simp only [same.mem_iff]

end Spread

/-! ### Attempts -/

theorem mem_attemptsOf : attempt ∈ attemptsOf runs ↔ ∃ run ∈ runs, run.attempt = attempt := by
  simp [attemptsOf, mem_sortBy]

theorem attemptsOf_nodup (runs : List (RunRecord f64)) : (attemptsOf runs).Nodup :=
  (sortBy_perm _).nodup_iff.mpr (List.nodup_dedup _)

theorem mem_attemptGroup {run : RunRecord f64} :
    run ∈ attemptGroup runs attempt ↔ run ∈ runs ∧ run.attempt = attempt := by
  simp [attemptGroup]

theorem attemptGroup_perm (same : runs.Perm others) (attempt : UInt32) :
    (attemptGroup runs attempt).Perm (attemptGroup others attempt) := same.filter _

def completedCount (runs : List (RunRecord f64)) (repetitions : UInt32) : Nat := (completedAttempts runs repetitions).length

private theorem completedCount_perm (same : runs.Perm others) :
    completedCount runs repetitions = completedCount others repetitions := by
  have attempts : attemptsOf runs = attemptsOf others := sortBy_numbers_eq (same.map _).dedup
  simp only [completedCount, completedAttempts, attempts, attemptComplete_perm (attemptGroup_perm same _)]

/-! ### The highest attempt -/

/-- The highest attempt of `runs`. -/
def Highest (runs : List (RunRecord f64)) (attempt : UInt32) : Prop :=
  (∃ run ∈ runs, run.attempt = attempt) ∧ ∀ run ∈ runs, run.attempt ≤ attempt

theorem Highest.unique {one two : UInt32} (first : Highest runs one) (second : Highest runs two) :
    one = two := by
  obtain ⟨⟨run, member, rfl⟩, most⟩ := first
  obtain ⟨⟨run', member', rfl⟩, most'⟩ := second
  exact UInt32.le_antisymm (most' run member) (most run' member')

theorem Highest.perm {runs others : List (RunRecord f64)} {attempt : UInt32} (highest : Highest runs attempt)
    (same : runs.Perm others) : Highest others attempt := by
  obtain ⟨⟨run, member, rfl⟩, most⟩ := highest
  exact ⟨⟨run, same.mem_iff.mp member, rfl⟩, fun other among => most other (same.mem_iff.mpr among)⟩

private theorem getLast_highest {last : RunRecord f64}
    (ends : (sortBy (fun first second => first.attempt ≤ second.attempt) runs).getLast? = some last) : Highest runs last.attempt := by
  refine ⟨⟨last, mem_sortBy.mp (List.mem_of_getLast? ends), rfl⟩, fun run member => ?_⟩
  have sorted : (sortBy (fun first second : RunRecord f64 => first.attempt ≤ second.attempt) runs).Pairwise
      fun first second => decide (first.attempt ≤ second.attempt) = true :=
    sortBy_sorted (fun a b c => by simpa using UInt32.le_trans) (fun a b => by simpa using UInt32.le_total a.attempt b.attempt) runs
  simpa using le_getLast sorted (fun run => by simp) ends run (mem_sortBy.mpr member)

section HighestPasses
variable [Figures f64]

def HighestPasses (runs : List (RunRecord f64)) (constants : ProtocolConstants) : Prop :=
  ∃ attempt, Highest runs attempt ∧ configPasses (attemptGroup runs attempt) constants.repetitions constants.enforceSpread = true

theorem highestPasses_iff {runs : List (RunRecord f64)} {constants : ProtocolConstants} {attempt : UInt32} (highest : Highest runs attempt) :
    HighestPasses runs constants ↔ configPasses (attemptGroup runs attempt) constants.repetitions constants.enforceSpread = true := by
  constructor
  · rintro ⟨other, highest', passes⟩
    rwa [highest.unique highest']
  · exact fun passes => ⟨attempt, highest, passes⟩

/-- What a plan may say of a configuration with these records. -/
inductive Planned (runs : List (RunRecord f64)) (constants : ProtocolConstants) : Option ResumeState → Prop
  | untried (none_ : runs = []) : Planned runs constants none
  | passed (settled : HighestPasses runs constants) : Planned runs constants (some .passed)
  | next {highest attempt : UInt32} (most : Highest runs highest) (unsettled : ¬HighestPasses runs constants)
      (succ : checkedSucc highest = some attempt) :
      Planned runs constants
        (some (.nextAttempt attempt (constants.maxConfigAttempts.toNat - completedCount runs constants.repetitions)))
  | last {highest : UInt32} (most : Highest runs highest) (unsettled : ¬HighestPasses runs constants) (succ : checkedSucc highest = none) :
      Planned runs constants (some (.nextAttempt highest 0))

theorem resumePlan_planned (existing : List (RunRecord f64)) (constants : ProtocolConstants) (key : ConfigKey) :
    Planned (existing.filter (·.key = key)) constants (resumePlan existing constants key) := by
  let runs := sortBy (fun first second : RunRecord f64 => decide (first.attempt ≤ second.attempt)) (existing.filter (·.key = key))
  have perm : runs.Perm (existing.filter (·.key = key)) := sortBy_perm _
  have groups (attempt : UInt32) : attemptGroup runs attempt = attemptGroup (existing.filter (·.key = key)) attempt :=
    filter_sortBy _ attempt
  unfold resumePlan
  cases ends : runs.getLast? with
  | none =>
    rw [List.getLast?_eq_none_iff] at ends
    simp only [show sortBy _ _ = runs from rfl, ends, List.getLast?_nil, Option.map_none]
    exact .untried (List.nil_perm.mp (ends ▸ perm))
  | some last =>
    have highest := getLast_highest ends
    simp only [show sortBy _ _ = runs from rfl, ends, Option.map_some, groups]
    split
    next passed => exact .passed ⟨_, highest, passed⟩
    next failed =>
      have unsettled : ¬HighestPasses (existing.filter (·.key = key)) constants := fun settled =>
        failed ((highestPasses_iff highest).mp settled)
      split
      next succ =>
        rw [show (completedAttempts runs constants.repetitions).length = completedCount runs constants.repetitions from rfl,
          completedCount_perm perm]
        exact .next highest unsettled succ
      next succ => exact .last highest unsettled succ

end HighestPasses
end UringMqtt.Bench

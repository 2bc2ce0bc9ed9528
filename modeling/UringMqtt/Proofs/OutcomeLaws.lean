import UringMqtt.Proofs.AttemptLaws
import UringMqtt.Proofs.OwnRecords
import Mathlib.Data.Set.Card

/-! How an open-loop configuration ended, from its records alone. The outcome is the one
its definition names, whatever the order of the records, and the plan of a resumed session
agrees with it. -/

namespace UringMqtt.Bench
open Lib

variable {f64 : F64} {runs : List (RunRecord f64)} {constants : ProtocolConstants}

/-! ### The definition -/

def Completes (runs : List (RunRecord f64)) (constants : ProtocolConstants) (attempt : UInt32) : Prop :=
  attemptComplete (attemptGroup runs attempt) constants.repetitions = true

structure Spoils (runs : List (RunRecord f64)) (constants : ProtocolConstants) (run : RunRecord f64) : Prop where
  recorded : run ∈ runs
  invalid : run.valid = false
  completes : Completes runs constants run.attempt

/-- The repetition fails some capacity row and no counter row. -/
def Overloaded (run : RunRecord f64) : Prop := capacityRows run ≠ [] ∧ counterFailed run = false

structure Overrun (runs : List (RunRecord f64)) (constants : ProtocolConstants) : Prop where
  counted : ∀ run ∈ runs, ¬(run.kind = .counted ∧ run.syscalls.method = .strace)
  spoiled : ∀ attempt, Completes runs constants attempt → ∃ run, Spoils runs constants run ∧ run.attempt = attempt
  overloaded : ∀ run, Spoils runs constants run → Overloaded run

/-- The rows the invalid repetitions fail, in their order and each once. -/
structure RowsOf (runs : List (RunRecord f64)) (constants : ProtocolConstants) (rows : List CapacityRow) : Prop where
  ascending : rows.Sublist CapacityRow.all
  union : ∀ row, row ∈ rows ↔ ∃ run, Spoils runs constants run ∧ row ∈ capacityRows run

/-! ### The loops -/

private theorem invalidRows_cases (attempt : UInt32) (invalid : List (RunRecord f64)) :
    (∃ cause, invalidRows attempt invalid = .error cause ∧ ∃ run ∈ invalid, ¬Overloaded run) ∨
    (invalidRows attempt invalid = .ok (invalid.flatMap capacityRows) ∧ ∀ run ∈ invalid, Overloaded run) := by
  induction invalid with
  | nil => exact .inr ⟨rfl, List.forall_mem_nil _⟩
  | cons run rest ih =>
    unfold invalidRows
    split
    next failed => exact .inl ⟨_, rfl, run, List.mem_cons_self, fun heavy => by simp [heavy.2] at failed⟩
    next passed =>
      split
      next none => exact .inl ⟨_, rfl, run, List.mem_cons_self, fun heavy => heavy.1 none⟩
      next some =>
        have heavy : Overloaded run := ⟨some, by simpa using passed⟩
        rcases ih with ⟨cause, failed, other, member, not⟩ | ⟨all, overs⟩
        · exact .inl ⟨cause, by rw [failed]; rfl, other, List.mem_cons_of_mem _ member, not⟩
        · exact .inr ⟨by rw [all]; rfl, List.forall_mem_cons.mpr ⟨heavy, overs⟩⟩

def invalidOf (runs : List (RunRecord f64)) (attempt : UInt32) : List (RunRecord f64) :=
  (attemptGroup runs attempt).filter fun run => !run.valid

variable {attempt : UInt32} {run : RunRecord f64} {row : CapacityRow}

theorem mem_invalidOf :
    run ∈ invalidOf runs attempt ↔ run ∈ runs ∧ run.attempt = attempt ∧ run.valid = false := by
  simp [invalidOf, mem_attemptGroup, and_assoc]

section
variable [Figures f64]

private theorem exhaustionRows_cases (runs : List (RunRecord f64)) (constants : ProtocolConstants) (attempts : List UInt32) :
    (∃ cause, exhaustionRows runs constants attempts = .error cause ∧
      ∃ attempt ∈ attempts, invalidOf runs attempt = [] ∨ ∃ run ∈ invalidOf runs attempt, ¬Overloaded run) ∨
    ∃ rows, exhaustionRows runs constants attempts = .ok rows ∧
      (∀ attempt ∈ attempts, invalidOf runs attempt ≠ [] ∧ ∀ run ∈ invalidOf runs attempt, Overloaded run) ∧
      ∀ row, row ∈ rows ↔ ∃ attempt ∈ attempts, ∃ run ∈ invalidOf runs attempt, row ∈ capacityRows run := by
  induction attempts with
  | nil => exact .inr ⟨[], rfl, List.forall_mem_nil _, by simp⟩
  | cons attempt rest ih =>
    let sorted := sortBy (fun first second => first.repetition ≤ second.repetition) (invalidOf runs attempt)
    have members (run : RunRecord f64) : run ∈ sorted ↔ run ∈ invalidOf runs attempt := mem_sortBy
    unfold exhaustionRows
    dsimp only
    split
    next none =>
      refine .inl ⟨_, rfl, attempt, List.mem_cons_self, .inl (List.eq_nil_iff_forall_not_mem.mpr fun run member => ?_)⟩
      have found : run ∈ sorted := (members run).mpr member
      rw [show sorted = [] from none] at found
      cases found
    next some =>
      have spoiled : invalidOf runs attempt ≠ [] := fun none => some (by
        change sortBy _ (invalidOf runs attempt) = []
        rw [none]
        rfl)
      rcases invalidRows_cases attempt sorted with ⟨cause, failed, run, member, not⟩ | ⟨all, overs⟩
      · refine .inl ⟨cause, ?_, attempt, List.mem_cons_self, .inr ⟨run, (members run).mp member, not⟩⟩
        change (invalidRows attempt sorted >>= _) = _
        rw [failed]
        rfl
      · rcases ih with ⟨cause, failed, other, member, not⟩ | ⟨rows, later, each, union⟩
        · refine .inl ⟨cause, ?_, other, List.mem_cons_of_mem _ member, not⟩
          change (invalidRows attempt sorted >>= _) = _
          rw [all]
          change (exhaustionRows runs constants rest >>= _) = _
          rw [failed]
          rfl
        · refine .inr ⟨sorted.flatMap capacityRows ++ rows, ?_, ?_, fun row => ?_⟩
          · change (invalidRows attempt sorted >>= _) = _
            rw [all]
            change (exhaustionRows runs constants rest >>= _) = _
            rw [later]
            rfl
          · exact List.forall_mem_cons.mpr ⟨⟨spoiled, fun run member => overs run ((members run).mpr member)⟩, each⟩
          · simp only [List.mem_append, List.mem_flatMap, members, union, List.mem_cons, exists_eq_or_imp]

end

/-! ### The complete attempts -/

section
variable (some_ : 1 ≤ constants.repetitions.toNat)
include some_

theorem Completes.recorded (complete : Completes runs constants attempt) :
    attempt ∈ attemptsOf runs := by
  have reps := (attemptComplete_iff.mp complete).2.2.length_eq
  rw [List.length_map, length_repetitionRange] at reps
  obtain ⟨run, member⟩ := List.exists_mem_of_length_pos (l := attemptGroup runs attempt) (by omega)
  exact mem_attemptsOf.mpr ⟨run, mem_attemptGroup.mp member⟩

theorem mem_completedAttempts :
    attempt ∈ completedAttempts runs constants.repetitions ↔ Completes runs constants attempt := by
  rw [completedAttempts, List.mem_filter]
  exact ⟨And.right, fun complete => ⟨complete.recorded some_, complete⟩⟩

theorem completedCount_ncard :
    completedCount runs constants.repetitions = {attempt | Completes runs constants attempt}.ncard := by
  have nodup : (completedAttempts runs constants.repetitions).Nodup := (attemptsOf_nodup runs).filter _
  have same : {attempt | Completes runs constants attempt} = ((completedAttempts runs constants.repetitions).toFinset : Set UInt32) := by
    ext attempt
    simp [mem_completedAttempts some_]
  rw [same, Set.ncard_coe_finset, List.toFinset_card_of_nodup nodup, completedCount]

omit some_ in
theorem spoils_iff :
    Spoils runs constants run ↔ run ∈ invalidOf runs run.attempt ∧ Completes runs constants run.attempt := by
  rw [mem_invalidOf]
  exact ⟨fun spoils => ⟨⟨spoils.recorded, rfl, spoils.invalid⟩, spoils.completes⟩, fun ⟨⟨recorded, _, invalid⟩, completes⟩ =>
    ⟨recorded, invalid, completes⟩⟩

private theorem overrun_iff :
    Overrun runs constants ↔ (∀ run ∈ runs, ¬(run.kind = .counted ∧ run.syscalls.method = .strace)) ∧
      ∀ attempt ∈ completedAttempts runs constants.repetitions,
        invalidOf runs attempt ≠ [] ∧ ∀ run ∈ invalidOf runs attempt, Overloaded run := by
  simp only [mem_completedAttempts some_]
  constructor
  · rintro ⟨counted, spoiled, overloaded⟩
    refine ⟨counted, fun attempt complete => ⟨?_, fun run member => ?_⟩⟩
    · obtain ⟨run, spoils, rfl⟩ := spoiled attempt complete
      exact List.ne_nil_of_mem (spoils_iff.mp spoils).1
    · obtain ⟨recorded, rfl, invalid⟩ := mem_invalidOf.mp member
      exact overloaded run ⟨recorded, invalid, complete⟩
  · rintro ⟨counted, each⟩
    refine ⟨counted, fun attempt complete => ?_, fun run spoils => ?_⟩
    · obtain ⟨run, member⟩ := List.exists_mem_of_ne_nil _ (each attempt complete).1
      obtain ⟨recorded, rfl, invalid⟩ := mem_invalidOf.mp member
      exact ⟨run, ⟨recorded, invalid, complete⟩, rfl⟩
    · exact (each run.attempt spoils.completes).2 run (spoils_iff.mp spoils).1

private theorem rowsOf_filter {rows : List CapacityRow}
    (union : ∀ row, row ∈ rows ↔ ∃ attempt ∈ completedAttempts runs constants.repetitions,
      ∃ run ∈ invalidOf runs attempt, row ∈ capacityRows run) :
    RowsOf runs constants (CapacityRow.all.filter fun row => row ∈ rows) := by
  refine ⟨List.filter_sublist, fun row => ?_⟩
  have every : row ∈ CapacityRow.all := by cases row <;> decide
  simp only [List.mem_filter, every, true_and, decide_eq_true_eq, union, mem_completedAttempts some_]
  constructor
  · rintro ⟨attempt, complete, run, member, fails⟩
    obtain ⟨recorded, rfl, invalid⟩ := mem_invalidOf.mp member
    exact ⟨run, ⟨recorded, invalid, complete⟩, fails⟩
  · rintro ⟨run, spoils, fails⟩
    exact ⟨run.attempt, spoils.completes, run, (spoils_iff.mp spoils).1, fails⟩

end

private theorem RowsOf.unique {one two : List CapacityRow} (first : RowsOf runs constants one) (second : RowsOf runs constants two) :
    one = two := by
  have sublists : ∀ one ∈ CapacityRow.all.sublists, ∀ two ∈ CapacityRow.all.sublists,
      (∀ row ∈ CapacityRow.all, row ∈ one ↔ row ∈ two) → one = two := by decide
  exact sublists one (List.mem_sublists.mpr first.ascending) two (List.mem_sublists.mpr second.ascending)
    fun row _ => (first.union row).trans (second.union row).symm

theorem getLast_attemptsOf {highest : UInt32} (ends : (attemptsOf runs).getLast? = some highest) : Highest runs highest := by
  refine ⟨mem_attemptsOf.mp (List.mem_of_getLast? ends), fun run member => ?_⟩
  have sorted : (attemptsOf runs).Pairwise fun first second => decide (first ≤ second) = true :=
    sortBy_sorted (fun a b c => by simpa using UInt32.le_trans) (fun a b => by simpa using UInt32.le_total a b) _
  simpa using le_getLast sorted (fun attempt => by simp) ends run.attempt (mem_attemptsOf.mpr ⟨run, member, rfl⟩)

/-! ### The order of the records -/

/-- `median` meets a NaN among the metrics it sorts, and the comparison panics. -/
structure MedianPanics [Figures f64] (runs : List (RunRecord f64)) (constants : ProtocolConstants) : Prop where
  complete : attemptComplete runs constants.repetitions = true
  valid : ∀ run ∈ runs, run.valid = true
  enforced : constants.enforceSpread = true
  measured : ∀ run ∈ runs, (metric run).isSome
  several : 2 ≤ runs.length
  nan : ¬Numeric runs

/-- Every comparison that `config_passes` makes of the highest attempt returns. -/
def Comparable [Figures f64] (runs : List (RunRecord f64)) (constants : ProtocolConstants) : Prop :=
  ∀ highest, Highest runs highest → ¬MedianPanics (attemptGroup runs highest) constants

private theorem configPasses_reordered [Figures f64] [OrderedF64 f64] {others : List (RunRecord f64)} (calm : ¬MedianPanics runs constants)
    (same : runs.Perm others) : configPasses runs constants.repetitions constants.enforceSpread =
      configPasses others constants.repetitions constants.enforceSpread := by
  by_cases numeric : Numeric runs
  · exact configPasses_perm numeric same
  rcases Nat.lt_or_ge runs.length 2 with few | several
  · -- one record has one order
    have alone : runs = others := by
      rcases runs with _ | ⟨run, _ | ⟨_, _⟩⟩
      · exact (List.nil_perm.mp same).symm
      · exact List.singleton_perm.mp same
      · simp at few
    rw [alone]
  -- a check before the spread decides
  rw [Bool.eq_iff_iff, configPasses_iff, configPasses_iff, attemptComplete_perm same]
  simp only [same.mem_iff]
  refine and_congr_right fun complete => and_congr_right fun valid => ?_
  refine forall_congr' fun enforced => ?_
  have unmeasured : ¬∀ run ∈ others, (metric run).isSome := fun measured => calm
    ⟨(attemptComplete_perm same).trans complete, fun run member => valid run (same.mem_iff.mp member), enforced,
      fun run member => measured run (same.mem_iff.mp member), several, numeric⟩
  simp only [unmeasured, false_and]

section Order
variable {others : List (RunRecord f64)} (same : runs.Perm others)
include same

theorem completes_perm {attempt : UInt32} : Completes runs constants attempt ↔ Completes others constants attempt := by
  rw [Completes, Completes, attemptComplete_perm (attemptGroup_perm same attempt)]

theorem spoils_perm {run : RunRecord f64} : Spoils runs constants run ↔ Spoils others constants run := by
  rw [spoils_iff, spoils_iff, completes_perm same, mem_invalidOf, mem_invalidOf, same.mem_iff]

private theorem overrun_perm : Overrun runs constants ↔ Overrun others constants := by
  constructor
  · rintro ⟨counted, spoiled, overloaded⟩
    refine ⟨fun run member => counted run (same.mem_iff.mpr member), fun attempt complete => ?_, fun run spoils => ?_⟩
    · obtain ⟨run, spoils, here⟩ := spoiled attempt ((completes_perm same).mpr complete)
      exact ⟨run, (spoils_perm same).mp spoils, here⟩
    · exact overloaded run ((spoils_perm same).mpr spoils)
  · rintro ⟨counted, spoiled, overloaded⟩
    refine ⟨fun run member => counted run (same.mem_iff.mp member), fun attempt complete => ?_, fun run spoils => ?_⟩
    · obtain ⟨run, spoils, here⟩ := spoiled attempt ((completes_perm same).mp complete)
      exact ⟨run, (spoils_perm same).mpr spoils, here⟩
    · exact overloaded run ((spoils_perm same).mp spoils)

private theorem RowsOf.perm {rows : List CapacityRow} (fails : RowsOf runs constants rows) : RowsOf others constants rows := by
  refine ⟨fails.ascending, fun row => (fails.union row).trans ?_⟩
  simp only [spoils_perm same]

private theorem HighestPasses.perm [Figures f64] [OrderedF64 f64] (calm : Comparable runs constants) :
    HighestPasses runs constants ↔ HighestPasses others constants := by
  have passes {attempt : UInt32} (highest : Highest runs attempt) :=
    configPasses_reordered (calm attempt highest) (attemptGroup_perm same attempt)
  constructor
  · rintro ⟨attempt, highest, passed⟩
    exact ⟨attempt, highest.perm same, passes highest ▸ passed⟩
  · rintro ⟨attempt, highest, passed⟩
    have before := highest.perm same.symm
    exact ⟨attempt, before, (passes before).symm ▸ passed⟩

end Order

section Outcome
variable [Figures f64]

inductive Ended (runs : List (RunRecord f64)) (constants : ProtocolConstants) : OpenLoopOutcome → Prop
  | passed (settled : HighestPasses runs constants) : Ended runs constants .passed
  | pending (unsettled : ¬HighestPasses runs constants)
      (left : {attempt | Completes runs constants attempt}.ncard < constants.maxConfigAttempts.toNat) : Ended runs constants .pending
  | notSustained {rows : List CapacityRow} (unsettled : ¬HighestPasses runs constants)
      (spent : ¬{attempt | Completes runs constants attempt}.ncard < constants.maxConfigAttempts.toNat)
      (overrun : Overrun runs constants) (fails : RowsOf runs constants rows) : Ended runs constants (.notSustained rows)
  | exhausted {cause : String} (unsettled : ¬HighestPasses runs constants)
      (spent : ¬{attempt | Completes runs constants attempt}.ncard < constants.maxConfigAttempts.toNat)
      (other : ¬Overrun runs constants) : Ended runs constants (.exhausted cause)

theorem HighestPasses.recorded (settled : HighestPasses runs constants) : runs ≠ [] := by
  obtain ⟨highest, most, _⟩ := settled
  obtain ⟨run, member, _⟩ := most.1
  exact List.ne_nil_of_mem member

private theorem openLoopOutcome_ended (runs : List (RunRecord f64)) (some_ : 1 ≤ constants.repetitions.toNat)
    (budget : 1 ≤ constants.maxConfigAttempts.toNat) : Ended runs constants (openLoopOutcome runs constants) := by
  unfold openLoopOutcome
  cases ends : (attemptsOf runs).getLast? with
  | none =>
    have empty : attemptsOf runs = [] := List.getLast?_eq_none_iff.mp ends
    refine .pending ?_ ?_
    · rintro ⟨attempt, highest, _⟩
      have member := mem_attemptsOf.mpr highest.1
      rw [empty] at member
      cases member
    · rw [← completedCount_ncard some_, completedCount, completedAttempts, empty]
      exact budget
  | some highest =>
    have most := getLast_attemptsOf ends
    dsimp only
    split
    next passes => exact .passed ⟨highest, most, passes⟩
    next fails =>
      have unsettled : ¬HighestPasses runs constants := fun settled => fails ((highestPasses_iff most).mp settled)
      have count : (completedAttempts runs constants.repetitions).length =
          {attempt | Completes runs constants attempt}.ncard := completedCount_ncard some_
      split
      next left => exact .pending unsettled (count ▸ left)
      next spent =>
        rw [count] at spent
        split
        next strace =>
          refine .exhausted unsettled spent fun overrun => ?_
          obtain ⟨run, member, both⟩ := List.any_eq_true.mp strace
          exact overrun.counted run member (by simpa using both)
        next perf =>
          have counted : ∀ run ∈ runs, ¬(run.kind = .counted ∧ run.syscalls.method = .strace) := by simpa using perf
          rcases exhaustionRows_cases runs constants (completedAttempts runs constants.repetitions) with
            ⟨cause, failed, attempt, member, not⟩ | ⟨rows, all, each, union⟩
          · rw [failed]
            refine .exhausted unsettled spent fun overrun => ?_
            obtain ⟨spoiled, overs⟩ := ((overrun_iff some_).mp overrun).2 attempt member
            rcases not with none | ⟨run, invalid, not⟩
            · exact spoiled none
            · exact not (overs run invalid)
          · rw [all]
            exact .notSustained unsettled spent ((overrun_iff some_).mpr ⟨counted, each⟩) (rowsOf_filter some_ union)

inductive SameOutcome : OpenLoopOutcome → OpenLoopOutcome → Prop
  | passed : SameOutcome .passed .passed
  | pending : SameOutcome .pending .pending
  | notSustained (rows : List CapacityRow) : SameOutcome (.notSustained rows) (.notSustained rows)
  | exhausted (cause other : String) : SameOutcome (.exhausted cause) (.exhausted other)

private theorem Ended.unique {one two : OpenLoopOutcome} (first : Ended runs constants one) (second : Ended runs constants two) :
    SameOutcome one two := by
  cases first with
  | passed settled =>
    cases second with
    | passed => exact .passed
    | pending unsettled | notSustained unsettled | exhausted unsettled => exact absurd settled unsettled
  | pending unsettled left =>
    cases second with
    | passed settled => exact absurd settled unsettled
    | pending => exact .pending
    | notSustained _ spent | exhausted _ spent => exact absurd left spent
  | notSustained unsettled spent overrun fails =>
    cases second with
    | passed settled => exact absurd settled unsettled
    | pending _ left => exact absurd left spent
    | notSustained _ _ _ fails' =>
      cases fails.unique fails'
      exact .notSustained _
    | exhausted _ _ other => exact absurd overrun other
  | exhausted unsettled spent other =>
    cases second with
    | passed settled => exact absurd settled unsettled
    | pending _ left => exact absurd left spent
    | notSustained _ _ overrun => exact absurd overrun other
    | exhausted => exact .exhausted _ _

private theorem Ended.perm [OrderedF64 f64] {others : List (RunRecord f64)} {outcome : OpenLoopOutcome}
    (ended : Ended runs constants outcome) (calm : Comparable runs constants) (same : runs.Perm others) : Ended others constants outcome := by
  have settles := @HighestPasses.perm f64 runs constants others same _ _ calm
  have count : {attempt | Completes runs constants attempt} = {attempt | Completes others constants attempt} :=
    Set.ext fun attempt => completes_perm same
  cases ended with
  | passed settled => exact .passed (settles.mp settled)
  | pending unsettled left => exact .pending (mt settles.mpr unsettled) (count ▸ left)
  | notSustained unsettled spent overrun fails =>
    exact .notSustained (mt settles.mpr unsettled) (count ▸ spent) ((overrun_perm same).mp overrun) (fails.perm same)
  | exhausted unsettled spent other =>
    exact .exhausted (mt settles.mpr unsettled) (count ▸ spent) (mt (overrun_perm same).mpr other)

end Outcome

/-- The reconciliation reason that stands for a capacity row. -/
def CapacityRow.reason (run : RunRecord f64) : CapacityRow → Option String
  | .unresolved => row3 run
  | .missedSlots => row11 run
  | .steadyState => steadyStateReason run

private theorem mem_capacityRows :
    row ∈ capacityRows run ↔ run.kind.isOpenLoop = true ∧ match row with
      | .unresolved => run.counts.unresolved ≠ 0
      | .missedSlots => run.generatorErrors.missedSlots ≠ 0
      | .steadyState => (steadyStateReason run).isSome = true := by
  unfold capacityRows
  cases run.kind.isOpenLoop with
  | false => simp
  | true => cases row <;> simp

private theorem capacityRows_reconciled (fails : row ∈ capacityRows run) :
    ∃ reason, row.reason run = some reason ∧ reason ∈ reconcile run := by
  obtain ⟨paced, here⟩ := mem_capacityRows.mp fails
  have publishes : run.kind.publishes = true := by
    revert paced
    cases run.kind <;> decide
  suffices named : (row.reason run).isSome = true by
    obtain ⟨reason, found⟩ := Option.isSome_iff_exists.mp named
    refine ⟨reason, found, ?_⟩
    unfold reconcile
    cases row with
    | unresolved => simp [show row3 run = some reason from found]
    | missedSlots => simp [show row11 run = some reason from found]
    | steadyState => simp [show steadyStateReason run = some reason from found]
  cases row with
  | unresolved => simpa [CapacityRow.reason, row3, UringMqtt.Bench.row, publishes] using here
  | missedSlots => simpa [CapacityRow.reason, row11, UringMqtt.Bench.row, paced] using here
  | steadyState => exact here

section Result
variable [Figures f64]

def Planned.budget : Option ResumeState → Nat
  | some (.nextAttempt _ remaining) => remaining
  | some .passed | none => 0

variable {plan : Option ResumeState}

private theorem Planned.budget_pos :
    0 < Planned.budget plan ↔ ∃ attempt remaining, plan = some (.nextAttempt attempt remaining) ∧ 0 < remaining := by
  rcases plan with _ | _ | ⟨attempt, remaining⟩ <;> simp [Planned.budget]

theorem Planned.ended {outcome : OpenLoopOutcome} (some_ : 1 ≤ constants.repetitions.toNat)
    (recorded : runs ≠ []) (planned : Planned runs constants plan) (ended : Ended runs constants outcome) :
    (plan = some .passed ↔ outcome = .passed) ∧
    ∀ highest, Highest runs highest → highest.toNat < 2 ^ 32 - 1 → (0 < Planned.budget plan ↔ outcome = .pending) := by
  cases planned with
  | untried none => exact absurd none recorded
  | passed settled =>
    cases ended with
    | passed => exact ⟨by simp, fun _ _ _ => by simp [Planned.budget]⟩
    | pending unsettled | notSustained unsettled | exhausted unsettled => exact absurd settled unsettled
  | @next most attempt _ unsettled succ =>
    rw [completedCount_ncard some_]
    cases ended with
    | passed settled => exact absurd settled unsettled
    | pending _ left => exact ⟨by simp, fun _ _ _ => by simpa [Planned.budget] using left⟩
    | notSustained _ spent | exhausted _ spent =>
      refine ⟨by simp, fun _ _ _ => ?_⟩
      simpa [Planned.budget] using spent
  | @last most highest unsettled full =>
    have largest : most.toNat = 2 ^ 32 - 1 := by simpa [checkedSucc] using full
    have apart (other : UInt32) (least : Highest runs other) (below : other.toNat < 2 ^ 32 - 1) : False := by
      rw [least.unique highest, largest] at below
      exact Nat.lt_irrefl _ below
    cases ended with
    | passed settled => exact absurd settled unsettled
    | pending | notSustained | exhausted => exact ⟨by simp, fun other least below => (apart other least below).elim⟩

/-- The outcome of a configuration is the one its definition names, in whatever order its
records stand, and the plan of a resumed session agrees with it. -/
theorem open_loop_outcome_classified [OrderedF64 f64] (runs : List (RunRecord f64)) (constants : ProtocolConstants)
    (some_ : 1 ≤ constants.repetitions.toNat) (budget : 1 ≤ constants.maxConfigAttempts.toNat) :
    (openLoopOutcome runs constants = .passed ↔ runs ≠ [] ∧ ∃ highest, Highest runs highest ∧
      configPasses (attemptGroup runs highest) constants.repetitions constants.enforceSpread = true) ∧
    (openLoopOutcome runs constants ≠ .passed →
      (openLoopOutcome runs constants = .pending ↔
        {attempt | Completes runs constants attempt}.ncard < constants.maxConfigAttempts.toNat)) ∧
    (openLoopOutcome runs constants ≠ .passed → openLoopOutcome runs constants ≠ .pending →
      ((∃ rows, openLoopOutcome runs constants = .notSustained rows) ↔ Overrun runs constants) ∧
      (∀ rows, openLoopOutcome runs constants = .notSustained rows → RowsOf runs constants rows) ∧
      (¬Overrun runs constants → ∃ cause, openLoopOutcome runs constants = .exhausted cause)) ∧
    (∀ others, Comparable runs constants → runs.Perm others →
      SameOutcome (openLoopOutcome runs constants) (openLoopOutcome others constants)) ∧
    (∀ key, runs ≠ [] → (∀ run ∈ runs, run.key = key) →
      (resumePlan runs constants key = some .passed ↔ openLoopOutcome runs constants = .passed) ∧
      ∀ highest, Highest runs highest → highest.toNat < 2 ^ 32 - 1 →
        ((∃ attempt remaining, resumePlan runs constants key = some (.nextAttempt attempt remaining) ∧ 0 < remaining) ↔
          openLoopOutcome runs constants = .pending)) ∧
    (∀ run, Spoils runs constants run → ∀ row ∈ capacityRows run, ∃ reason, row.reason run = some reason ∧ reason ∈ reconcile run) := by
  have ended := openLoopOutcome_ended runs some_ budget
  refine ⟨?_, ?_, ?_, fun others calm same => ?_, fun key recorded keyed => ?_, fun run _ row fails => capacityRows_reconciled fails⟩
  · constructor
    · intro passed
      rw [passed] at ended
      cases ended with
      | passed settled => exact ⟨settled.recorded, settled⟩
    · rintro ⟨_, settled⟩
      generalize openLoopOutcome runs constants = outcome at ended ⊢
      cases ended with
      | passed => rfl
      | pending unsettled | notSustained unsettled | exhausted unsettled => exact absurd settled unsettled
  · intro unsettled
    generalize openLoopOutcome runs constants = outcome at ended unsettled ⊢
    cases ended with
    | passed => exact absurd rfl unsettled
    | pending _ left => simpa using left
    | notSustained _ spent | exhausted _ spent => simpa using spent
  · intro unsettled spent
    generalize openLoopOutcome runs constants = outcome at ended unsettled spent ⊢
    cases ended with
    | passed => exact absurd rfl unsettled
    | pending => exact absurd rfl spent
    | notSustained _ _ overrun fails =>
      refine ⟨⟨fun _ => overrun, fun _ => ⟨_, rfl⟩⟩, fun rows this => ?_, fun other => absurd overrun other⟩
      cases this
      exact fails
    | @exhausted cause _ _ other =>
      have apart : ¬∃ rows, OpenLoopOutcome.exhausted cause = .notSustained rows := by
        rintro ⟨_, this⟩
        cases this
      exact ⟨⟨fun this => absurd this apart, fun overrun => absurd overrun other⟩, fun rows this => absurd ⟨rows, this⟩ apart,
        fun _ => ⟨_, rfl⟩⟩
  · exact (ended.perm calm same).unique (openLoopOutcome_ended others some_ budget)
  · have planned := resumePlan_planned runs constants key
    rw [List.filter_eq_self.mpr (by simpa using keyed)] at planned
    obtain ⟨passed, left⟩ := planned.ended some_ recorded ended
    exact ⟨passed, fun highest most below => (Planned.budget_pos.symm.trans (left highest most below))⟩

end Result

/-! ### Two attempts with a repetition that missed slots -/

private theorem Alike.eq_binary64 {one two : Rat} (alike : @Alike binary64 one two) : one = two := by
  obtain ⟨le, ge⟩ : decide (one ≤ two) = true ∧ decide (two ≤ one) = true := alike
  exact Rat.le_antisymm (of_decide_eq_true le) (of_decide_eq_true ge)

private theorem Same.eq_binary64 {one two : binary64.Value} (same : Same one two) : one = two :=
  same.elim id Alike.eq_binary64

instance : OrderedF64 binary64 where
  le_trans := fun (a b c : Rat) ab bc => decide_eq_true (Rat.le_trans (of_decide_eq_true ab) (of_decide_eq_true bc))
  le_total := fun (a b : Rat) _ _ => Rat.le_total.imp decide_eq_true decide_eq_true
  lt_eq := fun (a b : Rat) _ _ => (decide_eq_decide.mpr Rat.not_le.symm).trans decide_not
  sub_same _ _ _ _ first second := .inl (by rw [first.eq_binary64, second.eq_binary64])
  div_same _ _ _ _ first second _ := .inl (by rw [first.eq_binary64, second.eq_binary64])
  midpoint_same _ _ _ _ first second := .inl (by rw [first.eq_binary64, second.eq_binary64])

def latencyRun (attempt repetition : UInt32) (missedSlots : Nat) : RunRecord binary64 :=
  { (runOneWith plainRun sixtyFourCycles [] : RunRecord binary64) with
    kind := .latency
    attempt, repetition
    valid := missedSlots = 0
    generatorErrors := { (runOneWith plainRun sixtyFourCycles [] : RunRecord binary64).generatorErrors with missedSlots } }

def twoLateAttempts : List (RunRecord binary64) :=
  [latencyRun 2 1 0, latencyRun 1 1 3, latencyRun 1 2 0, latencyRun 2 2 1]

def twoAttempts : ProtocolConstants := ⟨10, 60, 2, 5, 2, true⟩

theorem open_loop_outcome_classified_two :
    openLoopOutcome (twoLateAttempts.take 3) twoAttempts = .pending ∧
    openLoopOutcome twoLateAttempts twoAttempts = .notSustained [.missedSlots] ∧ Overrun twoLateAttempts twoAttempts := by
  have outcome : openLoopOutcome twoLateAttempts twoAttempts = .notSustained [.missedSlots] := by decide +kernel
  obtain ⟨_, _, spent, _⟩ := open_loop_outcome_classified twoLateAttempts twoAttempts (by decide) (by decide)
  rw [outcome] at spent
  exact ⟨by decide +kernel, outcome, (spent (fun same => by cases same) (fun same => by cases same)).1.mp ⟨_, rfl⟩⟩

end UringMqtt.Bench

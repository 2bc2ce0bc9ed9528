import UringMqtt.Lib.Runs
import UringMqtt.Proofs.AckAccount
import UringMqtt.Proofs.ReaderJoined
import Mathlib.Data.List.Count

/-! The report of a generator run is built from final counters, and no failure is lost on
the way from a reader through its connection task into the join. -/

namespace UringMqtt.Bench
open Lib

variable {hdr : Hdr} {count : Nat} {config : GenConfig}

namespace Joining

def how (state : Joining hdr count) (id : Fin count) : Option TaskEnd := (state.task id).map Prod.fst

def ways (state : Joining hdr count) : List TaskEnd := state.joined.filterMap state.how

def Silent (state : Joining hdr count) : Prop := ∀ left ∈ state.leavings, left.reading = false

def failureOf (ways : List TaskEnd) : Option String := ways.findSome? TaskEnd.failure

def PhaseHolds (config : GenConfig) (state : Joining hdr count) : JoinPhase → Prop
  | .draining => (∀ id, state.how id ≠ some .cancelled) ∧ failureOf state.ways = none
  | .joining failure stillRunning => failure = failureOf state.ways ∧ stillRunning = state.ways.count .cancelled
  | .stopping failure stillRunning =>
    (∀ id, id ∈ state.joined) ∧ failure = failureOf state.ways ∧ stillRunning = state.ways.count .cancelled
  | .reporting stillRunning =>
    (∀ id, id ∈ state.joined) ∧ state.Silent ∧ failureOf state.ways = none ∧ stillRunning = state.ways.count .cancelled
  | .finished result => (∀ id, id ∈ state.joined) ∧ ((∃ cause, result = some (.error cause)) ∨
    state.Silent ∧ failureOf state.ways = none ∧ result = (state.report config (state.ways.count .cancelled)).map .ok)

/-- A collected task has ended, a task that returned has joined its reader, and the phase
has what it relies on. -/
@[grind cases] structure Sound (config : GenConfig) (state : Joining hdr count) : Prop where
  ended : ∀ id ∈ state.joined, state.task id ≠ none
  once : state.joined.Nodup
  reader : ∀ id left, state.task id = some (.returned, left) → left.reading = false ∧ left.readerPanic = none
  phase : state.PhaseHolds config state.phase

variable {state : Joining hdr count}

variable {left : Leavings hdr} {id : Fin count} {mover : Mover count} {after : Joining hdr count}

theorem mem_leavings : left ∈ state.leavings ↔ ∃ id how, state.task id = some (how, left) := by
  simp [leavings]

theorem task_left (id other : Fin count) (ended : TaskEnd × Leavings hdr) :
    (state.left id ended).task other = if other = id then some ended else state.task other :=
  Function.update_apply _ _ _ _

theorem how_left (id other : Fin count) (ended : TaskEnd × Leavings hdr) :
    (state.left id ended).how other = if other = id then some ended.1 else state.how other := by
  rw [how, task_left]
  split <;> rfl

theorem ways_left {ended : TaskEnd × Leavings hdr} (same : id ∈ state.joined → state.how id = some ended.1) :
    (state.left id ended).ways = state.ways := by
  apply List.filterMap_congr
  intro other member
  rw [how_left]
  split
  next equal =>
    subst other
    exact (same member).symm
  next => rfl

private theorem ways_snoc {ended : TaskEnd × Leavings hdr} (known : state.task id = some ended) (phase : JoinPhase) :
    ways { state with joined := state.joined ++ [id], phase } = state.ways ++ [ended.1] := by
  have here : state.how id = some ended.1 := by rw [how, known]; rfl
  change (state.joined ++ [id]).filterMap state.how = state.joined.filterMap state.how ++ [ended.1]
  rw [List.filterMap_append, List.filterMap_cons_some here, List.filterMap_nil]

theorem left_self {ended : TaskEnd × Leavings hdr} (known : state.task id = some ended) :
    state.left id ended = state := by
  unfold left
  rw [← known, Function.update_eq_self]

private theorem failureOf_snoc (ways : List TaskEnd) (how : TaskEnd) : failureOf (ways ++ [how]) = (failureOf ways).or how.failure := by
  rw [failureOf, List.findSome?_append, List.findSome?_singleton]
  rfl

/-! ### One step -/

namespace Sound
variable (sound : Sound config state)
include sound

variable {id : Fin count} {left : Leavings hdr}

theorem ends {how : TaskEnd} (running : state.task id = none)
    (can : TaskEnds config (.ofNat id) how left) (asked : how = .cancelled → state.phase ≠ .draining) :
    Sound config (state.left id (how, left)) := by
  have uncollected : id ∉ state.joined := fun member => sound.ended id member running
  have same : (state.left id (how, left)).ways = state.ways := ways_left fun member => absurd member uncollected
  have returned (back : how = .returned) : left.reading = false ∧ left.readerPanic = none := (back ▸ can).joined
  have phase := sound.phase
  constructor
  case phase =>
    change PhaseHolds config _ state.phase
    cases here : state.phase <;> grind [PhaseHolds, how_left]
  all_goals grind [task_left, Joining.left]

private theorem goesOn {how : TaskEnd} {more : Leavings hdr} (known : state.task id = some (how, left))
    (still : left.reading = false → more = left) : Sound config (state.left id (how, more)) := by
  have same : (state.left id (how, more)).ways = state.ways := ways_left fun _ => by rw [Joining.how, known]; rfl
  have unchanged (silent : state.Silent) : state.left id (how, more) = state := by
    rw [still (silent left (mem_leavings.mpr ⟨id, how, known⟩)), left_self known]
  have here : state.how id = some how := by rw [Joining.how, known]; rfl
  have joined : (state.left id (how, more)).joined = state.joined := rfl
  have phase := sound.phase
  constructor
  case phase =>
    change PhaseHolds config _ state.phase
    cases here : state.phase <;> grind [PhaseHolds, how_left]
  all_goals grind [task_left, Joining.left]

end Sound

theorem readFrame_still (frame : Frame) (stopped : left.reading = false) :
    left.readFrame config frame = left := by
  cases left with
  | session world =>
    have running : (!world.reading) = true := by rw [show world.reading = false from stopped]; rfl
    exact congrArg Leavings.session (if_pos running)
  | cycles => rfl

theorem dropReader_still (stopped : left.reading = false) : left.dropReader = left := by
  cases left with
  | session world =>
    have running : world.reading = false := stopped
    rw [Leavings.dropReader, ← running]
  | cycles => rfl

theorem Sound.collected (sound : Sound config state) {ended : TaskEnd × Leavings hdr}
    (known : state.task id = some ended) (waiting : id ∉ state.joined) {phase : JoinPhase}
    (holds : PhaseHolds config { state with joined := state.joined ++ [id], phase } phase) :
    Sound config { state with joined := state.joined ++ [id], phase } := by
  constructor
  case phase => exact holds
  all_goals grind

theorem Sound.moves (sound : Sound config state) {phase : JoinPhase}
    (holds : PhaseHolds config { state with phase } phase) : Sound config { state with phase } :=
  ⟨sound.ended, sound.once, sound.reader, holds⟩

private theorem draining_count (uncancelled : ∀ id, state.how id ≠ some .cancelled) : state.ways.count .cancelled = 0 := by
  rw [List.count_eq_zero]
  intro member
  obtain ⟨id, _, cancelled⟩ := List.mem_filterMap.mp member
  exact uncancelled id cancelled

theorem Sound.step (sound : Sound config state) (moved : Step config state mover after) : Sound config after := by
  have phase := sound.phase
  cases moved with
  | ends id running can asked => exact sound.ends running can asked
  | reads id frame known => exact sound.goesOn known (readFrame_still frame)
  | drops id known => exact sound.goesOn known dropReader_still
  | @collects id how left here known waiting =>
    rw [here] at phase
    apply sound.collected known waiting
    have ran : how ≠ .cancelled := by
      have before := phase.1 id
      rw [Joining.how, known] at before
      exact fun cancelled => before (congrArg some cancelled)
    cases failed : how.failure with
    | some cause =>
      refine ⟨?_, ?_⟩
      · rw [ways_snoc known, failureOf_snoc, phase.2, failed]
        rfl
      · rw [ways_snoc known, List.count_append, draining_count phase.1, List.count_singleton, beq_false_of_ne ran]
        rfl
    | none =>
      refine ⟨phase.1, ?_⟩
      rw [ways_snoc known, failureOf_snoc, phase.2, failed]
      rfl
  | drained here | deadline here =>
    rw [here] at phase
    exact sound.moves ⟨phase.2.symm, (draining_count phase.1).symm⟩
  | @joins failure stillRunning id how left here known waiting =>
    rw [here] at phase
    apply sound.collected known waiting
    refine ⟨?_, ?_⟩
    · rw [ways_snoc known, failureOf_snoc, phase.1]
    · rw [ways_snoc known, List.count_append, ← phase.2, List.count_singleton]
      by_cases cancelled : how = .cancelled
      · rw [if_pos cancelled, cancelled]
        rfl
      · rw [if_neg cancelled, beq_false_of_ne cancelled]
        rfl
  | joinedAll here all =>
    rw [here] at phase
    exact sound.moves ⟨all, phase⟩
  | @stopped failure stillRunning here silent =>
    rw [here] at phase
    apply sound.moves
    cases failure with
    | some cause => exact ⟨phase.1, .inl ⟨cause, rfl⟩⟩
    | none => exact ⟨phase.1, silent, phase.2.1.symm, phase.2.2⟩
  | expires here =>
    rw [here] at phase
    exact sound.moves ⟨phase.1, .inl ⟨_, rfl⟩⟩
  | reports here =>
    rw [here] at phase
    refine sound.moves ⟨phase.1, .inr ⟨phase.2.1, phase.2.2.1, ?_⟩⟩
    rw [phase.2.2.2]
    rfl

private theorem sound_initial : Sound config (initial hdr count) := by
  refine ⟨fun _ none => absurd none List.not_mem_nil, List.nodup_nil, fun id left known => ?_, fun id known => ?_, rfl⟩
  · cases known
  · cases known

theorem Sound.run {seen : List (Mover count)} (run : Runs (Step config) (initial hdr count) seen state) :
    Sound config state :=
  run.invariant (fun _ state => Sound config state) sound_initial fun _ _ _ _ sound moved => sound.step moved

/-! ### The whole run -/

def cancelled (state : Joining hdr count) : Nat := (List.finRange count).countP fun id => state.how id = some .cancelled

theorem Silent.still (silent : state.Silent) (ended : ∀ id, state.task id ≠ none)
    (moved : Step config state mover after) : after.task = state.task := by
  cases moved with
  | ends id running => exact absurd running (ended id)
  | @reads id how left frame known =>
    rw [readFrame_still frame (silent left (mem_leavings.mpr ⟨id, how, known⟩)), left_self known]
  | @drops id how left known =>
    rw [dropReader_still (silent left (mem_leavings.mpr ⟨id, how, known⟩)), left_self known]
  | collects | drained | deadline | joins | joinedAll | stopped | expires | reports => rfl

end Joining
end UringMqtt.Bench

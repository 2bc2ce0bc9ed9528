import UringMqtt.Bench.Twin
import UringMqtt.Proofs.WorkerQueue

/-! The comparison server keeps its evidence. Over every run of a worker each session
task is joined once, the connection count is the number of tasks not joined, what was
enqueued reaches the callback, and the worker returns `Ok` only if nothing went wrong. -/

namespace UringMqtt.Bench.TwinWorker
open Lib Proofs.WorkerQueue

/-! ### What a run shows -/

def servedBy : TwinHappening → List Nat
  | .accepted _ (.served id) => [id]
  | _ => []

def joinedBy : TwinHappening → List Joined
  | .accepted reaped _ => reaped
  | .joined session => [session]
  | _ => []

def exitedBy : TwinHappening → List Joined
  | .exited session => [session]
  | _ => []

def enqueuedBy : TwinHappening → List Delivery
  | .offered delivery admitting | .polled delivery admitting => queuedBy delivery admitting
  | .expired delivery admission => queuedBy delivery (.done admission)
  | _ => []

def deliveredBy : TwinHappening → List Delivery
  | .delivered delivery => [delivery]
  | _ => []

def served (seen : List TwinHappening) : List Nat := seen.flatMap servedBy

def joined (seen : List TwinHappening) : List Joined := seen.flatMap joinedBy

def exited (seen : List TwinHappening) : List Joined := seen.flatMap exitedBy

def enqueued (seen : List TwinHappening) : List Delivery := seen.flatMap enqueuedBy

def delivered (seen : List TwinHappening) : List Delivery := seen.flatMap deliveredBy

variable {sync : LocalSync} {ioText : IoError → String} {limit : Nat} {run after : TwinWorker sync}
  {seen : List TwinHappening} {happening : TwinHappening}

/-! ### What a join changes -/

/-- A join touches the count, the flag and the failure slots of the sessions. -/
@[grind cases] structure Reaped (before after : TwinWorker sync) : Prop where
  stage : after.stage = before.stage
  sessions : after.sessions = before.sessions
  ended : after.ended = before.ended
  nextId : after.nextId = before.nextId
  channel : after.channel = before.channel
  processor : after.processor = before.processor
  processorJoined : after.processorJoined = before.processorJoined
  acceptFailure : after.acceptFailure = before.acceptFailure
  failure : before.failure.isSome = true → after.failure.isSome = true
  sessionFailure : before.sessionFailure.isSome = true → after.sessionFailure.isSome = true

private theorem Reaped.refl (run : TwinWorker sync) : Reaped run run :=
  ⟨rfl, rfl, rfl, rfl, rfl, rfl, rfl, rfl, id, id⟩

private theorem Reaped.trans {first second third : TwinWorker sync} (one : Reaped first second) (two : Reaped second third) :
    Reaped first third := by
  constructor <;> grind

theorem join_reaped (run : TwinWorker sync) (session : Joined) : Reaped run (join ioText run session) := by
  unfold join noteSessionResult
  constructor <;> grind

theorem joins_reaped (run : TwinWorker sync) (sessions : List Joined) : Reaped run (sessions.foldl (join ioText) run) := by
  induction sessions generalizing run with
  | nil => exact .refl run
  | cons session rest ih => exact (join_reaped run session).trans (ih _)

private theorem join_active (run : TwinWorker sync) (session : Joined) : (join ioText run session).active = run.active - 1 := by
  have counted : (if run.active > 0 then run.active - 1 else run.active) = run.active - 1 := by
    split <;> omega
  unfold join noteSessionResult
  split
  · split <;> exact counted
  · exact counted
  · exact counted

private theorem joins_active (run : TwinWorker sync) (sessions : List Joined) :
    (sessions.foldl (join ioText) run).active = run.active - sessions.length := by
  induction sessions generalizing run with
  | nil => rfl
  | cons session rest ih =>
    rw [List.foldl_cons, ih, join_active, List.length_cons]
    omega

theorem consumeProcessor_reaped (run : TwinWorker sync) (exit : ProcessorExit) : Reaped run (run.consumeProcessor exit) := by
  unfold consumeProcessor
  constructor <;> grind

private theorem consumeProcessor_active (run : TwinWorker sync) (exit : ProcessorExit) :
    (run.consumeProcessor exit).active = run.active := by
  unfold consumeProcessor
  split
  · rfl
  · cases exit <;> rfl

inductive Served (limit : Nat) (joined : TwinWorker sync) : AcceptEffect → TwinWorker sync → Prop
  | stopped : Served limit joined .stopped { joined with stage := .draining }
  | failed (cause : String) : Served limit joined .failed { joined.noteAcceptFailure cause with stage := .backingOff }
  | turnedAway (cause : String) : Served limit joined .turnedAway (joined.noteAcceptFailure cause)
  | served (peer : String) (room : joined.active < limit) :
      Served limit joined (.served joined.nextId)
        { joined with
          active := joined.active + 1, sessions := joined.sessions ++ [⟨joined.nextId, peer, none⟩]
          nextId := joined.nextId + 1 }

theorem accept_served (run : TwinWorker sync) (reaped : List Joined) (result : AcceptResult) :
    Served limit (reaped.foldl (join ioText) { run with ended := [] }) (run.accept ioText limit reaped result).1
      (run.accept ioText limit reaped result).2 := by
  unfold accept
  dsimp only
  split
  · exact .stopped
  · unfold serve
    split
    · split
      · exact .turnedAway _
      next room =>
        split
        · exact .turnedAway _
        · exact .served _ (Nat.lt_of_not_le room)
    · split
      · exact .stopped
      · exact .failed _

/-! ### The tasks -/

/-- Every task is running, ended or joined, and counted while it is not joined. -/
structure Books (limit : Nat) (served : List Nat) (joined exited : List Joined) (run : TwinWorker sync) : Prop where
  active : run.active = run.sessions.length + run.ended.length
  bounded : run.active ≤ limit
  numbered : served = List.range run.nextId
  tracked : (run.sessions.map TwinSession.id ++ (run.ended ++ joined).map Joined.id).Perm served
  exits : (run.ended ++ joined).Perm exited

section
variable {served : List Nat} {joined exited : List Joined}

section
variable (books : Books limit served joined exited run)
include books

theorem Books.same (active : after.active = run.active)
    (sessions : after.sessions.map TwinSession.id = run.sessions.map TwinSession.id) (ended : after.ended = run.ended)
    (nextId : after.nextId = run.nextId) : Books limit served joined exited after where
  active := by
    have lengths : after.sessions.length = run.sessions.length := by simpa using congrArg List.length sessions
    rw [active, books.active, lengths, ended]
  bounded := active ▸ books.bounded
  numbered := by rw [books.numbered, nextId]
  tracked := by
    rw [sessions, ended]
    exact books.tracked
  exits := by
    rw [ended]
    exact books.exits

private theorem Books.reaps {reaped rest : List Joined}
    (split : (rest ++ reaped).Perm run.ended) :
    Books limit served (joined ++ reaped) exited (reaped.foldl (join ioText) { run with ended := rest }) := by
  have kept := @joins_reaped _ ioText { run with ended := rest } reaped
  have moved : (rest ++ (joined ++ reaped)).Perm (run.ended ++ joined) := by
    have swapped : (rest ++ (joined ++ reaped)).Perm (rest ++ reaped ++ joined) := by
      rw [List.append_assoc]
      exact List.perm_append_comm.append_left rest
    exact swapped.trans (split.append_right joined)
  have lengths := split.length_eq
  rw [List.length_append] at lengths
  have active := books.active
  refine ⟨?_, ?_, ?_, ?_, ?_⟩
  · rw [joins_active, kept.sessions, kept.ended]
    simp only
    omega
  · rw [joins_active]
    exact (Nat.sub_le _ _).trans books.bounded
  · rw [kept.nextId, books.numbered]
  · rw [kept.sessions, kept.ended]
    exact ((moved.map Joined.id).append_left _).trans books.tracked
  · rw [kept.ended]
    exact moved.trans books.exits

private theorem Books.spawns (room : run.active < limit) (peer : String) :
    Books limit (served ++ [run.nextId]) joined exited
      { run with
        active := run.active + 1, sessions := run.sessions ++ [⟨run.nextId, peer, none⟩], nextId := run.nextId + 1 } where
  active := by
    simp only [List.length_append, List.length_singleton, books.active]
    omega
  bounded := room
  numbered := by rw [books.numbered, ← List.range_succ]
  tracked := by
    rw [List.map_append, List.append_assoc]
    refine (List.perm_append_comm.append_left _).trans ?_
    rw [← List.append_assoc]
    exact books.tracked.append_right _
  exits := books.exits

theorem Books.ends {earlier later : List TwinSession} {session : TwinSession}
    (here : run.sessions = earlier ++ session :: later) (exit : SessionExit) (channel : EventChannel sync Delivery) :
    Books limit served joined (exited ++ [⟨session.id, session.peer, exit⟩])
      { run with
        sessions := earlier ++ later, ended := run.ended ++ [⟨session.id, session.peer, exit⟩], channel } where
  active := by
    have active := books.active
    simp only [here, List.length_append, List.length_cons, List.length_nil] at active ⊢
    omega
  bounded := books.bounded
  numbered := books.numbered
  tracked := by
    refine List.Perm.trans ?_ books.tracked
    simp only [here, List.map_append, List.map_cons, List.map_nil, List.append_assoc]
    refine List.Perm.append_left _ ?_
    rw [← List.append_assoc]
    refine List.perm_middle.trans ?_
    rw [List.append_assoc]
    rfl
  exits := by
    rw [List.append_assoc]
    refine (List.perm_append_comm.append_left _).trans ?_
    rw [← List.append_assoc]
    exact books.exits.append_right _

end

end

@[simp] theorem served_snoc : served (seen ++ [happening]) = served seen ++ servedBy happening := by
  simp [served]

@[simp] theorem joined_snoc : joined (seen ++ [happening]) = joined seen ++ joinedBy happening := by
  simp [joined]

@[simp] theorem exited_snoc : exited (seen ++ [happening]) = exited seen ++ exitedBy happening := by
  simp [exited]

theorem Books.step (books : Books limit (served seen) (joined seen) (exited seen) run)
    (moved : Step ioText limit run happening after) :
    Books limit (served (seen ++ [happening])) (joined (seen ++ [happening])) (exited (seen ++ [happening])) after := by
  rw [served_snoc, joined_snoc, exited_snoc]
  cases moved with
  | accepts reaped result here all =>
    have left := @Books.reaps _ ioText _ _ _ _ _ books reaped [] all
    have what := @accept_served _ ioText limit run reaped result
    simp only [joinedBy, exitedBy, List.append_nil]
    generalize (run.accept ioText limit reaped result).2 = after at what ⊢
    generalize (run.accept ioText limit reaped result).1 = effect at what ⊢
    cases what with
    | stopped | failed | turnedAway =>
      simp only [servedBy, List.append_nil]
      exact left.same rfl rfl rfl rfl
    | served peer room => exact left.spawns room peer
  | joins earlier later here ended =>
    rename_i session
    simp only [servedBy, joinedBy, exitedBy, List.append_nil]
    have split : (earlier ++ later ++ [session]).Perm run.ended := by
      rw [ended]
      exact (List.perm_append_singleton _ _).trans List.perm_middle.symm
    exact @Books.reaps _ ioText _ _ _ _ _ books [session] (earlier ++ later) split
  | exits earlier later here | panics earlier later now here =>
    simp only [servedBy, joinedBy, exitedBy, List.append_nil]
    exact books.ends here _ _
  | offers _ _ _ _ _ _ here | polls _ _ _ here | expires _ _ here =>
    simp only [servedBy, joinedBy, exitedBy, List.append_nil]
    exact books.same rfl (by simp [here]) rfl rfl
  | @returns exit here ended =>
    have kept := consumeProcessor_reaped run exit
    simp only [servedBy, joinedBy, exitedBy, List.append_nil]
    exact books.same (consumeProcessor_active run exit) (congrArg _ kept.sessions) kept.ended kept.nextId
  | _ =>
    simp only [servedBy, joinedBy, exitedBy, List.append_nil]
    exact books.same rfl rfl rfl rfl

/-! ### The event queue -/

private theorem dropHeld_queue {channel left : EventChannel sync Delivery} {held : Option HeldPublish} {dropping : Lib.Semaphore.Drop}
    (ran : dropHeld channel held = (dropping, left)) : left.queue = channel.queue := by
  cases held with
  | none => cases ran; rfl
  | some held =>
    have kept := queue_abandon channel held.ticket
    rwa [show channel.abandon held.ticket = _ from ran] at kept

/-- Step: an event joins the queue at its end, or leaves it at its front. -/
private theorem queue_step (moved : Step ioText limit run happening after) :
    run.channel.queue ++ enqueuedBy happening = deliveredBy happening ++ after.channel.queue := by
  cases moved with
  | accepts reaped result here all =>
    have kept := @joins_reaped _ ioText { run with ended := [] } reaped
    have what := @accept_served _ ioText limit run reaped result
    have same : (run.accept ioText limit reaped result).2.channel = run.channel := by
      generalize (run.accept ioText limit reaped result).2 = after at what ⊢
      generalize (run.accept ioText limit reaped result).1 = effect at what
      cases what <;> exact kept.channel
    simp [enqueuedBy, deliveredBy, same]
  | joins earlier later here ended => simp [enqueuedBy, deliveredBy, (join_reaped _ _).channel]
  | returns here ended => simp [enqueuedBy, deliveredBy, (consumeProcessor_reaped run _).channel]
  | exits earlier later here returning cancelling ran =>
    simp [enqueuedBy, deliveredBy, dropHeld_queue ran]
  | @panics earlier later session held error channel now here waits ran =>
    rcases ran with ran | ran
    · exact (admitPoll_queue ran).symm
    · exact (admitExpire_queue (delivery session held.publish held.ticket) ran).symm
  | offers earlier later wait replyBy now polled here free ran => exact (admitWith_queue ran).symm
  | polls earlier later now here waits ran => exact (admitPoll_queue ran).symm
  | expires earlier later here waits ran => exact (admitExpire_queue _ ran).symm
  | delivers running ran =>
    unfold EventChannel.recv at ran
    split at ran
    · cases ran
    next queued =>
      cases ran
      simp [enqueuedBy, deliveredBy, queued]
  | _ => simp [enqueuedBy, deliveredBy, afterDrain, processorEndedEarly, EventChannel.closeReceiver]

/-- Run: the callback's events and the queue are what was enqueued, in order. -/
private theorem delivered_queue {dropped : Nat} {shutdown : Bool} (ran : Runs (Step ioText limit) (initial sync dropped shutdown) seen run) :
    delivered seen ++ run.channel.queue = enqueued seen := by
  have steps (state : TwinWorker sync) happening after (moved : Step ioText limit state happening after) := queue_step moved
  exact (ran.queue steps).symm

/-! ### The failure slots -/

def blames : SessionExit → Bool
  | .returned (.ok .served) | .cancelled => false
  | .returned (.ok .refused) | .returned (.ok .violation) | .panicked _ => true
  | .returned (.error error) => !error.isTruncatedPacket && !error.isRoutineDisconnect

/-- An accept that failed before shutdown, or a client dropped at the limit or on
`set_nodelay`. -/
def lostClient : TwinHappening → Bool
  | .accepted _ .failed | .accepted _ .turnedAway => true
  | _ => false

theorem join_blames {session : Joined} (blamed : blames session.exit = true) (run : TwinWorker sync) :
    (join ioText run session).failure.isSome = true ∨ (join ioText run session).sessionFailure.isSome = true := by
  unfold join noteSessionResult
  cases exit : session.exit with
  | returned outcome =>
    rw [exit] at blamed
    rcases outcome with error | (_ | _ | _)
    · simp only [blames, Bool.and_eq_true, Bool.not_eq_true'] at blamed
      simp [sessionReport, blamed.1, blamed.2]
    · cases blamed
    · simp [sessionReport]
    · simp [sessionReport]
  | panicked error => simp
  | cancelled =>
    rw [exit] at blamed
    cases blamed

private theorem joins_blame {sessions : List Joined} {session : Joined} (member : session ∈ sessions)
    (blamed : blames session.exit = true) (run : TwinWorker sync) :
    (sessions.foldl (join ioText) run).failure.isSome = true ∨
      (sessions.foldl (join ioText) run).sessionFailure.isSome = true := by
  induction sessions generalizing run with
  | nil => cases member
  | cons first rest ih =>
    rcases List.mem_cons.mp member with rfl | later
    · have kept := @joins_reaped _ ioText (join ioText run session) rest
      exact (join_blames blamed run).imp kept.failure kept.sessionFailure
    · exact ih later _

@[grind cases] structure Evidence (seen : List TwinHappening) (run : TwinWorker sync) : Prop where
  accepts : (∃ happening ∈ seen, lostClient happening = true) → run.acceptFailure.isSome = true
  sessions : (∃ session ∈ joined seen, blames session.exit = true) →
    run.failure.isSome = true ∨ run.sessionFailure.isSome = true

@[grind cases] structure Keeps (happening : TwinHappening) (before after : TwinWorker sync) : Prop where
  acceptFailure : before.acceptFailure.isSome = true ∨ lostClient happening = true → after.acceptFailure.isSome = true
  failure : before.failure.isSome = true → after.failure.isSome = true
  sessionFailure : before.sessionFailure.isSome = true → after.sessionFailure.isSome = true
  blamed : (∃ session ∈ joinedBy happening, blames session.exit = true) →
    after.failure.isSome = true ∨ after.sessionFailure.isSome = true

private theorem Evidence.kept (evidence : Evidence seen run) (keeps : Keeps happening run after) :
    Evidence (seen ++ [happening]) after := by
  constructor <;> grind [joined_snoc]

private theorem accepts_keeps (reaped : List Joined) (result : AcceptResult) :
    Keeps (.accepted reaped (run.accept ioText limit reaped result).1) run (run.accept ioText limit reaped result).2 := by
  have kept := @joins_reaped _ ioText { run with ended := [] } reaped
  have blamed : (∃ session ∈ reaped, blames session.exit = true) →
      (reaped.foldl (join ioText) { run with ended := [] }).failure.isSome = true ∨
        (reaped.foldl (join ioText) { run with ended := [] }).sessionFailure.isSome = true :=
    fun ⟨_, member, blames⟩ => joins_blame member blames _
  have what := @accept_served _ ioText limit run reaped result
  generalize (run.accept ioText limit reaped result).2 = after at what ⊢
  generalize (run.accept ioText limit reaped result).1 = effect at what ⊢
  cases what <;> constructor <;> grind [lostClient, noteAcceptFailure, joinedBy]

theorem keeps_step (moved : Step ioText limit run happening after) : Keeps happening run after := by
  cases moved with
  | accepts reaped result here all => exact accepts_keeps reaped result
  | @joins earlier later session here ended =>
    have kept := @join_reaped _ ioText { run with ended := earlier ++ later } session
    have blamed := @join_blames sync ioText session
    constructor <;> grind [lostClient, joinedBy]
  | @returns exit here ended =>
    have kept := consumeProcessor_reaped run exit
    constructor <;> grind [lostClient, joinedBy]
  | processorSeen here ended =>
    unfold processorEndedEarly
    constructor <;> grind [lostClient, joinedBy]
  | _ => constructor <;> grind [lostClient, joinedBy, afterDrain]

/-! ### The end -/

/-- Behind the drain there are no tasks, a processor that finished has emptied the
queue, and what is returned is what the slots say. -/
@[grind cases] structure Ending (run : TwinWorker sync) : Prop where
  drained : run.stage.ownsEvents = false → run.sessions = [] ∧ run.ended = []
  processed : run.processor = some .finished → run.stage.ownsEvents = false ∧ run.channel.queue = []
  early : run.processorJoined = true → run.failure.isSome = true
  returned : ∀ result, run.stage = .returned result → result = run.verdict ∧
    ∃ exit, run.processor = some exit ∧ (exit ≠ .finished → run.failure.isSome = true)

private theorem Ending.owns (ending : Ending run) {earlier later : List TwinSession} {session : TwinSession}
    (here : run.sessions = earlier ++ session :: later) : run.stage.ownsEvents = true := by
  by_contra gone
  have none_left := (ending.drained (by simpa using gone)).1
  rw [here] at none_left
  simp at none_left

private theorem consumeProcessor_fails (ending : Ending run) {exit : ProcessorExit} (failed : exit ≠ .finished) :
    (run.consumeProcessor exit).failure.isSome = true := by
  unfold consumeProcessor
  split
  next joined => exact ending.early joined
  · cases exit with
    | finished => exact absurd rfl failed
    | panicked | cancelled => simp

theorem Ending.step (ending : Ending run) (moved : Step ioText limit run happening after) : Ending after := by
  have keeps := keeps_step moved
  cases moved with
  | accepts reaped result here all =>
    have kept := @joins_reaped _ ioText { run with ended := [] } reaped
    have what := @accept_served _ ioText limit run reaped result
    generalize (run.accept ioText limit reaped result).2 = after at what keeps ⊢
    generalize (run.accept ioText limit reaped result).1 = effect at what keeps
    cases what <;> constructor <;> grind -linarith [TwinStage.ownsEvents, noteAcceptFailure]
  | @joins earlier later session here ended =>
    have kept := @join_reaped _ ioText { run with ended := earlier ++ later } session
    constructor <;> grind -linarith [TwinStage.ownsEvents]
  | @returns exit here ended =>
    have kept := consumeProcessor_reaped run exit
    have fails := @consumeProcessor_fails _ run ending exit
    constructor <;> grind -linarith [TwinStage.ownsEvents, verdict]
  | processorSeen here ended => 
    unfold processorEndedEarly
    constructor <;> grind -linarith [TwinStage.ownsEvents]
  | drained here idle reaped => constructor <;> grind -linarith [TwinStage.ownsEvents, afterDrain]
  | drainExpires here => constructor <;> grind -linarith [TwinStage.ownsEvents, afterDrain]
  | processorFails | processorFinishes => constructor <;> grind -linarith [EventChannel.closeReceiver]
  | exits _ _ here | panics _ _ _ here | offers _ _ _ _ _ _ here | polls _ _ _ here | expires _ _ here =>
    have owns := ending.owns here
    constructor <;> grind -linarith [TwinStage.ownsEvents]
  | _ => constructor <;> grind -linarith [TwinStage.ownsEvents, verdict]

private theorem Ending.initial (dropped : Nat) (shutdown : Bool) : Ending (initial sync dropped shutdown) := by
  constructor <;> grind [TwinWorker.initial, TwinStage.ownsEvents]

/-! ### Every run -/

section
variable {dropped : Nat} {shutdown : Bool} (ran : Runs (Step ioText limit) (initial sync dropped shutdown) seen run)
include ran

private theorem books_run : Books limit (served seen) (joined seen) (exited seen) run := by
  apply ran.invariant fun seen run => Books limit (served seen) (joined seen) (exited seen) run
  · exact ⟨rfl, Nat.zero_le _, rfl, .refl _, .refl _⟩
  · exact fun _ _ _ _ books moved => books.step moved

private theorem evidence_run : Evidence seen run := by
  apply ran.invariant Evidence
  · exact ⟨by simp, by simp [joined]⟩
  · exact fun _ _ _ _ evidence moved => evidence.kept (keeps_step moved)

private theorem ending_run : Ending run := by
  apply ran.invariant fun _ run => Ending run
  · exact .initial dropped shutdown
  · exact fun _ _ _ _ ending moved => ending.step moved

end

private theorem verdict_ok (ok : run.verdict = .ok ()) :
    run.failure = none ∧ run.acceptFailure = none ∧ run.sessionFailure = none := by
  unfold verdict at ok
  split at ok
  next none_set => simpa [Option.or_eq_none_iff] using none_set
  · cases ok

/-- The comparison server loses neither evidence nor publishes. At every state of every
run the count is the number of sessions accepted and not joined, within the limit; and
when the worker returns, each session was joined once, every publish that was enqueued
reached the callback unless the processor failed, and the result is `Ok` only if the
processor finished, no accept failed before shutdown, no client was turned away, and no
session ended in a way that is held against the run. -/
theorem twin_worker_accounts {dropped : Nat} {shutdown : Bool}
    (ran : Runs (Step ioText limit) (initial sync dropped shutdown) seen run) :
    run.active + (joined seen).length = (served seen).length ∧ run.active ≤ limit ∧
    ∀ result, run.stage = .returned result →
      ((joined seen).map Joined.id).Perm (served seen) ∧ (served seen).Nodup ∧
      (run.processor = some .finished → delivered seen = enqueued seen) ∧
      (result = .ok () → run.processor = some .finished ∧
        (∀ happening ∈ seen, lostClient happening = false) ∧ ∀ session ∈ exited seen, blames session.exit = false) := by
  have books := books_run ran
  have evidence := evidence_run ran
  have ending := ending_run ran
  refine ⟨?_, books.bounded, fun result returned => ?_⟩
  · have lengths := books.tracked.length_eq
    simp only [List.length_append, List.length_map] at lengths
    rw [books.active, ← lengths]
    omega
  · obtain ⟨idle, reaped⟩ := ending.drained (by rw [returned]; rfl)
    obtain ⟨said, exit, ended, failed⟩ := ending.returned result returned
    have tracked := books.tracked
    have exits := books.exits
    rw [idle, reaped] at tracked
    rw [reaped] at exits
    refine ⟨tracked, books.numbered ▸ List.nodup_range, fun finished => ?_, fun ok => ?_⟩
    · have queue := delivered_queue ran
      rwa [(ending.processed finished).2, List.append_nil] at queue
    · obtain ⟨noFailure, noAcceptFailure, noSessionFailure⟩ := verdict_ok (said.symm.trans ok)
      refine ⟨?_, fun happening member => ?_, fun session member => ?_⟩
      · rw [ended]
        by_contra other
        have some_failure := failed fun same => other (congrArg some same)
        simp [noFailure] at some_failure
      · by_contra lost
        have slot := evidence.accepts ⟨happening, member, by simpa using lost⟩
        simp [noAcceptFailure] at slot
      · by_contra blamed
        have slot := evidence.sessions ⟨session, exits.mem_iff.mpr member, by simpa using blamed⟩
        simp [noFailure, noSessionFailure] at slot

private def reading : CodecPublish := ⟨false, false, .atMostOnce, "t", none, [], none⟩

/-- Of two clients one publishes and is served, and the other one is refused: the publish
reaches the callback, and the refusal is held against the run. -/
theorem twin_worker_accounts_refused :
    ∃ seen run error, Runs (Step (fun _ => "") 2) (initial .fifo 0 false) seen run ∧ run.stage = .returned (.error error) ∧
      served seen = [0, 1] ∧ ((joined seen).map Joined.id).Perm (served seen) ∧ (∃ session ∈ exited seen, blames session.exit = true) ∧
      delivered seen = [⟨0, 0, .fromCodec reading⟩] ∧ delivered seen = enqueued seen := by
  have one : Runs (Step (fun _ => "") 2) (initial .fifo 0 false) _ _ :=
    .single (.accepts [] (.stream "one" none) rfl (.refl _))
  have two := one.next (.accepts [] (.stream "two" none) rfl (.refl _))
  have offered := two.next (@Step.offers _ _ _ _ [] _ _ reading _ _ 5 10 0 0 rfl rfl rfl nofun)
  have served := offered.next (@Step.exits _ _ _ _ [] _ _ (.returned (.ok .served)) _ _ rfl (fun _ _ => rfl) nofun rfl nofun)
  have refused := served.next (@Step.exits _ _ _ _ [] _ _ (.returned (.ok .refused)) _ _ rfl (fun _ _ => rfl) nofun rfl nofun)
  have stopped := (refused.next .signalled).next (.stops rfl rfl)
  have joined := (stopped.next (.joins [] _ (.inl rfl) rfl)).next (.joins [] _ (.inl rfl) rfl)
  have drained := (joined.next (.drained rfl rfl rfl)).next (.delivers rfl rfl)
  have returned := (drained.next (.processorFinishes rfl rfl rfl rfl)).next (.returns rfl rfl)
  have accounts := (twin_worker_accounts returned).2.2 _ rfl
  exact ⟨_, _, _, returned, rfl, rfl, accounts.1, ⟨⟨1, "two", .returned (.ok .refused)⟩,
    List.mem_cons_of_mem _ List.mem_cons_self, rfl⟩, rfl, accounts.2.2.1 rfl⟩

end UringMqtt.Bench.TwinWorker

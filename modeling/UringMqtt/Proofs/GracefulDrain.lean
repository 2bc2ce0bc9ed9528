import UringMqtt.Proofs.WorkerQueue

/-! A worker that returns has called back for every publish its sessions enqueued,
and all its sessions have ended. The connection count is the number of session
tasks all along. -/

namespace UringMqtt.Proofs.GracefulDrain
open Lib WorkerRun WorkerQueue

variable {sync : LocalSync} {σ : Type} {clients : Clients σ} {maxConnections : Nat}
  {run after : WorkerRun sync σ}

/-- The three ends of channel follow each other: the sessions' `done_tx`, the
`event_tx` of everyone, and the processor. -/
@[grind cases] structure Valid (maxConnections : Nat) (run : WorkerRun sync σ) : Prop where
  counted : run.activeConnections = run.sessions.countP SessionTask.live
  bounded : run.activeConnections ≤ maxConnections
  drained : run.stage.ownsEvents = false → ∀ task ∈ run.sessions, task.live = false
  processed : run.processorEnded = true → run.stage.ownsEvents = false ∧ run.channel.queue = []
  awaited : run.stage = .returned → run.processorEnded = true

theorem Valid.initial (dropped : Nat) : Valid maxConnections (WorkerRun.initial sync σ dropped) where
  counted := rfl
  bounded := Nat.zero_le _
  drained _ _ member := by cases member
  processed ended := by cases ended
  awaited returned := by cases returned

private theorem Valid.running (valid : Valid maxConnections run) (owns : run.stage.ownsEvents = true) :
    run.processorEnded = false := by
  by_contra ended
  have gone := (valid.processed (by simpa using ended)).1
  exact Bool.noConfusion (owns.symm.trans gone)

variable {earlier later : List (SessionTask σ)} {task : SessionTask σ} {channel : EventChannel sync Delivery}

section
variable (valid : Valid maxConnections run) (here : run.sessions = earlier ++ task :: later) (live : task.live = true)
include valid here live

theorem Valid.unfinished :
    run.stage.ownsEvents = true ∧ run.processorEnded = false := by
  have owns : run.stage.ownsEvents = true := by
    by_contra gone
    have ended := valid.drained (by simpa using gone) task (by simp [here])
    exact Bool.noConfusion (live.symm.trans ended)
  exact ⟨owns, valid.running owns⟩

theorem Valid.went {next : SessionTask σ} {nextTicket : Nat} (stays : next.live = true) :
    Valid maxConnections { run with sessions := earlier ++ next :: later, channel, nextTicket } := by
  obtain ⟨owns, running⟩ := valid.unfinished here live
  constructor <;> grind [RunStage.ownsEvents]

theorem Valid.ended :
    Valid maxConnections { run.release with sessions := earlier ++ ⟨task.state, .ended⟩ :: later, channel } := by
  obtain ⟨owns, running⟩ := valid.unfinished here live
  constructor <;> grind [RunStage.ownsEvents, release, SessionTask.live]

private theorem live_positive : 0 < run.activeConnections := by
  rw [valid.counted, here, List.countP_append, List.countP_cons, live]
  simp

end

private theorem Valid.staged (valid : Valid maxConnections run) {stage : RunStage} {abortClosed : Bool}
    (owns : run.stage.ownsEvents = true) (still : stage.ownsEvents = true) :
    Valid maxConnections { run with stage, abortClosed } := by
  constructor <;> grind [RunStage.ownsEvents]

theorem tryAcquire_eq_some {later : WorkerRun sync σ} (acquired : run.tryAcquire maxConnections = some later) :
    run.activeConnections < maxConnections ∧ later = { run with activeConnections := run.activeConnections + 1 } := by
  unfold tryAcquire at acquired
  split at acquired
  · cases acquired
  next free =>
    cases acquired
    exact ⟨Nat.lt_of_not_le free, rfl⟩

/-- Step: the count stays right and the ends keep their order. -/
theorem Valid.step {happening : Happening} (valid : Valid maxConnections run)
    (moved : Step clients maxConnections run happening after) : Valid maxConnections after := by
  cases moved with
  | accepted here running acquired =>
    obtain ⟨room, rfl⟩ := tryAcquire_eq_some acquired
    constructor <;> grind [RunStage.ownsEvents, SessionTask.live]
  | acceptFailed here | retries here | stops here | deadline here => exact valid.staged (by rw [here]; rfl) rfl
  | drained here gone => constructor <;> grind [RunStage.ownsEvents, doneDisconnected]
  | processorEnded running empty gone =>
    constructor <;> grind [RunStage.ownsEvents, eventsDisconnected, EventChannel.closeReceiver]
  | observed earlier later here live other moved => exact valid.went here live live
  | offered _ _ _ _ _ _ here | held _ _ _ _ _ _ here | resumed _ _ _ here | expired _ _ here => exact valid.went here rfl rfl
  | waits earlier later now here ran =>
    rw [show run = { run with sessions := run.sessions } from rfl, here]
    exact valid.went here rfl rfl
  | sessionReturned earlier later here => exact valid.ended here rfl
  | sessionAborted earlier later here live closed => exact valid.ended here live
  | _ => constructor <;> grind [RunStage.ownsEvents]

private theorem valid_of_run {dropped : Nat} {seen : List Happening}
    (ran : Runs (Step clients maxConnections) (WorkerRun.initial sync σ dropped) seen run) : Valid maxConnections run :=
  ran.invariant (fun _ run => Valid maxConnections run) (Valid.initial dropped)
    fun _ _ _ _ valid moved => valid.step moved

private theorem released_once (valid : Valid maxConnections run) {connection : Nat}
    (moved : Step clients maxConnections run (.sessionEnded connection) after) :
    after.activeConnections + 1 = run.activeConnections := by
  cases moved with
  | sessionReturned earlier later here =>
    have positive := live_positive valid here rfl
    simp only [release]
    omega
  | sessionAborted earlier later here live closed =>
    have positive := live_positive valid here live
    simp only [release]
    omega

/-- No publish is lost at shutdown, in every order of steps of the accept loop, the
watcher, the sessions and the processor. A worker that returned called back for
what its sessions enqueued, once each and in queue order, and every session has
ended. All along the connection count is the number of live session tasks, within
its bound; the end of a session finds it positive; and `done_rx` reports the end
only when it is zero. -/
theorem no_publish_lost {dropped : Nat} {seen : List Happening}
    (ran : Runs (Step clients maxConnections) (WorkerRun.initial sync σ dropped) seen run) :
    (run.stage = .returned → delivered seen = enqueued seen ∧ ∀ task ∈ run.sessions, task.live = false) ∧
    run.activeConnections = run.sessions.countP SessionTask.live ∧
    run.activeConnections ≤ maxConnections ∧
    (∀ connection after, Step clients maxConnections run (.sessionEnded connection) after →
      after.activeConnections + 1 = run.activeConnections) ∧
    (run.doneDisconnected = true → run.activeConnections = 0) := by
  have valid := valid_of_run ran
  refine ⟨?_, valid.counted, valid.bounded, fun _ _ moved => released_once valid moved, ?_⟩
  · intro returned
    have ended := valid.processed (valid.awaited returned)
    have same := delivered_queue ran
    rw [ended.2, List.append_nil] at same
    exact ⟨same, valid.drained ended.1⟩
  · intro gone
    simp only [doneDisconnected, Bool.and_eq_true, List.all_eq_true, Bool.not_eq_true'] at gone
    rw [valid.counted, List.countP_eq_zero]
    intro task member
    simp [gone.2 task member]

def anyClients : Clients Unit := ⟨fun _ => (), fun _ _ _ _ => True⟩

def reading : CodecPublish := ⟨false, false, .atMostOnce, "t", none, [], none⟩

private theorem anyOffer {maxConnections : Nat} {run : WorkerRun sync Unit} (earlier later : List (SessionTask Unit))
    (publish : CodecPublish) (wait replyBy now polled : Nat) {admission : Admission}
    (here : run.sessions = earlier ++ ⟨(), .free⟩ :: later)
    (ran : run.channel.admitWith run.nextTicket (delivery earlier.length publish run.nextTicket) wait replyBy now polled =
      (.done admission, channel)) :
    Step anyClients maxConnections run (.offered (delivery earlier.length publish run.nextTicket) (.done admission))
      { run with sessions := earlier ++ ⟨(), .free⟩ :: later, channel, nextTicket := run.nextTicket + 1 } :=
  @Step.offered sync Unit anyClients maxConnections run earlier later () () () publish 0 admission ⟨[], 0, false⟩ channel
    wait replyBy now polled here trivial ran trivial

theorem no_publish_lost_one_session :
    ∃ seen, ∃ run : WorkerRun .fifo Unit,
      Runs (Step anyClients 1) (WorkerRun.initial .fifo Unit 0) seen run ∧ run.stage = .returned ∧
        delivered seen = enqueued seen ∧ enqueued seen = [delivery 0 reading 0] := by
  have offered : Runs (Step anyClients 1) (WorkerRun.initial .fifo Unit 0) _ _ :=
    (Runs.start.next (.accepted rfl rfl rfl)).next (anyOffer [] [] reading 5 10 0 0 rfl rfl)
  have forced : Runs (Step anyClients 1) (WorkerRun.initial .fifo Unit 0) _ _ :=
    (((offered.next .signalled).next (.stops rfl rfl)).next (.deadline rfl)).next (.sessionAborted [] [] rfl rfl rfl rfl)
  have returned : Runs (Step anyClients 1) (WorkerRun.initial .fifo Unit 0) _ _ :=
    (((forced.next (.drained (.inr rfl) rfl)).next (.delivered rfl rfl)).next (.processorEnded rfl rfl rfl)).next
      (.returns rfl rfl)
  exact ⟨_, _, returned, rfl, ((no_publish_lost returned).1 rfl).1, rfl⟩

end UringMqtt.Proofs.GracefulDrain

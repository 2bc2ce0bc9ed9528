import Mathlib.Logic.Relation
import Mathlib.Order.Monotone.Defs
import UringMqtt.Proofs.IdleAnchor
import UringMqtt.Proofs.Session

/-! A held backlog shares one idle budget. From the PUBLISH that waited for room to
the next read that starts from an empty buffer the packet loop serves every packet
on what is left until one instant, and the log shows that it keeps within it. -/

namespace UringMqtt.Proofs.HeldBacklog
open Lib SessionSteps IdleAnchor

variable {rmqtt : Rmqtt} {sync : LocalSync} (env : Nat → Moment)

/-! ### What the log shows of the budget -/

variable (instant first : Nat) in
/-- A log that keeps within the budget of `instant`: every offer is granted what was left of
it, without the reserve, and no reply is encoded unless something was left. -/
inductive Timely : List Observation → Prop
  | nil : Timely []
  | other {observation : Observation} {log} (free : spends observation = false)
      (rest : Timely log) : Timely (observation :: log)
  | sent {version : ProtocolVersion} {packet : MqttPacket} {log} (moment : Nat) (later : first ≤ moment)
      (early : (env moment).time < instant) (rest : Timely log) :
      Timely (.sent version packet :: log)
  | offered {publish : CodecPublish} {log} (moment : Nat) (later : first ≤ moment)
      (rest : Timely log) :
      Timely (.offered publish (instant - (env moment).time - ingestReplyReserve) :: log)
  | waits {wait : Nat} {unflushed : Option UnflushedReplies} {writeBuffer : Bytes} {log} (moment : Nat)
      (later : first ≤ moment) (within : wait ≤ instant - (env moment).time - ingestReplyReserve)
      (rest : Timely log) : Timely (.timer wait :: .awaitSlot unflushed writeBuffer :: log)

section
variable {env : Nat → Moment} {instant first : Nat} {log : List Observation}

theorem Timely.append {early late : List Observation} (one : Timely env instant first early)
    (two : Timely env instant first late) : Timely env instant first (early ++ late) := by
  induction one with
  | nil => exact two
  | other free _ ih => exact .other free ih
  | sent moment later early _ ih => exact .sent moment later early ih
  | offered moment later _ ih => exact .offered moment later ih
  | waits moment later within _ ih => exact .waits moment later within ih

theorem Timely.earlier {start : Nat} (timely : Timely env instant first log)
    (earlier : start ≤ first) : Timely env instant start log := by
  induction timely with
  | nil => exact .nil
  | other free _ ih => exact .other free ih
  | sent moment later early _ ih => exact .sent moment (earlier.trans later) early ih
  | offered moment later _ ih => exact .offered moment (earlier.trans later) ih
  | waits moment later within _ ih => exact .waits moment (earlier.trans later) within ih

theorem Timely.of_free (free : ∀ observation ∈ log, spends observation = false) :
    Timely env instant first log := by
  induction log with
  | nil => exact .nil
  | cons observation log ih =>
    rw [List.forall_mem_cons] at free
    exact .other free.1 (ih free.2)

variable {allowed : Prop}

private theorem Timely.of_modest (modest : ∀ observation ∈ log, Modest allowed observation)
    (early : allowed → ∃ moment, first ≤ moment ∧ (env moment).time < instant) : Timely env instant first log := by
  induction log with
  | nil => exact .nil
  | cons observation log ih =>
    rw [List.forall_mem_cons] at modest
    have rest := ih modest.2
    cases observation with
    | sent version packet =>
      obtain ⟨moment, later, before⟩ := early modest.1
      exact .sent moment later before rest
    | decoded | offered | awaitSlot | slotExpired | admitted => exact modest.1.elim
    | _ => exact .other rfl rest

private theorem Timely.of_offers {publish : CodecPublish} {moment : Nat} (later : first ≤ moment)
    (offers : Offers publish (instant - (env moment).time - ingestReplyReserve) log) : Timely env instant first log := by
  cases offers with
  | quick free => exact .offered moment later (.of_free free)
  | waits within free => exact .offered moment later (.waits moment later within (.of_free free))

theorem modest_no_hold (modest : ∀ observation ∈ log, Modest allowed observation) : log.any holdEnds = false := by
  rw [List.any_eq_false]
  intro observation member
  have one := modest observation member
  cases observation with
  | decoded | offered | awaitSlot | slotExpired | admitted => exact one.elim
  | _ => exact Bool.false_ne_true

end

/-- Serving on the budget of `instant`: the anchor stands still, and a session that goes on
has taken on the debt of its holds. -/
structure Serves (instant : Nat) (before : World rmqtt sync)
    (result : EStateM.Result Stop (World rmqtt sync) (Option SessionOutcome)) : Prop where
  lastPacketTime : (worldOf result).lastPacketTime = before.lastPacketTime
  asked : before.asked ≤ (worldOf result).asked
  log : ∃ log, (worldOf result).trace = before.trace ++ log ∧ Timely env instant before.asked log ∧
    (answerOf result = .ok none → (worldOf result).holdDebt = (before.holdDebt || log.any holdEnds))

section
variable {env : Nat → Moment} {instant : Nat} {loop : LoopConfig} {world : World rmqtt sync}

theorem along_worldOf {related : World rmqtt sync → World rmqtt sync → Prop} {α : Type} {program : Session rmqtt sync α}
    (ran : Run.Along related program) (world : World rmqtt sync) : related world (worldOf (program world)) := by
  have ended := ran world
  cases result : program world with
  | ok _ after =>
    rw [result] at ended
    exact ended
  | error _ after =>
    rw [result] at ended
    exact ended

variable {result : EStateM.Result Stop (World rmqtt sync) (Option SessionOutcome)}

theorem Serves.of_writes {allowed : Prop} (writes : Writes allowed world (worldOf result))
    (early : allowed → ∃ moment, world.asked ≤ moment ∧ (env moment).time < instant) : Serves env instant world result := by
  obtain ⟨log, kept, modest⟩ := writes
  refine ⟨kept.lastPacketTime, kept.asked, log, kept.trace, .of_modest modest early, fun _ => ?_⟩
  rw [kept.holdDebt, modest_no_hold modest, Bool.or_false]

theorem Serves.behind {middle : World rmqtt sync}
    (rest : Serves env instant middle result) (world : World rmqtt sync) {log : List Observation}
    (anchor : middle.lastPacketTime = world.lastPacketTime) (asked : world.asked ≤ middle.asked)
    (trace : middle.trace = world.trace ++ log) (debt : middle.holdDebt = (world.holdDebt || log.any holdEnds))
    (timely : Timely env instant world.asked log) : Serves env instant world result := by
  obtain ⟨later, onward, late, logged, within, debts⟩ := rest
  refine ⟨later.trans anchor, asked.trans onward, log ++ late, ?_, timely.append (within.earlier asked), fun goes => ?_⟩
  · rw [logged, trace, List.append_assoc]
  · rw [debts goes, debt, List.any_append, Bool.or_assoc]

theorem bind_leftUntil_serves {next : Nat → Session rmqtt sync (Option SessionOutcome)} (closes : next 0 = idleClose)
    (writes : ∀ left, Run.Along (Writes True) (next left)) : Serves env instant world ((leftUntil env instant >>= next) world) := by
  have begun {allowed : Prop} : Writes allowed world world.answered :=
    .silent ⟨⟨rfl, rfl, Nat.le_succ _, (List.append_nil _).symm⟩, rfl⟩
  change Serves env instant world (next (instant - (env world.asked).time) world.answered)
  by_cases spent : instant - (env world.asked).time = 0
  · have idles : Run.Along (Writes False) (idleClose : Session rmqtt sync _) := .bind (along_observe trivial) fun _ => .pure _
    rw [spent, closes]
    exact .of_writes (trans_of (Writes False) begun (along_worldOf idles _)) False.elim
  · refine .of_writes (trans_of (Writes True) begun (along_worldOf (writes _) _)) fun _ => ?_
    exact ⟨world.asked, Nat.le_refl _, by omega⟩

theorem violationCloseOn_serves (violation : Violation) :
    Serves env instant world (violationCloseOn env loop (leftUntil env instant) violation world) := by
  refine bind_leftUntil_serves rfl fun left => ?_
  split
  · exact .bind (along_observe trivial) fun _ => .pure _
  · exact .bind (along_closeWithViolation env trivial violation left _) fun _ => .pure _

theorem replyOwedOn_serves (owed : Option Reply) :
    Serves env instant world (replyOwedOn env loop (leftUntil env instant) owed world) := by
  refine bind_leftUntil_serves rfl fun left => ?_
  split
  · exact .bind (along_observe trivial) fun _ => .pure _
  · cases owed with
    | none => exact .pure _
    | some reply =>
      refine .bind .get fun before => ?_
      dsimp only
      split
      · refine .bind (along_observe trivial) fun _ => ?_
        exact .bind (along_closeWithViolation env trivial _ left _) fun _ => .pure _
      · exact .bind (along_queueReply env trivial _ left _) fun _ => .pure _

private theorem deliverThenOn_serves (publish : CodecPublish) (owed : Option Reply) :
    Serves env instant world (deliverThenOn env loop (leftUntil env instant) publish owed world) := by
  simp only [deliverThenOn, leftUntil, Run.bind_apply, now_apply, Run.pure_apply]
  have delivers := deliverPublish_delivers env publish (instant - (env world.asked).time) loop.ingestDeadline world.answered
  generalize deliverPublish env publish (instant - (env world.asked).time) loop.ingestDeadline world.answered = result
    at delivers ⊢
  have begun : Keeps world world.answered [] := ⟨⟨rfl, rfl, Nat.le_succ _, (List.append_nil _).symm⟩, rfl⟩
  cases delivers with
  | goesOn after log offers kept =>
    have whole : Keeps world after log := begun.trans kept
    have debt : (after.holdDebt || log.any holdEnds) = (world.holdDebt || log.any holdEnds) := by rw [whole.holdDebt]
    have rest : Serves env instant { after with holdDebt := after.holdDebt || log.any holdEnds } (replyOwedOn env loop
      (leftUntil env instant) owed { after with holdDebt := after.holdDebt || log.any holdEnds }) := replyOwedOn_serves owed
    exact rest.behind world whole.lastPacketTime whole.asked whole.trace debt (.of_offers (Nat.le_refl _) offers)
  | idles after log offers kept =>
    have whole : Keeps world (after.log [.idleClosed]) (log ++ [.idleClosed]) :=
      (begun.trans kept).trans ⟨⟨rfl, rfl, Nat.le_refl _, rfl⟩, rfl⟩
    have timely : Timely env instant world.asked (log ++ [.idleClosed]) :=
      .append (.of_offers (Nat.le_refl _) offers) (.other rfl .nil)
    exact ⟨whole.lastPacketTime, whole.asked, _, whole.trace, timely, fun goes => by cases goes⟩
  | halted stop after log offers kept =>
    have whole : Keeps world after log := begun.trans kept
    exact ⟨whole.lastPacketTime, whole.asked, _, whole.trace, .of_offers (Nat.le_refl _) offers, fun goes => by cases goes⟩

theorem servePacketOn_serves (packet : MqttPacket) :
    Serves env instant world (servePacketOn env loop (leftUntil env instant) packet world) := by
  have served {result : EStateM.Result Stop (World rmqtt sync) (Option SessionOutcome)}
      (rest : Serves env instant { world with awaiting := (dispatch packet world.awaiting).2 } result) :
      Serves env instant world result :=
    rest.behind world rfl (Nat.le_refl _) (List.append_nil _).symm (Bool.or_false _).symm .nil
  simp only [servePacketOn, Run.bind_apply, Run.get_apply, Run.modify_apply]
  cases (dispatch packet world.awaiting).1 with
  | deliver publish => exact served (deliverThenOn_serves publish none)
  | deliverThenReply publish reply => exact served (deliverThenOn_serves publish (some reply))
  | reply reply => exact served (replyOwedOn_serves (some reply))
  | violation violation => exact served (violationCloseOn_serves violation)
  | close =>
    have flushes : Run.Along (Writes False) (do
        flushReplies env
        return some SessionOutcome.served : Session rmqtt sync _) := .bind (along_flushReplies env) fun _ => .pure _
    exact served (.of_writes (along_worldOf flushes _) False.elim)

theorem Serves.noted {observation : Observation} (free : spends observation = false) (ends : holdEnds observation = false)
    {result : EStateM.Result Stop (World rmqtt sync) (Option SessionOutcome)}
    (rest : Serves env instant (world.log [observation]) result) : Serves env instant world result := by
  refine rest.behind world rfl (Nat.le_refl _) rfl ?_ (.other free .nil)
  simp [World.log, ends]

end

/-! ### Whole runs -/

section
variable {env : Nat → Moment} {loop : LoopConfig} {world after : World rmqtt sync}

theorem past_refreshed (clock : Monotone fun moment => (env moment).time) (past : Past env world) (readStartsFresh : Bool) :
    Past env (refreshed env readStartsFresh world) := by
  unfold IdleAnchor.refreshed
  split
  · exact fun moment later => clock ((Nat.le_succ _).trans later)
  · exact past

theorem trace_refreshed (readStartsFresh : Bool) : (refreshed env readStartsFresh world).trace = world.trace := by
  unfold refreshed
  split <;> rfl

private theorem holdDebt_refreshed (readStartsFresh : Bool) :
    (refreshed env readStartsFresh world).holdDebt = (world.holdDebt && !readStartsFresh) := by
  unfold refreshed
  cases debt : world.holdDebt <;> cases readStartsFresh <;> simp [debt]

theorem turn_serves (clock : Monotone fun moment => (env moment).time) (past : Past env world) {packet : MqttPacket}
    {size : Nat} {fetched : World rmqtt sync}
    (awaited : awaitPacketOn env (idleLeft env loop.idleTimeout) world = .ok (.done (some (.ok (packet, size)))) fetched) :
    Serves env (deadline loop (refreshed env world.readBuffer.isEmpty (fetched.log [.decoded packet])))
      (refreshed env world.readBuffer.isEmpty (fetched.log [.decoded packet])) (turn env loop world) := by
  obtain ⟨log, anchored, -⟩ := awaitPacketOn_reads (along_idleLeft _) awaited
  have later : Past env (fetched.log [.decoded packet]) := past.after anchored.lastPacketTime anchored.asked
  rw [turn_apply, awaited]
  change Serves env _ _ (servePacket env loop packet world.readBuffer.isEmpty fetched)
  rw [servePacket_apply, servePacketOn_until (past_refreshed clock later _)]
  exact servePacketOn_serves packet

private theorem violationClose_ends (violation : Violation) : violationClose env loop violation world ≠ .ok none after := by
  intro goes
  simp only [violationClose, idleLeft, Run.bind_apply, now_apply, Run.get_apply, Run.pure_apply] at goes
  split at goes
  · cases goes
  · rw [Run.bind_apply] at goes
    cases closed : closeWithViolation env violation
      (loop.idleTimeout - ((env world.asked).time - world.answered.lastPacketTime)) loop.maxPacketSize world.answered with
    | ok _ _ =>
      rw [closed] at goes
      cases goes
    | error _ _ =>
      rw [closed] at goes
      cases goes

theorem turn_packet (turned : turn env loop world = .ok none after) : ∃ packet size fetched,
    awaitPacketOn env (idleLeft env loop.idleTimeout) world = .ok (.done (some (.ok (packet, size)))) fetched := by
  rw [turn_apply] at turned
  cases awaited : awaitPacketOn env (idleLeft env loop.idleTimeout) world with
  | error stop fetched =>
    rw [awaited] at turned
    cases turned
  | ok next fetched =>
    rw [awaited] at turned
    rcases next with (_ | (error | ⟨packet, size⟩)) | _
    · cases turned
    · simp only [serveNext, serveReadError, Run.bind_apply, observe_apply] at turned
      cases classified : classifyReadError error with
      | some violation =>
        rw [classified] at turned
        exact absurd turned (violationClose_ends violation)
      | none =>
        rw [classified] at turned
        dsimp only at turned
        split at turned <;> cases turned
    · exact ⟨packet, size, fetched, rfl⟩
    · cases turned

def Turns (env : Nat → Moment) (loop : LoopConfig) (before after : World rmqtt sync) : Prop :=
  turn env loop before = .ok none after

/-- A PUBLISH waited for room in between and was then enqueued, or dropped at its deadline. -/
def Held (before after : World rmqtt sync) : Prop :=
  ∃ log, after.trace = before.trace ++ log ∧ log.any holdEnds = true

theorem past_of_entry (clock : Monotone fun moment => (env moment).time)
    (entry : world.lastPacketTime ≤ (env world.asked).time) : Past env world :=
  fun _ later => entry.trans (clock later)

section
variable (clock : Monotone fun moment => (env moment).time) (past : Past env world)
include clock past

theorem past_turns (turned : Turns env loop world after) : Past env after := by
  obtain ⟨packet, size, fetched, awaited⟩ := turn_packet turned
  obtain ⟨log, anchored, -⟩ := awaitPacketOn_reads (along_idleLeft _) awaited
  have later : Past env (fetched.log [.decoded packet]) := past.after anchored.lastPacketTime anchored.asked
  have serves := turn_serves clock past awaited
  rw [turned] at serves
  exact (past_refreshed clock later _).after serves.lastPacketTime serves.asked

theorem turns_holdDebt (turned : Turns env loop world after) : ∃ log, after.trace = world.trace ++ log ∧
      after.holdDebt = (world.holdDebt && !world.readBuffer.isEmpty || log.any holdEnds) := by
  obtain ⟨packet, size, fetched, awaited⟩ := turn_packet turned
  obtain ⟨early, anchored, modest⟩ := awaitPacketOn_reads (along_idleLeft _) awaited
  have serves := turn_serves clock past awaited
  rw [turned] at serves
  obtain ⟨late, logged, -, debt⟩ := serves.log
  refine ⟨early ++ ([.decoded packet] ++ late), ?_, ?_⟩
  · refine logged.trans ?_
    rw [trace_refreshed]
    change (fetched.trace ++ [.decoded packet]) ++ late = _
    rw [anchored.trace, List.append_assoc, List.append_assoc]
  · refine (debt rfl).trans ?_
    rw [holdDebt_refreshed, List.any_append, modest_no_hold modest, List.any_append]
    change (fetched.holdDebt && _ || _) = _
    rw [anchored.holdDebt]
    rfl

end

end

/-! ### A client with a backlog -/

section
open Session Fixtures

def backlogged : Publish := ⟨⟨false, false, .atMostOnce, "topic", none, [], none⟩⟩

def fullChannel : EventChannel .fifo Publish := ⟨List.replicate eventChannelCapacity backlogged, false, eventChannelCapacity, 0, ⟨0, [], [], false⟩⟩

def ticking : LoopConfig := ⟨5000, none, 1000⟩

theorem turns_of_answer {env : Nat → Moment} {loop : LoopConfig} {world : World rmqtt sync}
    (goes : answerOf (turn env loop world) = .ok none) : Turns env loop world (worldOf (turn env loop world)) := by
  unfold Turns
  cases result : turn env loop world with
  | ok value after =>
    rw [result] at goes
    cases goes
    rfl
  | error stop after =>
    rw [result] at goes
    cases goes

end

end UringMqtt.Proofs.HeldBacklog

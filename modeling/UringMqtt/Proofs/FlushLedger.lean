import Mathlib.Logic.Relation
import UringMqtt.Lib.Ghost
import UringMqtt.Proofs.IdleAnchor
import UringMqtt.Proofs.Outbox

/-! The packet loop with an account of its replies: which are in the write buffer, each
with the idle deadline of the packet it answers, which flush started when, what every send
found in the buffer and what `flush_replies` put on the socket. The account is ghost state,
and without it the annotated loop is the loop of the code. -/

namespace UringMqtt.Proofs.FlushLedger
open Lib SessionSteps IdleAnchor

/-- A reply in the write buffer, with the instant its own idle budget runs out. -/
structure Buffered where
  bytes : Bytes
  deadline : Nat
deriving DecidableEq

structure Flush where
  startedAt : Nat
  replies : List Buffered
deriving DecidableEq

/-- A call of `PacketIo::send`: how much was buffered, and what the packet adds. -/
structure Sending where
  buffered : Nat
  size : Nat
deriving DecidableEq

structure Account where
  buffered : List Buffered := []
  flushes : List Flush := []
  sends : List Sending := []
  /-- The bytes that `flush_replies` put on the socket. -/
  flushed : Bytes := []
deriving DecidableEq

namespace Account

def starts (account : Account) (time : Nat) : Account :=
  { account with flushes := account.flushes ++ [⟨time, account.buffered⟩] }

def completes (account : Account) : Account := { account with buffered := [] }

def queues (account : Account) (reply : Buffered) : Account := { account with buffered := account.buffered ++ [reply] }

def sending (account : Account) (sending : Sending) : Account := { account with sends := account.sends ++ [sending] }

def wrote (account : Account) (bytes : Bytes) : Account := { account with flushed := account.flushed ++ bytes }

end Account

def bytesOf (replies : List Buffered) : Bytes := replies.flatMap Buffered.bytes

variable {rmqtt : Rmqtt} {sync : LocalSync} (env : Nat → Moment) (loop : LoopConfig)

/-! ### A turn in three parts

What a turn comes to once it has read a packet, or failed to, and has delivered it. -/

inductive Due where
  | reply (owed : Option Reply)
  | violation (violation : Violation)
  | close
  | finish (outcome : SessionOutcome)

def headFlush : Session rmqtt sync Unit := do
  let world ← get
  if !holdsCompletePacket world.readBuffer || world.channel.wouldHold then flushReplies env

def meetDelivery (publish : CodecPublish) (owed : Option Reply) : Session rmqtt sync Due := do
  let left ← idleLeft env loop.idleTimeout
  match ← deliverPublish env publish left loop.ingestDeadline with
  | .continue held =>
    modify fun world => { world with holdDebt := world.holdDebt || held }
    return .reply owed
  | .idleTimeout =>
    observe .idleClosed
    return .finish .served

def meetDisposition : Disposition → Session rmqtt sync Due
  | .deliver publish => meetDelivery env loop publish none
  | .deliverThenReply publish reply => meetDelivery env loop publish (some reply)
  | .reply reply => return .reply (some reply)
  | .close => return .close
  | .violation violation => return .violation violation

def meetDispatch (packet : MqttPacket) : Session rmqtt sync Due := do
  let (disposition, awaiting) := dispatch packet (← get).awaiting
  modify fun world => { world with awaiting }
  meetDisposition env loop disposition

def meetPacket (packet : MqttPacket) (readStartsFresh : Bool) : Session rmqtt sync Due := do
  observe (.decoded packet)
  if !(← get).holdDebt || readStartsFresh then
    let time ← now env
    modify fun world => { world with lastPacketTime := time, holdDebt := false }
  meetDispatch env loop packet

def meetReadError (error : IoError) : Session rmqtt sync Due := do
  observe (.readEnded (some error))
  match classifyReadError error with
  | some violation => return .violation violation
  | none => if (Error.io error).isTruncatedPacket then fail (.io error) else return .finish .served

def meetNext (readStartsFresh : Bool) : Next Item → Session rmqtt sync Due
  | .done (some (.ok (packet, _))) => meetPacket env loop packet readStartsFresh
  | .done (some (.error error)) => meetReadError error
  | .done none => do
    observe (.readEnded none)
    return .finish .served
  | .timedOut => return .finish .served

/-- The turn from its read to the point where the reply's budget is taken, behind any
wait for room in the event channel. -/
def meet : Session rmqtt sync Due := do
  let readStartsFresh := (← get).readBuffer.isEmpty
  let remainingIdle ← idleLeft env loop.idleTimeout
  observe (.timer remainingIdle)
  meetNext env loop readStartsFresh (← nextPacket env)

def answer : Due → Session rmqtt sync (Option SessionOutcome)
  | .reply owed => replyOwed env loop owed
  | .violation violation => violationClose env loop violation
  | .close => do
    flushReplies env
    return some .served
  | .finish outcome => return some outcome

private theorem deliverThen_parts (publish : CodecPublish) (owed : Option Reply) :
    (deliverThen env loop publish owed : Session rmqtt sync _) = meetDelivery env loop publish owed >>= answer env loop := by
  funext world
  simp only [deliverThen, meetDelivery, Run.bind_apply]
  cases idleLeft env loop.idleTimeout world with
  | ok left after =>
    dsimp only
    rcases deliverPublish env publish left loop.ingestDeadline after with ⟨held | _, later⟩ | ⟨stop, later⟩ <;> rfl
  | error stop after => rfl

private theorem servePacket_parts (packet : MqttPacket) (readStartsFresh : Bool) :
    (servePacket env loop packet readStartsFresh : Session rmqtt sync _) =
      meetPacket env loop packet readStartsFresh >>= answer env loop := by
  funext world
  have delivered (publish : CodecPublish) (owed : Option Reply) (world : World rmqtt sync) :=
    congrFun (deliverThen_parts env loop publish owed) world
  simp only [servePacket, meetPacket, meetDispatch, Run.bind_apply, observe_apply, Run.get_apply]
  split
  all_goals
    simp only [Run.bind_apply, now_apply, Run.modify_apply, Run.get_apply]
    cases (dispatch packet _).1 with
    | deliver publish => exact delivered publish none _
    | deliverThenReply publish reply => exact delivered publish (some reply) _
    | reply | close | violation => rfl

private theorem serveNext_parts (readStartsFresh : Bool) (next : Next Item) :
    (serveNext env loop readStartsFresh next : Session rmqtt sync _) =
      meetNext env loop readStartsFresh next >>= answer env loop := by
  rcases next with (_ | (error | ⟨packet, _⟩)) | _
  · rfl
  · funext world
    simp only [serveNext, meetNext, serveReadError, meetReadError, Run.bind_apply, observe_apply]
    rcases classifyReadError error with _ | violation
    · dsimp only
      split <;> rfl
    · rfl
  · exact servePacket_parts env loop packet readStartsFresh
  · rfl

theorem turn_parts : (turn env loop : Session rmqtt sync _) = (do
    headFlush env
    answer env loop (← meet env loop)) := by
  funext world
  have read (world : World rmqtt sync) : (do
      let readStartsFresh := (← get).readBuffer.isEmpty
      let remainingIdle ← idleLeft env loop.idleTimeout
      observe (.timer remainingIdle)
      serveNext env loop readStartsFresh (← nextPacket env) : Session rmqtt sync _) world =
      (meet env loop >>= answer env loop) world := by
    simp only [meet, idleLeft, Run.bind_apply, Run.get_apply, now_apply, Run.pure_apply, observe_apply]
    rcases nextPacket env _ with ⟨next, after⟩ | ⟨stop, after⟩
    · exact congrFun (serveNext_parts env loop _ next) after
    · rfl
  simp only [turn, headFlush, Run.bind_apply, Run.get_apply]
  split
  · simp only [Run.bind_apply]
    cases flushReplies env world with
    | ok _ after => exact read after
    | error stop after => rfl
  · exact read world

/-! ### The loop with its account -/

abbrev Annotated (rmqtt : Rmqtt) (sync : LocalSync) := EStateM Stop (World rmqtt sync × Account)

def flushRepliesNoted : Annotated rmqtt sync Unit := do
  match (← Ghost.look).unflushed with
  | none => return ()
  | some queued =>
    Ghost.lift (modify fun world => { world with unflushed := none })
    let time ← Ghost.lift (now env)
    let left := queued.flushBy - time
    if left = 0 then Ghost.lift do
      observe .writeExpired
      fail .timeout
    else
      Ghost.lift (observe (.timer left))
      Ghost.note fun _ account => account.starts time
      match ← Ghost.noting (fun before after account => account.wrote (after.written.drop before.written.length)) (flush env) with
      | .done (.ok ()) => Ghost.note fun _ account => account.completes
      | .done (.error error) => Ghost.lift (fail (.io error))
      | .timedOut => Ghost.lift (fail .timeout)

def sendingOf (packet : MqttPacket) (world : World rmqtt sync) : Sending :=
  ⟨world.writeBuffer.length, (Outbox.encoding rmqtt world.version packet).length⟩

def sendNoted (packet : MqttPacket) (time : Nat) : Annotated rmqtt sync (Timed (Except IoError Unit)) := do
  Ghost.note fun world account => account.sending (sendingOf packet world)
  if (← Ghost.look).writeBuffer.length ≥ writeBackpressureBoundary then
    Ghost.note fun _ account => account.starts time
    match ← Ghost.lift (flush env) with
    | .done (.ok ()) =>
      Ghost.note fun _ account => account.completes
      Ghost.lift (encode packet)
    | other => return other
  else Ghost.lift (encode packet)

def encodeReplyNoted (packet : MqttPacket) (flushBy : Nat) (timeoutContext : TimeoutContext) :
    Annotated rmqtt sync Unit := do
  let moment ← Ghost.lift (ask env)
  Ghost.lift (observe (.timer (flushBy - moment.time)))
  if moment.sendExpires then Ghost.lift do
    observe .writeExpired
    modify fun world => { world with unflushed := none }
    fail .timeout
  else
    match ← sendNoted env packet moment.time with
    | .done (.ok ()) =>
      Ghost.note fun world account => account.queues ⟨Outbox.encoding rmqtt world.version packet, deadline loop world⟩
      Ghost.lift (modify fun world =>
        { world with unflushed := some (world.unflushed.getD ⟨flushBy, timeoutContext⟩) })
    | .done (.error error) => Ghost.lift do
      modify fun world => { world with unflushed := none }
      fail (.io error)
    | .timedOut => Ghost.lift do
      modify fun world => { world with unflushed := none }
      fail .timeout

def queueReplyNoted (packet : MqttPacket) (budget : Nat) (timeoutContext : TimeoutContext) : Annotated rmqtt sync Unit := do
  let flushBy := (← Ghost.lift (now env)) + budget
  if (← Ghost.look).writeBuffer.length ≥ writeBackpressureBoundary then flushRepliesNoted env
  encodeReplyNoted env loop packet flushBy timeoutContext

def attemptNoted {α : Type} (run : Annotated rmqtt sync α) : Annotated rmqtt sync (Except Error α) := fun state =>
  match run state with
  | .ok value after => .ok (.ok value) after
  | .error (.error error) after => .ok (.error error) after
  | .error .pending after => .error .pending after
  | .error .panicked after => .error .panicked after

def closeWithViolationNoted (violation : Violation) (budget : Nat) : Annotated rmqtt sync SessionOutcome := do
  Ghost.lift (observe (.violated violation))
  let _queued ← match violation.disconnect rmqtt (← Ghost.look).version loop.maxPacketSize with
    | some packet => attemptNoted (queueReplyNoted env loop packet budget .disconnectFlush)
    | none => pure (.ok ())
  let _flushed ← attemptNoted (flushRepliesNoted env)
  return .violation

def violationCloseNoted (violation : Violation) : Annotated rmqtt sync (Option SessionOutcome) := do
  let replyDeadline ← Ghost.lift (idleLeft env loop.idleTimeout)
  if replyDeadline = 0 then Ghost.lift idleClose
  else return some (← closeWithViolationNoted env loop violation replyDeadline)

def replyOwedNoted (owed : Option Reply) : Annotated rmqtt sync (Option SessionOutcome) := do
  let replyDeadline ← Ghost.lift (idleLeft env loop.idleTimeout)
  if replyDeadline = 0 then Ghost.lift idleClose
  else match owed with
    | none => return none
    | some reply =>
      let version := (← Ghost.look).version
      match replyOverMaxPacketSize rmqtt reply version loop.maxPacketSize with
      | some violation =>
        Ghost.lift (observe .gated)
        return some (← closeWithViolationNoted env loop violation replyDeadline)
      | none =>
        queueReplyNoted env loop (reply.render version) replyDeadline reply.timeoutContext
        return none

def headFlushNoted : Annotated rmqtt sync Unit := do
  let world ← Ghost.look
  if !holdsCompletePacket world.readBuffer || world.channel.wouldHold then flushRepliesNoted env

def answerNoted : Due → Annotated rmqtt sync (Option SessionOutcome)
  | .reply owed => replyOwedNoted env loop owed
  | .violation violation => violationCloseNoted env loop violation
  | .close => do
    flushRepliesNoted env
    return some .served
  | .finish outcome => return some outcome

def turnNoted : Annotated rmqtt sync (Option SessionOutcome) := do
  headFlushNoted env
  answerNoted env loop (← Ghost.lift (meet env loop))

def runPacketLoopNoted : Nat → Annotated rmqtt sync SessionOutcome
  | 0 => throw .pending
  | turns + 1 => do
    match ← turnNoted env loop with
    | some outcome => return outcome
    | none => runPacketLoopNoted turns

/-! ### Without the account -/

open Ghost (Erases)

theorem flushReplies_erased : Erases (flushRepliesNoted env) (flushReplies env : Session rmqtt sync Unit) := by
  refine .bind .look fun world => ?_
  cases world.unflushed with
  | none => exact .pure _
  | some queued =>
    refine .bind (.lift _) fun _ => .bind (.lift _) fun time => ?_
    refine .ite (.lift _) (.bind (.lift _) fun _ => .note_bind (.bind (.noting _ _) fun flushed => ?_))
    rcases flushed with (_ | _) | _
    · exact .lift _
    · exact .note _
    · exact .lift _

private theorem send_erased (packet : MqttPacket) (time : Nat) :
    Erases (sendNoted env packet time) (send env packet : Session rmqtt sync _) := by
  refine .note_bind (.bind .look fun world => .ite (.note_bind (.bind (.lift _) fun flushed => ?_)) (.lift _))
  rcases flushed with (_ | _) | _
  · exact .pure _
  · exact .note_bind (.lift _)
  · exact .pure _

private theorem encodeReply_erased (packet : MqttPacket) (flushBy : Nat) (timeoutContext : TimeoutContext) :
    Erases (encodeReplyNoted env loop packet flushBy timeoutContext)
      (encodeReply env packet flushBy timeoutContext : Session rmqtt sync Unit) := by
  refine .bind (.lift _) fun moment => .bind (.lift _) fun _ => .ite (.lift _) ?_
  refine .bind (send_erased env packet _) fun sent => ?_
  rcases sent with (_ | _) | _
  · exact .lift _
  · exact .note_bind (.lift _)
  · exact .lift _

theorem queueReply_erased (packet : MqttPacket) (budget : Nat) (timeoutContext : TimeoutContext) :
    Erases (queueReplyNoted env loop packet budget timeoutContext)
      (queueReply env packet budget timeoutContext : Session rmqtt sync Unit) := by
  have encodes (flushBy : Nat) := @encodeReply_erased rmqtt sync env loop packet flushBy timeoutContext
  refine .bind (.lift _) fun time => .bind .look fun world => ?_
  exact .ite (.bind (flushReplies_erased env) fun _ => encodes _) (encodes _)

private theorem attempt_erased {α : Type} {annotated : Annotated rmqtt sync α} {program : Session rmqtt sync α}
    (erased : Erases annotated program) : Erases (attemptNoted annotated) (attempt program) := by
  constructor
  intro world account
  have same := erased.same world account
  rw [attempt_apply, ← same]
  unfold attemptNoted
  rcases annotated (world, account) with _ | ⟨_ | _, _⟩ <;> rfl

theorem closeWithViolation_erased (violation : Violation) (budget : Nat) :
    Erases (closeWithViolationNoted env loop violation budget)
      (closeWithViolation env violation budget loop.maxPacketSize : Session rmqtt sync SessionOutcome) := by
  refine .bind (.lift _) fun _ => .bind .look fun world => ?_
  have flushes (_ : Except Error Unit) := Erases.bind (attempt_erased (@flushReplies_erased rmqtt sync env))
    fun _ => Erases.pure SessionOutcome.violation
  cases violation.disconnect rmqtt world.version loop.maxPacketSize with
  | some packet => exact .bind (attempt_erased (queueReply_erased env loop packet budget _)) flushes
  | none => exact .bind (.pure _) flushes

private theorem violationClose_erased (violation : Violation) :
    Erases (violationCloseNoted env loop violation) (violationClose env loop violation : Session rmqtt sync _) := by
  refine .bind (.lift _) fun budget => .ite (.lift _) ?_
  exact .bind (closeWithViolation_erased env loop violation budget) fun _ => .pure _

private theorem replyOwed_erased (owed : Option Reply) :
    Erases (replyOwedNoted env loop owed) (replyOwed env loop owed : Session rmqtt sync _) := by
  refine .bind (.lift _) fun budget => .ite (.lift _) ?_
  cases owed with
  | none => exact .pure _
  | some reply =>
    refine .bind .look fun world => ?_
    dsimp only
    cases replyOverMaxPacketSize rmqtt reply world.version loop.maxPacketSize with
    | some violation =>
      exact .bind (.lift _) fun _ => .bind (closeWithViolation_erased env loop violation budget) fun _ => .pure _
    | none => exact .bind (queueReply_erased env loop _ budget _) fun _ => .pure _

theorem headFlush_erased : Erases (headFlushNoted env) (headFlush env : Session rmqtt sync Unit) :=
  .bind .look fun _ => .ite (flushReplies_erased env) (.pure _)

theorem answer_erased (due : Due) : Erases (answerNoted env loop due) (answer env loop due : Session rmqtt sync _) := by
  cases due with
  | reply owed => exact replyOwed_erased env loop owed
  | violation violation => exact violationClose_erased env loop violation
  | close => exact .bind (flushReplies_erased env) fun _ => .pure _
  | finish outcome => exact .pure _

theorem runPacketLoop_erased (turns : Nat) :
    Erases (runPacketLoopNoted env loop turns) (runPacketLoop env loop turns : Session rmqtt sync _) := by
  induction turns with
  | zero => exact ⟨fun _ _ => rfl⟩
  | succ turns again =>
    have turned : Erases (turnNoted env loop) (turn env loop : Session rmqtt sync _) := by
      rw [turn_parts]
      exact .bind (headFlush_erased env) fun _ => .bind (.lift _) fun due => answer_erased env loop due
    refine .bind turned fun outcome => ?_
    cases outcome with
    | some outcome => exact .pure _
    | none => exact again

/-! ### The states of the loop -/

/-- Where `run_packet_loop` stands: at the top of a turn, before the read, at a packet
whose reply it is about to see to, or at its end. -/
inductive Phase where
  | head
  | reading
  | answering (due : Due)
  | ended

structure Point (rmqtt : Rmqtt) (sync : LocalSync) where
  phase : Phase
  world : World rmqtt sync
  account : Account

inductive Leads {α : Type} (goes : α → Phase) : EStateM.Result Stop (World rmqtt sync × Account) α → Point rmqtt sync → Prop
  | on (value : α) (world : World rmqtt sync) (account : Account) :
      Leads goes (.ok value (world, account)) ⟨goes value, world, account⟩
  | out (stop : Stop) (world : World rmqtt sync) (account : Account) :
      Leads goes (.error stop (world, account)) ⟨.ended, world, account⟩

inductive Step : Point rmqtt sync → Point rmqtt sync → Prop
  | flushes {world : World rmqtt sync} {account : Account} {after : Point rmqtt sync}
      (ran : Leads (fun _ => .reading) (headFlushNoted env (world, account)) after) : Step ⟨.head, world, account⟩ after
  | meets {world : World rmqtt sync} {account : Account} {after : Point rmqtt sync}
      (ran : Leads .answering (Ghost.lift (meet env loop) (world, account)) after) : Step ⟨.reading, world, account⟩ after
  | answers {due : Due} {world : World rmqtt sync} {account : Account} {after : Point rmqtt sync}
      (ran : Leads (fun outcome => if outcome.isSome then .ended else .head) (answerNoted env loop due (world, account)) after) :
      Step ⟨.answering due, world, account⟩ after

def Reached (start : World rmqtt sync) (point : Point rmqtt sync) : Prop :=
  Relation.ReflTransGen (Step env loop) ⟨.head, start, {}⟩ point

theorem turn_steps (world : World rmqtt sync) (account : Account) :
    ∃ point, Relation.ReflTransGen (Step env loop) ⟨.head, world, account⟩ point ∧
      point.world = worldOf (turn env loop world) ∧
      (answerOf (turn env loop world) = .ok none → point.phase = .head) := by
  rw [turn_parts]
  have flushed := (headFlush_erased env).same world account
  have first (point : Point rmqtt sync) (led : Leads (fun _ => .reading) (headFlushNoted env (world, account)) point) :
      Relation.ReflTransGen (Step env loop) ⟨.head, world, account⟩ point := .single (.flushes led)
  simp only [Run.bind_apply, ← flushed]
  generalize headFlushNoted env (world, account) = ran at first ⊢
  rcases ran with ⟨_, ready, early⟩ | ⟨stop, ready, early⟩
  · have second (point : Point rmqtt sync) (led : Leads .answering (Ghost.lift (meet env loop) (ready, early)) point) :
        Relation.ReflTransGen (Step env loop) ⟨.head, world, account⟩ point := (first _ (.on _ _ _)).tail (.meets led)
    simp only [Ghost.forget]
    rw [Ghost.lift_apply] at second
    generalize meet env loop ready = ran at second ⊢
    rcases ran with ⟨due, met⟩ | ⟨stop, met⟩
    · have answered := (answer_erased env loop due).same met early
      have third (point : Point rmqtt sync)
          (led : Leads (fun outcome => if outcome.isSome then .ended else .head) (answerNoted env loop due (met, early)) point) :
          Relation.ReflTransGen (Step env loop) ⟨.head, world, account⟩ point := (second _ (.on _ _ _)).tail (.answers led)
      simp only [← answered]
      generalize answerNoted env loop due (met, early) = ran at third ⊢
      rcases ran with ⟨_ | outcome, after, late⟩ | ⟨stop, after, late⟩
      · exact ⟨_, third _ (.on _ _ _), rfl, fun _ => rfl⟩
      · exact ⟨_, third _ (.on _ _ _), rfl, nofun⟩
      · exact ⟨_, third _ (.out _ _ _), rfl, nofun⟩
    · exact ⟨_, second _ (.out _ _ _), rfl, nofun⟩
  · exact ⟨⟨.ended, ready, early⟩, first _ (.out _ _ _), rfl, nofun⟩

theorem runPacketLoop_steps (turns : Nat) (world : World rmqtt sync) (account : Account) :
    ∃ point, Relation.ReflTransGen (Step env loop) ⟨.head, world, account⟩ point ∧
      point.world = worldOf (runPacketLoop env loop turns world) := by
  induction turns generalizing world account with
  | zero => exact ⟨_, .refl, rfl⟩
  | succ turns again =>
    obtain ⟨⟨phase, after, late⟩, steps, same, goes⟩ := turn_steps env loop world account
    rw [runPacketLoop, Run.bind_apply]
    generalize turn env loop world = ran at same goes ⊢
    rcases ran with ⟨_ | outcome, last⟩ | ⟨stop, last⟩
    · obtain rfl : after = last := same
      obtain rfl : phase = .head := goes rfl
      obtain ⟨point, more, ended⟩ := again after late
      exact ⟨point, steps.trans more, ended⟩
    · exact ⟨_, steps, same⟩
    · exact ⟨_, steps, same⟩

end UringMqtt.Proofs.FlushLedger

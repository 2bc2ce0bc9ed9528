import UringMqtt.Proofs.SessionSteps

/-! The idle anchor of a session and the debt a hold leaves on it. Every budget of
the packet loop is what is left until one instant, the anchor plus the idle timeout;
while a held backlog is served that instant stands still. -/

namespace UringMqtt.Proofs.IdleAnchor
open Lib SessionSteps

variable {rmqtt : Rmqtt} {sync : LocalSync} (env : Nat → Moment)

/-- A stretch of a session that leaves the anchor and the debt alone. -/
structure Anchored (before after : World rmqtt sync) (log : List Observation) : Prop where
  lastPacketTime : after.lastPacketTime = before.lastPacketTime
  holdDebt : after.holdDebt = before.holdDebt
  asked : before.asked ≤ after.asked
  trace : after.trace = before.trace ++ log

variable {first second third before : World rmqtt sync} {early late : List Observation}

theorem Anchored.trans
    (one : Anchored first second early) (two : Anchored second third late) : Anchored first third (early ++ late) where
  lastPacketTime := two.lastPacketTime.trans one.lastPacketTime
  holdDebt := two.holdDebt.trans one.holdDebt
  asked := one.asked.trans two.asked
  trace := by rw [two.trace, one.trace, List.append_assoc]

structure Keeps (before after : World rmqtt sync) (log : List Observation) : Prop extends Anchored before after log where
  readBuffer : after.readBuffer = before.readBuffer

theorem Keeps.refl (world : World rmqtt sync) : Keeps world world [] :=
  ⟨⟨rfl, rfl, Nat.le_refl _, (List.append_nil _).symm⟩, rfl⟩

theorem Keeps.trans (one : Keeps first second early) (two : Keeps second third late) : Keeps first third (early ++ late) :=
  ⟨one.toAnchored.trans two.toAnchored, two.readBuffer.trans one.readBuffer⟩

/-! ### Writing -/

/-- What the write side of a session logs: no packet, no offer and no hold. A reply
is encoded only if that is `allowed`. -/
def Modest (allowed : Prop) : Observation → Prop
  | .decoded _ | .offered .. | .awaitSlot .. | .slotExpired | .admitted .. => False
  | .sent .. => allowed
  | _ => True

def Writes (allowed : Prop) (before after : World rmqtt sync) : Prop :=
  ∃ log, Keeps before after log ∧ ∀ observation ∈ log, Modest allowed observation

instance (allowed : Prop) : IsPreorder (World rmqtt sync) (Writes allowed) where
  refl world := ⟨[], .refl world, List.forall_mem_nil _⟩
  trans _ _ _ one two := by
    obtain ⟨early, first, modest⟩ := one
    obtain ⟨late, second, rest⟩ := two
    exact ⟨early ++ late, first.trans second, List.forall_mem_append.mpr ⟨modest, rest⟩⟩

section
variable {allowed : Prop}

theorem Writes.silent {before after : World rmqtt sync} (kept : Keeps before after []) : Writes allowed before after :=
  ⟨[], kept, List.forall_mem_nil _⟩

theorem along_observe {observation : Observation} (modest : Modest allowed observation) :
    Run.Along (Writes allowed) (observe observation : Session rmqtt sync Unit) :=
  fun _ => ⟨[observation], ⟨⟨rfl, rfl, Nat.le_refl _, rfl⟩, rfl⟩, List.forall_mem_singleton.mpr modest⟩

theorem along_ask : Run.Along (Writes allowed) (ask env : Session rmqtt sync Moment) :=
  fun _ => .silent ⟨⟨rfl, rfl, Nat.le_succ _, (List.append_nil _).symm⟩, rfl⟩

theorem along_now : Run.Along (Writes allowed) (now env : Session rmqtt sync Nat) :=
  (along_ask env).bind fun _ => .pure _

theorem along_suspend : Run.Along (Writes allowed) (suspend env : Session rmqtt sync Moment) :=
  fun _ => .silent ⟨⟨rfl, rfl, Nat.le_succ _, (List.append_nil _).symm⟩, rfl⟩

private theorem along_take (count : Nat) : Run.Along (Writes allowed) (take count : Session rmqtt sync Unit) :=
  fun _ => ⟨[.wrote _], ⟨⟨rfl, rfl, Nat.le_refl _, rfl⟩, rfl⟩, List.forall_mem_singleton.mpr trivial⟩

theorem along_unflushed (unflushed : World rmqtt sync → Option UnflushedReplies) :
    Run.Along (Writes allowed) (modify fun world => { world with unflushed := unflushed world } : Session rmqtt sync Unit) :=
  .update fun _ => .silent ⟨⟨rfl, rfl, Nat.le_refl _, (List.append_nil _).symm⟩, rfl⟩

variable {α : Type}

theorem along_fail (error : Error) : Run.Along (Writes allowed) (fail error : Session rmqtt sync α) := .throw _

private theorem along_attempt {program : Session rmqtt sync α} (ran : Run.Along (Writes allowed) program) :
    Run.Along (Writes allowed) (attempt program) := by
  intro world
  have ended := ran world
  rw [attempt_apply]
  cases result : program world with
  | ok value after =>
    rw [result] at ended
    exact ended
  | error stop after =>
    rw [result] at ended
    cases stop <;> exact ended

theorem along_flush : Run.Along (Writes allowed) (flush env : Session rmqtt sync (Timed (Except IoError Unit))) := by
  refine .bind (along_suspend env) fun moment => ?_
  cases moment.writing with
  | done =>
    refine .bind .get fun world => .bind (along_take _) fun _ => ?_
    exact .bind (along_observe trivial) fun _ => .pure _
  | failed => exact .bind (along_take _) fun _ => .bind (along_observe trivial) fun _ => .pure _
  | expired => exact .bind (along_take _) fun _ => .bind (along_observe trivial) fun _ => .pure _
  | never => exact .bind (along_take _) fun _ => .throw _

theorem along_flushReplies : Run.Along (Writes allowed) (flushReplies env : Session rmqtt sync Unit) := by
  refine .bind .get fun world => ?_
  cases world.unflushed with
  | none => exact .pure _
  | some queued =>
    refine .bind (along_unflushed fun _ => none) fun _ => .bind (along_now env) fun time => ?_
    dsimp only
    split
    · exact .bind (along_observe trivial) fun _ => along_fail _
    · refine .bind (along_observe trivial) fun _ => .bind (along_flush env) fun flushed => ?_
      rcases flushed with (_ | _) | _
      · exact along_fail _
      · exact .pure _
      · exact along_fail _

private theorem along_encode (allow : allowed) (packet : MqttPacket) :
    Run.Along (Writes allowed) (encode packet : Session rmqtt sync (Timed (Except IoError Unit))) := by
  refine .bind .get fun world => .bind (along_observe allow) fun _ => ?_
  cases rmqtt.encode world.version packet with
  | some bytes =>
    refine .bind (.update fun _ => ?_) fun _ => .pure _
    exact .silent ⟨⟨rfl, rfl, Nat.le_refl _, (List.append_nil _).symm⟩, rfl⟩
  | none => exact .bind (along_observe trivial) fun _ => .pure _

theorem along_send (allow : allowed) (packet : MqttPacket) :
    Run.Along (Writes allowed) (send env packet : Session rmqtt sync (Timed (Except IoError Unit))) := by
  refine .bind .get fun world => ?_
  split
  · refine .bind (along_flush env) fun flushed => ?_
    rcases flushed with (_ | _) | _
    · exact .pure _
    · exact along_encode allow packet
    · exact .pure _
  · exact along_encode allow packet

private theorem along_encodeReply (allow : allowed) (packet : MqttPacket) (flushBy : Nat) (context : TimeoutContext) :
    Run.Along (Writes allowed) (encodeReply env packet flushBy context : Session rmqtt sync Unit) := by
  have cleared (error : Error) : Run.Along (Writes allowed) (do
      modify fun world => { world with unflushed := none }
      fail error : Session rmqtt sync Unit) := .bind (along_unflushed fun _ => none) fun _ => along_fail error
  refine .bind (along_ask env) fun moment => .bind (along_observe trivial) fun _ => ?_
  split
  · exact .bind (along_observe trivial) fun _ => cleared _
  · refine .bind (along_send env allow packet) fun sent => ?_
    rcases sent with (_ | _) | _
    · exact cleared _
    · exact along_unflushed _
    · exact cleared _

theorem along_queueReply (allow : allowed) (packet : MqttPacket) (deadline : Nat) (context : TimeoutContext) :
    Run.Along (Writes allowed) (queueReply env packet deadline context : Session rmqtt sync Unit) := by
  refine .bind (along_now env) fun time => .bind .get fun world => ?_
  dsimp only
  split
  · exact .bind (along_flushReplies env) fun _ => along_encodeReply env allow packet _ context
  · exact along_encodeReply env allow packet _ context

theorem along_closeWithViolation (allow : allowed) (violation : Violation) (deadline : Nat) (maxPacketSize : Option NonZeroU32) :
    Run.Along (Writes allowed)
      (closeWithViolation env violation deadline maxPacketSize : Session rmqtt sync SessionOutcome) := by
  have flushed (ignored : Except Error Unit) : Run.Along (Writes allowed) (do
      let _flushed ← attempt (flushReplies env)
      return SessionOutcome.violation : Session rmqtt sync SessionOutcome) :=
    .bind (along_attempt (along_flushReplies env)) fun _ => .pure _
  refine .bind (along_observe trivial) fun _ => .bind .get fun world => ?_
  dsimp only
  split
  · exact .bind (along_attempt (along_queueReply env allow _ deadline _)) flushed
  · exact .bind (.pure _) flushed

end

/-! ### Offering -/

def holdEnds : Observation → Bool
  | .admitted _ .enqueuedAfterHold _ | .slotExpired => true
  | _ => false

def spends : Observation → Bool
  | .offered .. | .awaitSlot .. | .sent .. => true
  | _ => false

/-- The log of one offer: it waits for room once, and never longer than the idle
budget without the reserve. -/
inductive Offers (publish : CodecPublish) (idleWait : Nat) : List Observation → Prop
  | quick {ends : List Observation} (free : ∀ observation ∈ ends, spends observation = false) :
      Offers publish idleWait (.offered publish idleWait :: ends)
  | waits {wait : Nat} {unflushed : Option UnflushedReplies} {writeBuffer : Bytes} {ends : List Observation}
      (within : wait ≤ idleWait) (free : ∀ observation ∈ ends, spends observation = false) :
      Offers publish idleWait (.offered publish idleWait :: .timer wait :: .awaitSlot unflushed writeBuffer :: ends)

section
open Segments
variable {channel after : EventChannel sync Publish} {ticket replyBy time wait : Nat} {publish : Publish} {admitting : Admitting}
  {admission : Admission}

theorem polled_after_hold (polled : Polled channel ticket publish replyBy time admitting after)
    (ended : admitting = .done admission) : admission ≠ .enqueued ∧ admission ≠ .dropped := by
  cases polled with
  | late | gone | placed => cases ended; decide
  | closed room => cases dropping : (sync.dropAcquire room ticket).1 <;> rw [dropping] at ended <;> cases ended; decide
  | pending => cases ended

private theorem offered_dropped (offered : Offered channel ticket publish wait replyBy time admitting after)
    (ended : admitting = .done .dropped) : wait = 0 := by
  cases offered with
  | late | gone | placed => cases ended
  | full _ _ short => exact short
  | waits _ _ _ polled => exact absurd rfl (polled_after_hold polled ended).2

private theorem offered_holding (offered : Offered channel ticket publish wait replyBy time admitting after)
    (ended : admitting = .holding) : wait ≠ 0 := by
  cases offered with
  | late | gone | placed | full => cases ended
  | waits _ _ worth => exact worth

private theorem holdEnds_admits {world : World rmqtt sync} {slot : Nat} {log : List Observation} {ledger : Ledger}
    (admits : ChannelUse.Admits channel publish wait (slotWait slot world) log admitting after ledger)
    (ended : admitting = .done admission) (offer : CodecPublish) :
    (log ++ [Observation.admitted offer admission ledger]).any holdEnds =
      decide (admission = .enqueuedAfterHold ∨ admission = .dropped ∧ wait ≠ 0) := by
  cases admits with
  | atOnce offered =>
    have dropped : admission = .dropped → wait = 0 := fun same => offered_dropped offered (ended.trans (congrArg _ same))
    cases admission <;> simp_all [holdEnds]
  | waits => cases ended
  | resumed offered others polled =>
    have queued := (polled_after_hold polled ended).2
    cases admission <;> simp_all [slotWait, holdEnds]
  | @expired _ _ _ _ _ dropping offered =>
    cases dropping with
    | quiet =>
      cases ended
      simp [holdEnds, offered_holding offered rfl]
    | panicked => cases ended

end

variable (publish : CodecPublish) (idleWait : Nat) (before : World rmqtt sync) in
/-- Everything `deliver_publish` can do. A session that goes on owes for a hold
exactly if there was one. -/
inductive Delivers :
    EStateM.Result Stop (World rmqtt sync) IngestStep → Prop
  | goesOn (after : World rmqtt sync) (log : List Observation) (offers : Offers publish idleWait log)
      (kept : Keeps before after log) : Delivers (.ok (.continue (log.any holdEnds)) after)
  | idles (after : World rmqtt sync) (log : List Observation) (offers : Offers publish idleWait log)
      (kept : Keeps before after log) : Delivers (.ok .idleTimeout after)
  | halted (stop : Stop) (after : World rmqtt sync) (log : List Observation) (offers : Offers publish idleWait log)
      (kept : Keeps before after log) : Delivers (.error stop after)

private theorem Offers.of_slot {world : World rmqtt sync} {publish : CodecPublish} {wait idleWait : Nat} {log ends : List Observation}
    (slot : log = [] ∨ log = slotWait wait world ∨ log = slotWait wait world ++ [.slotExpired]) (within : wait ≤ idleWait)
    (free : ∀ observation ∈ ends, spends observation = false) :
    Offers publish idleWait (.offered publish idleWait :: (log ++ ends)) := by
  rcases slot with rfl | rfl | rfl
  · exact .quick free
  · exact .waits within free
  · exact .waits within (List.forall_mem_cons.mpr ⟨rfl, free⟩)

theorem deliverPublish_delivers (publish : CodecPublish) (idleLeft ingestDeadline : Nat) (world : World rmqtt sync) :
    Delivers publish (idleLeft - ingestReplyReserve) world (deliverPublish env publish idleLeft ingestDeadline world) := by
  obtain ⟨log, admitting, channel, ledger, asked, later, admits, ran⟩ :=
    deliverPublish_admits env publish idleLeft ingestDeadline world
  rw [ran]
  have kept (log : List Observation) : Keeps world (world.offered asked channel log) log := ⟨⟨rfl, rfl, later, rfl⟩, rfl⟩
  have offers {ends : List Observation} := @Offers.of_slot _ _ _ publish _ _ _ ends admits.slot (Nat.min_le_right _ _)
  cases admitting with
  | done admission =>
    have whole := offers (List.forall_mem_singleton.mpr (rfl : spends (.admitted publish admission ledger) = false))
    have goes := Delivers.goesOn _ _ whole (kept _)
    rw [show List.any (.offered publish _ :: _) holdEnds = _ from holdEnds_admits admits rfl publish] at goes
    cases admission with
    | noReplyTime => exact .idles _ _ whole (kept _)
    | dropped =>
      dsimp only [ingestStep]
      split
      · exact .idles _ _ whole (kept _)
      · simpa using goes
    | enqueuedAfterHold | enqueued | receiverClosed => simpa [ingestStep] using goes
  | holding | panicked =>
    have halted := offers (List.forall_mem_nil _)
    rw [List.append_nil] at halted
    exact .halted _ _ _ halted (kept _)

/-! ### Reading -/

def Reads (before after : World rmqtt sync) : Prop :=
  ∃ log, Anchored before after log ∧ ∀ observation ∈ log, Modest False observation

instance : IsPreorder (World rmqtt sync) Reads where
  refl world := ⟨[], (Keeps.refl world).toAnchored, List.forall_mem_nil _⟩
  trans _ _ _ one two := by
    obtain ⟨early, first, modest⟩ := one
    obtain ⟨late, second, rest⟩ := two
    exact ⟨early ++ late, first.trans second, List.forall_mem_append.mpr ⟨modest, rest⟩⟩

theorem Writes.reads (before after : World rmqtt sync) (writes : Writes False before after) : Reads before after := by
  obtain ⟨log, kept, modest⟩ := writes
  exact ⟨log, kept.toAnchored, modest⟩

private theorem reads_silently {after : World rmqtt sync} (anchored : Anchored before after []) : Reads before after :=
  ⟨[], anchored, List.forall_mem_nil _⟩

private theorem along_reads : Run.Along Reads (nextPacket env : Session rmqtt sync (Next Item)) :=
  along_nextPacket env (fun _ _ => .mono (along_observe trivial) Writes.reads) (.mono (along_observe trivial) Writes.reads)
    (.mono (along_suspend env) Writes.reads)
    (fun _ _ _ => reads_silently ⟨rfl, rfl, Nat.le_refl _, (List.append_nil _).symm⟩)
    fun _ _ _ => reads_silently ⟨rfl, rfl, Nat.le_refl _, (List.append_nil _).symm⟩

/-! ### The packet loop on one budget

The loop written over `left`, whatever computes the budget, and without an anchor.
The code's loop is this one with `idle_timeout - last_packet_time.elapsed()`,
except that it may move the anchor when it decodes a packet. -/

section
variable (loop : LoopConfig) (left : Session rmqtt sync Nat)

def violationCloseOn (violation : Violation) : Session rmqtt sync (Option SessionOutcome) := do
  let replyDeadline ← left
  if replyDeadline = 0 then idleClose
  else return some (← closeWithViolation env violation replyDeadline loop.maxPacketSize)

def replyOwedOn (owed : Option Reply) : Session rmqtt sync (Option SessionOutcome) := do
  let replyDeadline ← left
  if replyDeadline = 0 then idleClose
  else match owed with
    | none => return none
    | some reply =>
      let version := (← get).version
      match replyOverMaxPacketSize rmqtt reply version loop.maxPacketSize with
      | some violation =>
        observe .gated
        return some (← closeWithViolation env violation replyDeadline loop.maxPacketSize)
      | none =>
        queueReply env (reply.render version) replyDeadline reply.timeoutContext
        return none

def deliverThenOn (publish : CodecPublish) (owed : Option Reply) : Session rmqtt sync (Option SessionOutcome) := do
  match ← deliverPublish env publish (← left) loop.ingestDeadline with
  | .continue held =>
    modify fun world => { world with holdDebt := world.holdDebt || held }
    replyOwedOn env loop left owed
  | .idleTimeout => idleClose

def servePacketOn (packet : MqttPacket) : Session rmqtt sync (Option SessionOutcome) := do
  let (disposition, awaiting) := dispatch packet (← get).awaiting
  modify fun world => { world with awaiting }
  match disposition with
  | .deliver publish => deliverThenOn env loop left publish none
  | .deliverThenReply publish reply => deliverThenOn env loop left publish (some reply)
  | .reply reply => replyOwedOn env loop left (some reply)
  | .close =>
    flushReplies env
    return some .served
  | .violation violation => violationCloseOn env loop left violation

def awaitPacketOn : Session rmqtt sync (Next Item) := do
  let world ← get
  if !holdsCompletePacket world.readBuffer || world.channel.wouldHold then flushReplies env
  observe (.timer (← left))
  nextPacket env

end

def leftUntil (instant : Nat) : Session rmqtt sync Nat := do
  return instant - (← now env)

/-- The anchor is not later than any reading of the clock still to come. -/
def Past (world : World rmqtt sync) : Prop := ∀ moment, world.asked ≤ moment → world.lastPacketTime ≤ (env moment).time

def deadline (loop : LoopConfig) (world : World rmqtt sync) : Nat := world.lastPacketTime + loop.idleTimeout

section
variable {env : Nat → Moment} {loop : LoopConfig} {world : World rmqtt sync}

section
variable (past : Past env world)
include past

theorem Past.after {after : World rmqtt sync} (anchor : after.lastPacketTime = world.lastPacketTime)
    (asked : world.asked ≤ after.asked) : Past env after := by
  intro moment later
  rw [anchor]
  exact past moment (asked.trans later)

omit past in
theorem deadline_after {after : World rmqtt sync} (anchor : after.lastPacketTime = world.lastPacketTime) :
    deadline loop after = deadline loop world := by
  rw [deadline, anchor, deadline]

theorem bind_idleLeft {α : Type} (next : Nat → Session rmqtt sync α) :
    (idleLeft env loop.idleTimeout >>= next) world = (leftUntil env (deadline loop world) >>= next) world := by
  have begun : world.lastPacketTime ≤ (env world.asked).time := past _ (Nat.le_refl _)
  have same : loop.idleTimeout - ((env world.asked).time - world.lastPacketTime) =
      deadline loop world - (env world.asked).time := by
    unfold deadline
    omega
  simp only [Run.bind_apply, idleLeft, leftUntil, now_apply, Run.get_apply, Run.pure_apply]
  exact congrArg (fun budget => next budget world.answered) same

theorem violationClose_on (violation : Violation) :
    violationClose env loop violation world = violationCloseOn env loop (leftUntil env (deadline loop world)) violation world :=
  bind_idleLeft past _

theorem replyOwed_on (owed : Option Reply) :
    replyOwed env loop owed world = replyOwedOn env loop (leftUntil env (deadline loop world)) owed world :=
  bind_idleLeft past _

private theorem deliverThen_on (publish : CodecPublish) (owed : Option Reply) :
    deliverThen env loop publish owed world =
      deliverThenOn env loop (leftUntil env (deadline loop world)) publish owed world := by
  refine (bind_idleLeft past _).trans ?_
  unfold deliverThenOn
  simp only [Run.bind_apply, leftUntil, now_apply, Run.pure_apply]
  have delivers := deliverPublish_delivers env publish (deadline loop world - (env world.asked).time) loop.ingestDeadline
    world.answered
  generalize deliverPublish env publish (deadline loop world - (env world.asked).time) loop.ingestDeadline
    world.answered = result at delivers ⊢
  cases delivers with
  | goesOn after log offers kept =>
    have same : deadline loop after = deadline loop world := deadline_after kept.lastPacketTime
    have later : Past env { after with holdDebt := after.holdDebt || log.any holdEnds } :=
      past.after kept.lastPacketTime ((Nat.le_succ _).trans kept.asked)
    rw [← same]
    exact replyOwed_on later owed
  | idles after log offers kept => rfl
  | halted stop after log offers kept => rfl

theorem servePacketOn_until (packet : MqttPacket) :
    servePacketOn env loop (idleLeft env loop.idleTimeout) packet world =
      servePacketOn env loop (leftUntil env (deadline loop world)) packet world := by
  have later : Past env { world with awaiting := (dispatch packet world.awaiting).2 } := past
  simp only [servePacketOn, Run.bind_apply, Run.get_apply, Run.modify_apply]
  cases (dispatch packet world.awaiting).1 with
  | deliver publish => exact deliverThen_on later publish none
  | deliverThenReply publish reply => exact deliverThen_on later publish (some reply)
  | reply reply => exact replyOwed_on later (some reply)
  | close => rfl
  | violation violation => exact violationClose_on later violation

end

end

/-! ### Where the anchor moves -/

def refreshed (readStartsFresh : Bool) (world : World rmqtt sync) : World rmqtt sync :=
  if !world.holdDebt || readStartsFresh then
    { world.answered with lastPacketTime := (env world.asked).time, holdDebt := false }
  else world

def serveNext (loop : LoopConfig) (readStartsFresh : Bool) : Next Item → Session rmqtt sync (Option SessionOutcome)
  | .done (some (.ok (packet, _))) => servePacket env loop packet readStartsFresh
  | .done (some (.error error)) => serveReadError env loop error
  | .done none => do
    observe (.readEnded none)
    return some .served
  | .timedOut => return some .served

section
variable {env : Nat → Moment} {loop : LoopConfig} {world : World rmqtt sync}

theorem servePacket_apply (packet : MqttPacket) (readStartsFresh : Bool) :
    servePacket env loop packet readStartsFresh world =
      servePacketOn env loop (idleLeft env loop.idleTimeout) packet
        (refreshed env readStartsFresh (world.log [.decoded packet])) := by
  unfold servePacket refreshed
  simp only [Run.bind_apply, observe_apply, Run.get_apply]
  split <;> rfl

theorem turn_apply : turn env loop world = match awaitPacketOn env (idleLeft env loop.idleTimeout) world with
    | .ok next fetched => serveNext env loop world.readBuffer.isEmpty next fetched
    | .error stop after => .error stop after := by
  have flushes := @along_flushReplies rmqtt sync env False world
  simp only [turn, awaitPacketOn, Run.bind_apply, Run.get_apply]
  split
  · simp only [Run.bind_apply]
    cases flushed : flushReplies env world with
    | ok _ after =>
      rw [flushed] at flushes
      obtain ⟨log, kept, -⟩ := flushes
      simp only [idleLeft, Run.bind_apply, Run.get_apply, now_apply, Run.pure_apply, observe_apply, kept.readBuffer]
      rcases nextPacket env _ with ⟨(_ | (error | ⟨packet, _⟩)) | _, fetched⟩ | ⟨stop, fetched⟩ <;> rfl
    | error stop after => rfl
  · simp only [idleLeft, Run.bind_apply, Run.get_apply, now_apply, Run.pure_apply, observe_apply]
    rcases nextPacket env _ with ⟨(_ | (error | ⟨packet, _⟩)) | _, fetched⟩ | ⟨stop, fetched⟩ <;> rfl

theorem along_awaitPacketOn {left : Session rmqtt sync Nat} (reads : Run.Along Reads left) :
    Run.Along Reads (awaitPacketOn env left) := by
  have rest : Run.Along Reads (do
      observe (.timer (← left))
      nextPacket env : Session rmqtt sync (Next Item)) :=
    .bind reads fun _ => .bind (.mono (along_observe trivial) Writes.reads) fun _ => along_reads env
  refine .bind .get fun world => ?_
  split
  · exact .bind (.mono (along_flushReplies env) Writes.reads) fun _ => rest
  · exact rest

theorem along_idleLeft (idleTimeout : Nat) : Run.Along Reads (idleLeft env idleTimeout : Session rmqtt sync Nat) :=
  .bind (.mono (along_now env) Writes.reads) fun _ => .bind .get fun _ => .pure _

theorem awaitPacketOn_reads {left : Session rmqtt sync Nat} (reads : Run.Along Reads left) {next : Next Item}
    {fetched : World rmqtt sync} (awaited : awaitPacketOn env left world = .ok next fetched) : Reads world fetched := by
  have ended := @along_awaitPacketOn _ _ env _ reads world
  rw [awaited] at ended
  exact ended

theorem awaitPacketOn_until (past : Past env world) :
    awaitPacketOn env (idleLeft env loop.idleTimeout) world = awaitPacketOn env (leftUntil env (deadline loop world)) world := by
  have flushes := @along_flushReplies rmqtt sync env False world
  let reading (remaining : Nat) : Session rmqtt sync (Next Item) := do
    observe (.timer remaining)
    nextPacket env
  simp only [awaitPacketOn, Run.bind_apply, Run.get_apply]
  split
  · simp only [Run.bind_apply]
    cases flushed : flushReplies env world with
    | ok _ after =>
      rw [flushed] at flushes
      obtain ⟨log, kept, -⟩ := flushes
      have same : deadline loop after = deadline loop world := deadline_after kept.lastPacketTime
      have later := past.after kept.lastPacketTime kept.asked
      have swapped : (idleLeft env loop.idleTimeout >>= reading) after =
          (leftUntil env (deadline loop after) >>= reading) after := bind_idleLeft later reading
      rw [same] at swapped
      exact swapped
    | error stop after => rfl
  · exact bind_idleLeft past reading

end

end UringMqtt.Proofs.IdleAnchor

import UringMqtt.Proofs.FlushDeadline

/-! The packet loop never sends into a write buffer that is at the backpressure boundary, so
the codec never writes inside `send`. Of the loop's account this reads the sends and what
the flushes put on the socket; a buffer that is not empty has a flush recorded. -/

namespace UringMqtt.Proofs.SendBoundary
open Lib SessionSteps FlushLedger FlushDeadline

variable {rmqtt : Rmqtt} {sync : LocalSync} (env : Nat → Moment) (loop : LoopConfig)

/-! ### The invariant -/

def Recorded (world : World rmqtt sync) : Prop := world.unflushed = none → world.writeBuffer = []

/-- Every send found room below the boundary, and what was written since `base` was written
by `flush_replies`. -/
structure Bounded (base : Bytes) (state : World rmqtt sync × Account) : Prop where
  below : ∀ sending ∈ state.2.sends, sending.buffered < writeBackpressureBoundary
  capped : state.1.writeBuffer = [] ∨
    ∃ sending ∈ state.2.sends, state.1.writeBuffer.length < writeBackpressureBoundary + sending.size
  through : state.1.written = base ++ state.2.flushed

section
variable {env loop} {world after : World rmqtt sync} {account : Account} {base : Bytes}

structure Drained (before after : World rmqtt sync) : Prop where
  shorter : after.writeBuffer.length ≤ before.writeBuffer.length
  grown : before.written <+: after.written

private theorem Bounded.flushed (bounded : Bounded base (world, account)) (drained : Drained world after) :
    Bounded base (after, account.wrote (after.written.drop world.written.length)) := by
  refine ⟨bounded.below, ?_, ?_⟩
  · rcases bounded.capped with empty | ⟨sending, member, fits⟩
    · have none_left := drained.shorter
      rw [empty] at none_left
      exact .inl (List.eq_nil_of_length_eq_zero (Nat.le_zero.mp none_left))
    · exact .inr ⟨sending, member, Nat.lt_of_le_of_lt drained.shorter fits⟩
  · obtain ⟨wrote, same⟩ := drained.grown
    dsimp only [Account.wrote]
    rw [← same, List.drop_left, ← List.append_assoc, ← bounded.through]

theorem Recorded.same (recorded : Recorded world) (buffer : after.writeBuffer = world.writeBuffer)
    (unflushed : after.unflushed = world.unflushed) : Recorded after := by
  intro idle
  rw [buffer]
  exact recorded (unflushed ▸ idle)

theorem Bounded.same (bounded : Bounded base (world, account)) (buffer : after.writeBuffer = world.writeBuffer)
    (written : after.written = world.written) : Bounded base (after, account) :=
  ⟨bounded.below, buffer ▸ bounded.capped, written.trans bounded.through⟩

private theorem flush_drained (world : World rmqtt sync) :
    Run.Ensures (flush env) world
      (fun flushed after => Drained world after ∧ (flushed = .done (.ok ()) → after.writeBuffer = []))
      fun _ after => Drained world after := by
  have drained (count : Nat) (observed : List Observation) :
      Drained world (((world.suspended env).took count).log observed) := by
    refine ⟨?_, List.prefix_append _ _⟩
    exact List.length_drop.trans_le (Nat.sub_le _ _)
  constructor
  rw [flush_apply]
  cases (env world.asked).writing with
  | done => exact ⟨drained _ _, fun _ => List.drop_length⟩
  | failed kind taken => exact ⟨drained taken _, nofun⟩
  | expired taken => exact ⟨drained taken _, nofun⟩
  | never taken => exact ⟨(drained taken []).shorter, (drained taken []).grown⟩

theorem flushReplies_bounded (bounded : Bounded base (world, account)) :
    Run.Ensures (flushRepliesNoted env) (world, account)
      (fun _ after => (Recorded world → after.1.writeBuffer = []) ∧ Bounded base after) fun _ => Bounded base := by
  refine Ghost.ensures_look ?_
  cases due : world.unflushed with
  | none => exact .pure ⟨fun recorded => recorded due, bounded⟩
  | some queued =>
    refine Ghost.ensures_step rfl (Ghost.ensures_step rfl ?_)
    dsimp only
    split
    · exact Ghost.ensures_lift ⟨bounded.same rfl rfl⟩
    · refine Ghost.ensures_step rfl (Ghost.ensures_note ?_)
      let begun := (World.answered { world with unflushed := none }).log [.timer (queued.flushBy - (env world.asked).time)]
      have started : Bounded base (begun, account.starts (env world.asked).time) :=
        ⟨bounded.below, bounded.capped, bounded.through⟩
      refine Ghost.ensures_noting_bind ((flush_drained begun).weaken (fun _ _ => id) fun _ _ => started.flushed)
        fun flushed after ⟨drained, emptied⟩ => ?_
      have ended := started.flushed drained
      rcases flushed with (error | _) | _
      · exact Ghost.ensures_lift (.throw ended)
      · exact ⟨fun _ => emptied rfl, ended.below, ended.capped, ended.through⟩
      · exact Ghost.ensures_lift (.throw ended)

/-! ### Sending below the boundary -/

theorem Bounded.sent (bounded : Bounded base (world, account)) (below : world.writeBuffer.length < writeBackpressureBoundary)
    (packet : MqttPacket) (fits : after.writeBuffer.length ≤ world.writeBuffer.length + (Outbox.encoding rmqtt world.version packet).length)
    (written : after.written = world.written) : Bounded base (after, account.sending (sendingOf packet world)) := by
  refine ⟨?_, .inr ⟨_, List.mem_append_right _ List.mem_cons_self, ?_⟩, written.trans bounded.through⟩
  · intro sending member
    rcases List.mem_append.mp member with earlier | last
    · exact bounded.below sending earlier
    · rw [List.mem_singleton.mp last]
      exact below
  · exact fits.trans_lt (Nat.add_lt_add_right below _)

private theorem encodeReply_bounded (below : world.writeBuffer.length < writeBackpressureBoundary)
    (bounded : Bounded base (world, account)) (packet : MqttPacket) (flushBy : Nat) (timeoutContext : TimeoutContext) :
    Run.Ensures (encodeReplyNoted env loop packet flushBy timeoutContext) (world, account)
      (fun _ after => Recorded after.1 ∧ Bounded base after) fun _ => Bounded base := by
  refine Ghost.ensures_step (ask_apply env world) (Ghost.ensures_step (observe_apply _ _) ?_)
  split
  · exact Ghost.ensures_lift ⟨bounded.same rfl rfl⟩
  · let begun := world.answered.log [.timer (flushBy - (env world.asked).time)]
    have room : begun.writeBuffer.length < writeBackpressureBoundary := below
    have bounded : Bounded base (begun, account) := bounded.same rfl rfl
    refine sendNoted_below packet room fun sent after ended => ?_
    rcases sent with (error | _) | _
    · exact Ghost.ensures_lift ⟨bounded.sent room packet (ended.2 ▸ Nat.le_add_right _ _) ended.1⟩
    · obtain ⟨bytes, encoded, rfl⟩ := ended
      have size : Outbox.encoding rmqtt world.version packet = bytes := congrArg (Option.getD · []) encoded
      have fits : (world.writeBuffer ++ bytes).length ≤ world.writeBuffer.length + (Outbox.encoding rmqtt world.version packet).length :=
        size ▸ List.length_append.le
      have sent : Bounded base ((begun.log [.sent begun.version packet]).appended bytes, _) := bounded.sent room packet fits rfl
      refine Ghost.ensures_note (Ghost.ensures_lift ⟨?_, sent.below, sent.capped, sent.through⟩)
      exact fun idle => by cases idle
    · exact Ghost.ensures_lift ⟨bounded.sent room packet (ended.2 ▸ Nat.le_add_right _ _) ended.1⟩

theorem queueReply_bounded (recorded : Recorded world) (bounded : Bounded base (world, account)) (packet : MqttPacket)
    (budget : Nat) (timeoutContext : TimeoutContext) :
    Run.Ensures (queueReplyNoted env loop packet budget timeoutContext) (world, account)
      (fun _ after => Recorded after.1 ∧ Bounded base after) fun _ => Bounded base := by
  refine Ghost.ensures_step rfl (Ghost.ensures_look ?_)
  split
  · have ready : Recorded world.answered := recorded.same rfl rfl
    have begun : Bounded base (world.answered, account) := bounded.same rfl rfl
    refine .bind (flushReplies_bounded begun) fun _ after ⟨drains, bounded⟩ => ?_
    have room : after.1.writeBuffer.length < writeBackpressureBoundary := by
      rw [drains ready]
      decide
    exact encodeReply_bounded room bounded packet _ _
  next below => exact encodeReply_bounded (Nat.lt_of_not_le below) (bounded.same rfl rfl) packet _ _

/-! ### Whole runs -/

private theorem closeWithViolation_bounded (recorded : Recorded world) (bounded : Bounded base (world, account))
    (violation : Violation) (deadline : Nat) :
    Run.Ensures (closeWithViolationNoted env loop violation deadline) (world, account) (fun _ => Bounded base)
      fun _ => Bounded base := by
  have flushes (state : World rmqtt sync × Account) (bounded : Bounded base state) :
      Run.Ensures (do let _ ← attemptNoted (flushRepliesNoted env); pure SessionOutcome.violation : Annotated rmqtt sync _)
        state (fun _ => Bounded base) fun _ => Bounded base := by
    have flushed := (@flushReplies_bounded _ _ env _ _ base bounded).weaken (fun _ _ kept => kept.2) fun _ _ => id
    exact .bind (attempt_ensures flushed) fun _ _ bounded => .pure bounded
  have begun : Bounded base (world.log [.violated violation], account) := bounded.same rfl rfl
  have ready : Recorded (world.log [.violated violation]) := recorded.same rfl rfl
  refine Ghost.ensures_step rfl (Ghost.ensures_look ?_)
  cases violation.disconnect rmqtt _ loop.maxPacketSize with
  | none => exact ⟨(flushes _ begun).ran⟩
  | some packet =>
    have queued := (@queueReply_bounded _ _ env loop _ _ base ready begun packet deadline .disconnectFlush).weaken
      (fun _ _ kept => kept.2) fun _ _ => id
    exact .bind (attempt_ensures queued) fun _ => flushes

/-- What a turn leaves behind: it goes on only with every reply recorded. -/
def TurnBounded (base : Bytes) (outcome : Option SessionOutcome) (state : World rmqtt sync × Account) : Prop :=
  (outcome = none → Recorded state.1) ∧ Bounded base state

theorem TurnBounded.ended {state : World rmqtt sync × Account} (bounded : Bounded base state) (outcome : SessionOutcome) :
    TurnBounded base (some outcome) state :=
  ⟨(fun goes => by cases goes), bounded⟩

theorem closed_bounded (recorded : Recorded world) (bounded : Bounded base (world, account)) (violation : Violation) (deadline : Nat) :
    Run.Ensures (do return some (← closeWithViolationNoted env loop violation deadline) : Annotated rmqtt sync _)
      (world, account) (TurnBounded base) fun _ => Bounded base :=
  .bind (closeWithViolation_bounded recorded bounded violation deadline) fun _ _ bounded =>
    .pure (.ended bounded _)

theorem idleClose_bounded (bounded : Bounded base (world, account)) :
    Run.Ensures (Ghost.lift idleClose) (world, account) (TurnBounded base) fun _ => Bounded base := by
  have still : Bounded base (world.log [.idleClosed], account) := bounded.same rfl rfl
  have ended : TurnBounded base (some .served) (world.log [.idleClosed], account) := .ended still .served
  exact Ghost.ensures_lift ⟨ended⟩

private theorem replyOwed_bounded (recorded : Recorded world) (bounded : Bounded base (world, account)) (owed : Option Reply) :
    Run.Ensures (replyOwedNoted env loop owed) (world, account) (TurnBounded base) fun _ => Bounded base := by
  have ready : Recorded world.answered := recorded.same rfl rfl
  have begun : Bounded base (world.answered, account) := bounded.same rfl rfl
  refine Ghost.ensures_step rfl ?_
  split
  · exact idleClose_bounded begun
  · cases owed with
    | none => exact .pure ⟨fun _ => ready, begun⟩
    | some reply =>
      refine Ghost.ensures_look ?_
      dsimp only
      cases replyOverMaxPacketSize rmqtt reply _ loop.maxPacketSize with
      | some violation =>
        have gated : Recorded (world.answered.log [.gated]) := recorded.same rfl rfl
        exact Ghost.ensures_step rfl (closed_bounded gated (begun.same rfl rfl) violation _)
      | none =>
        refine .bind (queueReply_bounded ready begun _ _ _) fun _ _ kept => ?_
        exact .pure ⟨fun _ => kept.1, kept.2⟩

private theorem answer_bounded (recorded : Recorded world) (bounded : Bounded base (world, account)) (due : Due) :
    Run.Ensures (answerNoted env loop due) (world, account) (TurnBounded base) fun _ => Bounded base := by
  cases due with
  | reply owed => exact replyOwed_bounded recorded bounded owed
  | violation violation =>
    have ready : Recorded world.answered := recorded.same rfl rfl
    have begun : Bounded base (world.answered, account) := bounded.same rfl rfl
    refine Ghost.ensures_step rfl ?_
    split
    · exact idleClose_bounded begun
    · exact closed_bounded ready begun violation _
  | close =>
    refine .bind (flushReplies_bounded bounded) fun _ _ kept => ?_
    exact .pure (.ended kept.2 _)
  | finish outcome => exact .pure (.ended bounded outcome)

private theorem turn_bounded (recorded : Recorded world) (bounded : Bounded base (world, account)) :
    Run.Ensures (turnNoted env loop) (world, account) (TurnBounded base) fun _ => Bounded base := by
  have flushed : Run.Ensures (headFlushNoted env) (world, account) (fun _ after => Recorded after.1 ∧ Bounded base after)
      fun _ => Bounded base := by
    refine Ghost.ensures_look ?_
    split
    · refine (flushReplies_bounded bounded).weaken (fun _ _ kept => ?_) fun _ _ => id
      exact ⟨fun _ => kept.1 recorded, kept.2⟩
    · exact .pure ⟨recorded, bounded⟩
  refine .bind flushed fun _ ⟨ready, account⟩ ⟨recorded, bounded⟩ => ?_
  have met := (Run.Ensures.along (met_meet env loop) : Run.Ensures _ ready _ _)
  refine Ghost.ensures_lift_bind
    (met.weaken (fun _ _ => id) fun _ _ same => bounded.same same.writeBuffer same.written) fun due after same => ?_
  exact answer_bounded (recorded.same same.writeBuffer same.unflushed) (bounded.same same.writeBuffer same.written) due

/-- Run: however the loop ends or is suspended, every send found room below the boundary. -/
private theorem runPacketLoop_bounded (turns : Nat) (recorded : Recorded world) (bounded : Bounded base (world, account)) :
    Run.Ensures (runPacketLoopNoted env loop turns) (world, account) (fun _ => Bounded base)
      fun _ => Bounded base := by
  induction turns generalizing world account with
  | zero => exact .throw bounded
  | succ turns again =>
    refine .bind (turn_bounded recorded bounded) fun outcome after ⟨goes, bounded⟩ => ?_
    cases outcome with
    | some outcome => exact .pure bounded
    | none => exact again (goes rfl) bounded

end

/-- Run beside its account, `run_packet_loop` makes each of them below the
boundary, and whatever it puts on the socket it puts there in `flush_replies`; the write
buffer stays below the boundary and one reply more. Every accepted client enters the loop
so. -/
theorem sends_below_boundary (turns : Nat) :
    (∀ start : World rmqtt sync, start.writeBuffer = [] → start.unflushed = none →
      Ghost.forget (runPacketLoopNoted env loop turns (start, {})) = runPacketLoop env loop turns start ∧
      Run.Ensures (runPacketLoopNoted env loop turns) (start, {}) (fun _ last => Bounded start.written last)
        fun _ last => Bounded start.written last) ∧
    ∀ config handshakeStart connectReceivedAt connack clientId keepAlive idleTimeout maxPacketSize,
    ∀ world : World rmqtt sync,
      let decision := ConnectDecision.accept connack clientId keepAlive idleTimeout maxPacketSize
      let connacks := do boundedSend env connack (← remaining env config handshakeStart)
      (∃ start, start.writeBuffer = [] ∧ start.unflushed = none ∧
        serveDecision env config turns handshakeStart connectReceivedAt decision world =
          runPacketLoop env ⟨idleTimeout, maxPacketSize, config.ingestDeadline⟩ turns start) ∨
      ∃ stop after, connacks world = .error stop after ∧
        serveDecision env config turns handshakeStart connectReceivedAt decision world = .error stop after := by
  refine ⟨fun start empty idle => ⟨(runPacketLoop_erased env loop turns).same start {}, ?_⟩, ?_⟩
  · have bounded : Bounded start.written (start, {}) := ⟨List.forall_mem_nil _, .inl empty, (List.append_nil _).symm⟩
    exact runPacketLoop_bounded turns (fun _ => empty) bounded
  · intro config handshakeStart connectReceivedAt connack clientId keepAlive idleTimeout maxPacketSize world
    refine (serveDecision_drained env config turns handshakeStart connectReceivedAt connack clientId keepAlive idleTimeout
      maxPacketSize world).imp ?_ id
    rintro ⟨start, ⟨drained, unflushed, _⟩, same⟩
    exact ⟨start, drained, unflushed, same⟩

/-! ### A write buffer that fills up -/

open Fixtures (codec pingreq)

def pong : Bytes := [0xD0, 0x00]

def pingDue : UnflushedReplies := ⟨1000, Reply.pingResponse.timeoutContext⟩

def pinging (asked : Nat) (readBuffer writeBuffer written : Bytes) (trace : List Observation) : World codec .fifo :=
  { World.accepted codec (.new .fifo Publish 0) [] with
    asked, readBuffer, writeBuffer, written, trace, unflushed := if writeBuffer.isEmpty then none else some pingDue }

variable {asked : Nat} {rest out written : Bytes} {trace : List Observation}

private theorem ping_decoded (rest : Bytes) : (MqttDecoder.new codec .mqtt3 .default).decode (pingreq ++ rest) =
    (.ok (some (.v3 .pingRequest, 0)), .new codec .mqtt3 .default, rest) := by
  have empty : fixedHeader (pingreq ++ rest) = some (2, 0) := rfl
  have minimal : rejectsMalformedFixedHeader (pingreq ++ rest) = false := by
    simp [rejectsMalformedFixedHeader, empty, show varintLen 0 = 1 by decide +kernel]
  have small : MaxInboundPacketSize.default.rejectsFixedHeader (pingreq ++ rest) = false := rfl
  have known : Fixtures.decodePacket .mqtt3 0xC0 [] = .ok (.v3 .pingRequest) := by decide +kernel
  have read : Varint.read maxVarintBytes (0x00 :: rest) = .number 1 0 := rfl
  simp [MqttDecoder.decode, MqttDecoder.new, small, minimal]
  simp [codec, Rmqtt.plain, Rmqtt.plainDecode, Rmqtt.plainBody, pingreq, read, known]

private theorem meet_ping : ∃ later seen, meet prompt ⟨1000, none, 100⟩ (pinging asked (pingreq ++ rest) out written trace) =
    .ok (.reply (some .pingResponse)) (pinging later rest out written seen) := by
  refine ⟨asked + 2, trace ++ [.timer 1000] ++ [.decoded (.v3 .pingRequest)], ?_⟩
  let begun := pinging (asked + 1) (pingreq ++ rest) out written (trace ++ [.timer 1000])
  have decoded : decodePacket begun = .ok (.ok (some (.v3 .pingRequest, 0)))
      (pinging (asked + 1) rest out written (trace ++ [.timer 1000])) := by
    rw [decodePacket_apply, show begun.decoder.decode begun.readBuffer = _ from ping_decoded rest]
    rfl
  have fetched : nextPacket prompt begun = .ok (.done (some (.ok (.v3 .pingRequest, 0))))
      (pinging (asked + 1) rest out written (trace ++ [.timer 1000])) := by
    change next prompt decodePacket decodePacketEof 1 begun = _
    rw [next, Run.bind_apply, decoded]
    rfl
  change (nextPacket prompt >>= meetNext prompt ⟨1000, none, 100⟩ _) begun = _
  rw [Run.bind_apply, fetched]
  rfl

private theorem encode_pong (below : out.length < writeBackpressureBoundary) :
    ∃ later seen, encodeReply prompt (.v3 .pingResponse) pingDue.flushBy pingDue.timeoutContext
      (pinging asked rest out written trace) = .ok () (pinging later rest (out ++ pong) written seen) := by
  have encoded : codec.encode .mqtt3 (.v3 .pingResponse) = some pong := by decide +kernel
  let begun := pinging (asked + 1) rest out written (trace ++ [.timer 1000])
  refine ⟨asked + 1, trace ++ [.timer 1000] ++ [.sent .mqtt3 (.v3 .pingResponse)], ?_⟩
  change (send prompt (.v3 .pingResponse) >>= _) begun = _
  rw [Run.bind_apply, send_apply prompt _ (show begun.writeBuffer.length < _ from below), encode_apply,
    show codec.encode begun.version (.v3 .pingResponse) = _ from encoded]
  cases out <;> rfl

/-- A buffer at the boundary is flushed before the reply is queued. -/
private theorem turn_ping : ∃ later seen, turn prompt ⟨1000, none, 100⟩ (pinging asked (pingreq ++ rest) out written trace) =
    .ok none (if writeBackpressureBoundary ≤ out.length then pinging later rest pong (written ++ out) seen
      else pinging later rest (out ++ pong) written seen) := by
  obtain ⟨read, met, meets⟩ := @meet_ping asked rest out written trace
  have turned : turn prompt ⟨1000, none, 100⟩ (pinging asked (pingreq ++ rest) out written trace) =
      (queueReply prompt (.v3 .pingResponse) 1000 pingDue.timeoutContext >>= fun _ => pure none)
        (pinging (read + 1) rest out written met) := by
    rw [turn_parts]
    change (meet prompt ⟨1000, none, 100⟩ >>= answer prompt ⟨1000, none, 100⟩) (pinging asked (pingreq ++ rest) out written trace) = _
    rw [Run.bind_apply, meets]
    rfl
  let ready := pinging (read + 2) rest out written met
  by_cases full : writeBackpressureBoundary ≤ out.length
  · have flushed : flushReplies prompt ready =
        .ok () (pinging (read + 4) rest [] (written ++ out) (met ++ [.timer 1000, .wrote out, .flushed])) := by
      cases out with
      | nil => exact absurd full (by decide)
      | cons byte bytes =>
        simp [ready, flushReplies_apply, pinging, World.answered, World.log, flush_apply, prompt, World.suspended, World.took, pingDue]
    obtain ⟨later, seen, encoded⟩ := @encode_pong (read + 4) rest [] (written ++ out) (met ++ [.timer 1000, .wrote out, .flushed])
      (by decide)
    have queued : queueReply prompt (.v3 .pingResponse) 1000 pingDue.timeoutContext (pinging (read + 1) rest out written met) =
        .ok () (pinging later rest pong (written ++ out) seen) := by
      refine (congrFun (if_pos full) ready).trans ?_
      rw [Run.bind_apply, flushed]
      exact encoded
    refine ⟨later, seen, turned.trans ?_⟩
    rw [if_pos full, Run.bind_apply, queued]
    rfl
  · obtain ⟨later, seen, encoded⟩ := @encode_pong (read + 2) rest out written met (Nat.lt_of_not_le full)
    have queued : queueReply prompt (.v3 .pingResponse) 1000 pingDue.timeoutContext (pinging (read + 1) rest out written met) =
        .ok () (pinging later rest (out ++ pong) written seen) := (congrFun (if_neg full) ready).trans encoded
    refine ⟨later, seen, turned.trans ?_⟩
    rw [if_neg full, Run.bind_apply, queued]
    rfl

private theorem pings_answered (count : Nat) (room : out.length + 2 * count ≤ writeBackpressureBoundary) :
    ∃ later seen, ∀ turns, runPacketLoop prompt ⟨1000, none, 100⟩ (count + turns)
        (pinging asked ((List.replicate count pingreq).flatten ++ rest) out written trace) =
      runPacketLoop prompt ⟨1000, none, 100⟩ turns
        (pinging later rest (out ++ (List.replicate count pong).flatten) written seen) := by
  induction count generalizing asked out trace with
  | zero => exact ⟨asked, trace, fun turns => by simp⟩
  | succ count again =>
    obtain ⟨read, met, turned⟩ := @turn_ping asked ((List.replicate count pingreq).flatten ++ rest) out written trace
    obtain ⟨later, seen, more⟩ := @again read (out ++ pong) met (by simp [pong]; omega)
    refine ⟨later, seen, fun turns => ?_⟩
    rw [if_neg (by omega)] at turned
    rw [show count + 1 + turns = count + turns + 1 by omega, runPacketLoop, Run.bind_apply, List.replicate_succ,
      List.replicate_succ, List.flatten_cons, List.flatten_cons, List.append_assoc, turned, ← List.append_assoc]
    exact more turns

/-- A read of 4097 pings: the answers to all but the last fill the buffer to the boundary, and
the last is answered behind a flush. -/
theorem sends_below_boundary_filled :
    ∃ (count : Nat) (start : World codec .fifo), start.writeBuffer = [] ∧ start.unflushed = none ∧
      Run.Ensures (runPacketLoopNoted prompt ⟨1000, none, 100⟩ (count + 1)) (start, {}) (fun _ last => Bounded [] last)
        (fun _ last => Bounded [] last) ∧
      (worldOf (runPacketLoop prompt ⟨1000, none, 100⟩ count start)).writeBuffer.length = writeBackpressureBoundary ∧
      (worldOf (runPacketLoop prompt ⟨1000, none, 100⟩ (count + 1) start)).written.length = writeBackpressureBoundary ∧
      (worldOf (runPacketLoop prompt ⟨1000, none, 100⟩ (count + 1) start)).writeBuffer = pong := by
  obtain ⟨count, full⟩ : ∃ count, 2 * count = writeBackpressureBoundary := ⟨4096, rfl⟩
  let start := pinging 0 ((List.replicate count pingreq).flatten ++ (pingreq ++ [])) [] [] []
  obtain ⟨later, seen, filled⟩ := @pings_answered 0 (pingreq ++ []) [] [] [] count ((Nat.zero_add _).trans full).le
  have size : (List.replicate count pong).flatten.length = writeBackpressureBoundary := by
    simp [pong, Nat.mul_comm count, full]
  obtain ⟨last, ended, flushed⟩ := @turn_ping later [] (List.replicate count pong).flatten [] seen
  rw [if_pos size.ge] at flushed
  refine ⟨count, start, rfl, rfl, ((sends_below_boundary prompt ⟨1000, none, 100⟩ (count + 1)).1 start rfl rfl).2, ?_, ?_⟩
  · rw [show runPacketLoop prompt ⟨1000, none, 100⟩ count start = _ from filled 0]
    exact size
  · rw [filled 1, List.nil_append, runPacketLoop, Run.bind_apply, flushed]
    exact ⟨size, rfl⟩

end UringMqtt.Proofs.SendBoundary

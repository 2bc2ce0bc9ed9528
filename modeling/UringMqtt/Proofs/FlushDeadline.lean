import UringMqtt.Codec.Fixtures
import UringMqtt.Proofs.FlushLedger

/-! Every flush is started in time. While the packet loop goes on, the replies in the
write buffer are in the order of their deadlines, and the flush that is due is due at
the first of them. -/

namespace UringMqtt.Proofs.FlushDeadline
open Lib SessionSteps IdleAnchor FlushLedger

variable {rmqtt : Rmqtt} {sync : LocalSync} (env : Nat → Moment) (loop : LoopConfig)

/-! ### Reading and delivering -/

/-- A stretch of a session that neither queues nor writes. -/
structure Unwritten (before after : World rmqtt sync) : Prop where
  writeBuffer : after.writeBuffer = before.writeBuffer
  written : after.written = before.written
  unflushed : after.unflushed = before.unflushed
  asked : before.asked ≤ after.asked

theorem Unwritten.trans {first second third : World rmqtt sync} (one : Unwritten first second) (two : Unwritten second third) :
    Unwritten first third :=
  ⟨two.writeBuffer.trans one.writeBuffer, two.written.trans one.written, two.unflushed.trans one.unflushed, one.asked.trans two.asked⟩

/-- A stretch that leaves the anchor alone, too. -/
structure Still (before after : World rmqtt sync) : Prop extends Unwritten before after where
  lastPacketTime : after.lastPacketTime = before.lastPacketTime

instance : IsPreorder (World rmqtt sync) Still where
  refl _ := ⟨⟨rfl, rfl, rfl, Nat.le_refl _⟩, rfl⟩
  trans _ _ _ one two := ⟨one.toUnwritten.trans two.toUnwritten, two.lastPacketTime.trans one.lastPacketTime⟩

theorem still_observe (observation : Observation) :
    Run.Along Still (observe observation : Session rmqtt sync Unit) :=
  fun _ => ⟨⟨rfl, rfl, rfl, Nat.le_refl _⟩, rfl⟩

private theorem still_now : Run.Along Still (now env : Session rmqtt sync Nat) :=
  fun _ => ⟨⟨rfl, rfl, rfl, Nat.le_succ _⟩, rfl⟩

private theorem still_suspend : Run.Along Still (suspend env : Session rmqtt sync Moment) :=
  fun _ => ⟨⟨rfl, rfl, rfl, Nat.le_succ _⟩, rfl⟩

theorem still_idleLeft (idleTimeout : Nat) : Run.Along Still (idleLeft env idleTimeout : Session rmqtt sync Nat) :=
  .bind (still_now env) fun _ => .bind .get fun _ => .pure _

private theorem still_nextPacket : Run.Along Still (nextPacket env : Session rmqtt sync (Next Item)) :=
  along_nextPacket env (fun _ _ => still_observe _) (still_observe _) (still_suspend env)
    (fun _ _ _ => ⟨⟨rfl, rfl, rfl, Nat.le_refl _⟩, rfl⟩) fun _ _ _ => ⟨⟨rfl, rfl, rfl, Nat.le_refl _⟩, rfl⟩

private theorem still_deliverPublish (publish : CodecPublish) (idleLeft ingestDeadline : Nat) :
    Run.Along Still (deliverPublish env publish idleLeft ingestDeadline : Session rmqtt sync IngestStep) := by
  intro world
  obtain ⟨log, admitting, channel, ledger, asked, later, -, ran⟩ := deliverPublish_admits env publish idleLeft ingestDeadline world
  rw [ran]
  cases admitting <;> exact ⟨⟨rfl, rfl, rfl, later⟩, rfl⟩

variable {α : Type}

/-- What a turn does from its read to its answer: nothing but the anchor moves, and that to
an instant the turn has read. -/
structure Met (before after : World rmqtt sync) : Prop extends Unwritten before after where
  anchor : after.lastPacketTime = before.lastPacketTime ∨
    ∃ moment, before.asked ≤ moment ∧ moment < after.asked ∧ after.lastPacketTime = (env moment).time

instance : IsPreorder (World rmqtt sync) (Met env) where
  refl _ := ⟨⟨rfl, rfl, rfl, Nat.le_refl _⟩, .inl rfl⟩
  trans _ _ _ one two := by
    refine ⟨one.toUnwritten.trans two.toUnwritten, ?_⟩
    rcases two.anchor with same | ⟨moment, from_middle, before, anchored⟩
    · rw [same]
      exact one.anchor.imp id fun ⟨moment, later, before, anchored⟩ => ⟨moment, later, before.trans_le two.asked, anchored⟩
    · exact .inr ⟨moment, one.asked.trans from_middle, before, anchored⟩

theorem met_of_still {program : Session rmqtt sync α} (still : Run.Along Still program) : Run.Along (Met env) program :=
  still.mono fun _ _ same => ⟨same.toUnwritten, .inl same.lastPacketTime⟩

private theorem met_meetDelivery (publish : CodecPublish) (owed : Option Reply) :
    Run.Along (Met env) (meetDelivery env loop publish owed : Session rmqtt sync Due) := by
  refine met_of_still env (.bind (still_idleLeft env _) fun left => .bind (still_deliverPublish env _ _ _) fun step => ?_)
  cases step with
  | «continue» held => exact .bind (.update fun _ => ⟨⟨rfl, rfl, rfl, Nat.le_refl _⟩, rfl⟩) fun _ => .pure _
  | idleTimeout => exact .bind (still_observe _) fun _ => .pure _

private theorem met_meetDisposition (disposition : Disposition) :
    Run.Along (Met env) (meetDisposition env loop disposition : Session rmqtt sync Due) := by
  cases disposition with
  | deliver publish => exact met_meetDelivery env loop publish none
  | deliverThenReply publish reply => exact met_meetDelivery env loop publish (some reply)
  | reply | close | violation => exact .pure _

private theorem met_meetDispatch (packet : MqttPacket) :
    Run.Along (Met env) (meetDispatch env loop packet : Session rmqtt sync Due) :=
  .bind .get fun _ => .bind (.update fun _ => ⟨⟨rfl, rfl, rfl, Nat.le_refl _⟩, .inl rfl⟩) fun _ => met_meetDisposition env loop _

private theorem met_meetPacket (packet : MqttPacket) (readStartsFresh : Bool) :
    Run.Along (Met env) (meetPacket env loop packet readStartsFresh : Session rmqtt sync Due) := by
  refine .bind (met_of_still env (still_observe _)) fun _ => .bind .get fun world => ?_
  split
  · refine Run.Ensures.to_along fun world => ?_
    have moved : Met env world { world.answered with lastPacketTime := (env world.asked).time, holdDebt := false } :=
      ⟨⟨rfl, rfl, rfl, Nat.le_succ _⟩, .inr ⟨world.asked, Nat.le_refl _, Nat.lt_succ_self _, rfl⟩⟩
    have rest := (Run.Ensures.along (met_meetDispatch env loop packet)).weaken
      (fun _ _ => trans_of (Met env) moved) fun _ _ => trans_of (Met env) moved
    exact ⟨rest.ran⟩
  · exact met_meetDispatch env loop packet

theorem met_meet : Run.Along (Met env) (meet env loop : Session rmqtt sync Due) := by
  have observes (observation : Observation) := met_of_still env (@still_observe rmqtt sync observation)
  refine .bind .get fun world => .bind (met_of_still env (still_idleLeft env _)) fun left => ?_
  refine .bind (observes _) fun _ => .bind (met_of_still env (still_nextPacket env)) fun next => ?_
  rcases next with (_ | (error | ⟨packet, _⟩)) | _
  · exact .bind (observes _) fun _ => .pure _
  · refine .bind (observes _) fun _ => ?_
    cases classifyReadError error with
    | some violation => exact .pure _
    | none =>
      dsimp only
      split
      · exact .throw _
      · exact .pure _
  · exact met_meetPacket env loop packet _
  · exact .pure _

/-! ### The invariant -/

def Timely (account : Account) : Prop :=
  ∀ flush ∈ account.flushes, ∀ reply ∈ flush.replies, flush.startedAt < reply.deadline

def flushedBytes (account : Account) : Bytes := account.flushes.flatMap fun flush => bytesOf flush.replies

structure Spent (base : Bytes) (world : World rmqtt sync) (account : Account) : Prop where
  timely : Timely account
  written : world.written <+: base ++ flushedBytes account

structure Sound (base : Bytes) (world : World rmqtt sync) (account : Account) : Prop where
  past : Past env world
  bytes : world.writeBuffer = bytesOf account.buffered
  encoded : ∀ reply ∈ account.buffered, reply.bytes ≠ []
  first : world.unflushed.map UnflushedReplies.flushBy = account.buffered.head?.map Buffered.deadline
  ordered : account.buffered.Pairwise (·.deadline ≤ ·.deadline)
  bounded : ∀ reply ∈ account.buffered, reply.deadline ≤ deadline loop world
  timely : Timely account
  written : world.written = base ++ flushedBytes account

section
variable {env loop} {base : Bytes} {world : World rmqtt sync} {account : Account} {time : Nat}

variable {after : World rmqtt sync} {α : Type}

section
variable (sound : Sound env loop base world account)
include sound

theorem Sound.spent : Spent base world account :=
  ⟨sound.timely, sound.written ▸ List.prefix_rfl⟩

theorem Sound.moved (unwritten : Unwritten world after) (past : Past env after)
    (anchor : world.lastPacketTime ≤ after.lastPacketTime) : Sound env loop base after account where
  past := past
  bytes := unwritten.writeBuffer.trans sound.bytes
  encoded := sound.encoded
  first := by rw [unwritten.unflushed, sound.first]
  ordered := sound.ordered
  bounded := fun reply member => (sound.bounded reply member).trans (Nat.add_le_add_right anchor _)
  timely := sound.timely
  written := unwritten.written.trans sound.written

theorem Sound.still (still : Still world after) : Sound env loop base after account :=
  sound.moved still.toUnwritten (sound.past.after still.lastPacketTime still.asked) still.lastPacketTime.ge

theorem Sound.answered : Sound env loop base world.answered account :=
  sound.still ⟨⟨rfl, rfl, rfl, Nat.le_succ _⟩, rfl⟩

theorem Sound.met (clock : Monotone fun moment => (env moment).time) (met : Met env world after) : Sound env loop base after account := by
  rcases met.anchor with same | ⟨read, later, before, anchored⟩
  · exact sound.moved met.toUnwritten (sound.past.after same met.asked) same.ge
  · have past : Past env after := fun _ late => anchored ▸ clock (before.le.trans late)
    exact sound.moved met.toUnwritten past (anchored ▸ sound.past read later)

private theorem meet_sound (clock : Monotone fun moment => (env moment).time) :
    Run.Ensures (meet env loop) world (fun _ after => Sound env loop base after account)
      fun _ after => Sound env loop base after account :=
  (Run.Ensures.along (met_meet env loop)).weaken (fun _ _ met => sound.met clock met) fun _ _ met => sound.met clock met

-- What a send and what a flush put on the socket are noted for the boundary only.
theorem Sound.sent (sending : Sending) :
    Sound env loop base world (account.sending sending) :=
  ⟨sound.past, sound.bytes, sound.encoded, sound.first, sound.ordered, sound.bounded, sound.timely, sound.written⟩

private theorem Sound.wrote (bytes : Bytes) :
    Sound env loop base world (account.wrote bytes) :=
  ⟨sound.past, sound.bytes, sound.encoded, sound.first, sound.ordered, sound.bounded, sound.timely, sound.written⟩

/-! ### Flushing and queueing -/

theorem Sound.drained (idle : world.unflushed = none) :
    account.buffered = [] := by
  have first := sound.first
  rw [idle] at first
  cases buffered : account.buffered with
  | nil => rfl
  | cons reply rest => simp [buffered] at first

theorem Sound.earliest {queued : UnflushedReplies}
    (due : world.unflushed = some queued) : ∀ reply ∈ account.buffered, queued.flushBy ≤ reply.deadline := by
  have first := sound.first
  have ordered := sound.ordered
  rw [due] at first
  cases buffered : account.buffered with
  | nil => simp
  | cons reply rest =>
    rw [buffered] at first ordered
    have same : queued.flushBy = reply.deadline := by simpa using first
    intro other member
    rw [same]
    rcases List.mem_cons.mp member with rfl | later
    · exact Nat.le_refl _
    · exact (List.pairwise_cons.mp ordered).1 other later

private theorem Sound.starts_timely {queued : UnflushedReplies}
    (due : world.unflushed = some queued) (early : time < queued.flushBy) : Timely (account.starts time) := by
  intro flush member reply among
  rcases List.mem_append.mp member with before | started
  · exact sound.timely flush before reply among
  · obtain rfl := List.mem_singleton.mp started
    exact early.trans_le (sound.earliest due reply among)

theorem Sound.least (queued : world.writeBuffer ≠ []) :
    ∃ replies, world.unflushed = some replies ∧
      IsLeast {due | ∃ reply ∈ account.buffered, reply.deadline = due} replies.flushBy := by
  cases due : world.unflushed with
  | none =>
    rw [sound.bytes, sound.drained due] at queued
    exact absurd rfl queued
  | some replies =>
    have earliest := sound.earliest due
    have first := sound.first
    rw [due] at first
    obtain ⟨reply, front, same⟩ : ∃ reply, account.buffered.head? = some reply ∧ reply.deadline = replies.flushBy := by
      simpa [eq_comm] using first
    refine ⟨replies, rfl, ⟨reply, List.mem_of_mem_head? front, same⟩, ?_⟩
    rintro _ ⟨other, member, rfl⟩
    exact earliest other member

theorem Sound.idle (empty : world.writeBuffer = []) : world.unflushed = none := by
  have first := sound.first
  cases buffered : account.buffered with
  | nil => simpa [buffered] using first
  | cons reply rest =>
    -- A reply in the buffer has at least one byte there.
    have nonempty := sound.encoded reply (by simp [buffered])
    rw [sound.bytes, buffered] at empty
    exact absurd (List.append_eq_nil_iff.mp empty).1 nonempty

omit sound in
@[simp] theorem flushedBytes_starts :
    flushedBytes (account.starts time) = flushedBytes account ++ bytesOf account.buffered := by
  simp [flushedBytes, Account.starts]

structure Silenced (base : Bytes) (world : World rmqtt sync) (account : Account) : Prop
    extends Spent base world account where
  unflushed : world.unflushed = none

omit sound in
private theorem Silenced.wrote (silenced : Silenced base world account) (bytes : Bytes) :
    Silenced base world (account.wrote bytes) := ⟨⟨silenced.timely, silenced.written⟩, silenced.unflushed⟩

private theorem Sound.silenced (written : after.written = world.written)
    (idle : after.unflushed = none) : Silenced base after account := ⟨⟨sound.timely, written ▸ sound.spent.written⟩, idle⟩

theorem Sound.took (timely : Timely (account.starts time))
    (count : Nat) (written : after.written = world.written ++ world.writeBuffer.take count) (idle : after.unflushed = none) :
    Silenced base after (account.starts time) where
  timely := timely
  written := by
    rw [written, sound.written, sound.bytes, flushedBytes_starts, List.append_assoc]
    exact (List.prefix_append_right_inj _).mpr ((List.prefix_append_right_inj _).mpr (List.take_prefix _ _))
  unflushed := idle

private theorem Sound.flushed (timely : Timely (account.starts time))
    (written : after.written = world.written ++ world.writeBuffer) (drained : after.writeBuffer = [])
    (idle : after.unflushed = none) (anchor : after.lastPacketTime = world.lastPacketTime) (asked : world.asked ≤ after.asked) :
    Sound env loop base after (account.starts time).completes where
  past := sound.past.after anchor asked
  bytes := drained
  encoded := List.forall_mem_nil _
  first := by rw [idle]; rfl
  ordered := .nil
  bounded := List.forall_mem_nil _
  timely := timely
  written := by
    have total := @flushedBytes_starts account time
    rw [written, sound.written, sound.bytes, List.append_assoc, ← total]
    rfl

def Flushed (env : Nat → Moment) (loop : LoopConfig) (base : Bytes) (world : World rmqtt sync) (account : Account) :
    Timed (Except IoError Unit) → World rmqtt sync → Prop
  | .done (.ok ()), after =>
    Sound env loop base after account.completes ∧ after.writeBuffer = [] ∧ after.lastPacketTime = world.lastPacketTime
  | _, after => Silenced base after account

private theorem flush_sound (timely : Timely (account.starts time))
    {begun : World rmqtt sync} (same : Still { world with unflushed := none } begun) :
    Run.Ensures (flush env) begun (Flushed env loop base world (account.starts time))
      fun _ after => Silenced base after (account.starts time) := by
  constructor
  rw [flush_apply]
  have wrote (count : Nat) : (begun.suspended env).written ++ (begun.suspended env).writeBuffer.take count =
      world.written ++ world.writeBuffer.take count := by
    change begun.written ++ begun.writeBuffer.take count = _
    rw [same.written, same.writeBuffer]
  cases (env begun.asked).writing with
  | done =>
    refine ⟨sound.flushed timely ?_ (List.drop_length) same.unflushed same.lastPacketTime ?_, List.drop_length, same.lastPacketTime⟩
    · refine (wrote _).trans ?_
      rw [same.writeBuffer, List.take_length]
    · exact same.asked.trans (Nat.le_succ _)
  | failed kind taken => exact sound.took timely taken (wrote taken) same.unflushed
  | expired taken => exact sound.took timely taken (wrote taken) same.unflushed
  | never taken => exact sound.took timely taken (wrote taken) same.unflushed

theorem flushReplies_sound :
    Run.Ensures (flushRepliesNoted env) (world, account)
      (fun _ after => Sound env loop base after.1 after.2 ∧ after.1.writeBuffer = [] ∧
        after.1.lastPacketTime = world.lastPacketTime)
      fun _ after => Silenced base after.1 after.2 := by
  refine Ghost.ensures_look ?_
  cases due : world.unflushed with
  | none =>
    have drained := sound.drained due
    refine .pure ⟨sound, ?_, rfl⟩
    rw [sound.bytes, drained]
    rfl
  | some queued =>
    refine Ghost.ensures_step rfl (Ghost.ensures_step rfl ?_)
    dsimp only
    split
    next late => exact Ghost.ensures_lift ⟨⟨⟨sound.timely, sound.spent.written⟩, rfl⟩⟩
    next left =>
      have timely := sound.starts_timely due (by omega : (env world.asked).time < queued.flushBy)
      refine Ghost.ensures_step rfl (Ghost.ensures_note ?_)
      have same : Still { world with unflushed := none }
          ((World.answered { world with unflushed := none }).log [.timer (queued.flushBy - (env world.asked).time)]) :=
        ⟨⟨rfl, rfl, rfl, Nat.le_succ _⟩, rfl⟩
      have flushes := flush_sound sound timely same
      refine Ghost.ensures_noting_bind (flushes.weaken (fun _ _ => id) fun _ _ silenced => silenced.wrote _)
        fun flushed after ended => ?_
      rcases flushed with (error | _) | _
      · exact Ghost.ensures_lift (.throw (ended.wrote _))
      · exact ⟨ended.1.wrote _, ended.2⟩
      · exact Ghost.ensures_lift (.throw (ended.wrote _))

theorem Sound.queued {bytes : Bytes} (some_bytes : bytes ≠ [])
    (buffered : after.writeBuffer = world.writeBuffer ++ bytes) (written : after.written = world.written)
    (anchor : after.lastPacketTime = world.lastPacketTime) (asked : world.asked ≤ after.asked)
    {timeoutContext : TimeoutContext}
    (due : after.unflushed = some (world.unflushed.getD ⟨deadline loop world, timeoutContext⟩)) :
    Sound env loop base after (account.queues ⟨bytes, deadline loop world⟩) where
  past := sound.past.after anchor asked
  bytes := by
    rw [buffered, sound.bytes]
    simp [bytesOf, Account.queues]
  encoded := by
    intro reply member
    rcases List.mem_append.mp member with before | new
    · exact sound.encoded reply before
    · obtain rfl := List.mem_singleton.mp new
      exact some_bytes
  first := by
    have first := sound.first
    rw [due]
    cases queue : account.buffered with
    | nil =>
      have idle : world.unflushed = none := by simpa [queue] using first
      simp [Account.queues, queue, idle]
    | cons reply rest =>
      obtain ⟨queued, some_queued, same⟩ : ∃ queued, world.unflushed = some queued ∧ queued.flushBy = reply.deadline := by
        simpa [queue] using first
      simp [Account.queues, queue, some_queued, same]
  ordered := by
    refine List.pairwise_append.mpr ⟨sound.ordered, List.pairwise_singleton _ _, ?_⟩
    intro reply member new among
    obtain rfl := List.mem_singleton.mp among
    exact sound.bounded reply member
  bounded := by
    rw [deadline_after anchor]
    intro reply member
    rcases List.mem_append.mp member with before | new
    · exact sound.bounded reply before
    · obtain rfl := List.mem_singleton.mp new
      exact Nat.le_refl _
  timely := sound.timely
  written := written.trans sound.written

end

/-! ### Replying -/

def Encoded (packet : MqttPacket) (world : World rmqtt sync) : Timed (Except IoError Unit) → World rmqtt sync → Prop
  | .done (.ok ()), after => ∃ bytes, rmqtt.encode world.version packet = some bytes ∧
      after = (world.log [.sent world.version packet]).appended bytes
  | _, after => after.written = world.written ∧ after.writeBuffer = world.writeBuffer

theorem sendNoted_below (packet : MqttPacket) (below : world.writeBuffer.length < writeBackpressureBoundary)
    {next : Timed (Except IoError Unit) → Annotated rmqtt sync α} {post : α → World rmqtt sync × Account → Prop}
    {stops : Stop → World rmqtt sync × Account → Prop}
    (rest : ∀ sent after, Encoded packet world sent after →
      Run.Ensures (next sent) (after, account.sending (sendingOf packet world)) post stops) :
    Run.Ensures (sendNoted env packet time >>= next) (world, account) post stops := by
  have room : ¬world.writeBuffer.length ≥ writeBackpressureBoundary := Nat.not_le.mpr below
  have same : sendNoted env packet time (world, account) =
      Ghost.lift (encode packet) (world, account.sending (sendingOf packet world)) := by
    simp only [sendNoted, Ghost.note, Ghost.look, Run.bind_apply, Run.modify_apply, Run.get_apply, Run.pure_apply, room, if_false]
  constructor
  rw [Run.bind_apply, same, Ghost.lift_apply, encode_apply]
  cases encoded : rmqtt.encode world.version packet with
  | none => exact (rest (.done (.error .encode)) (world.log [.sent world.version packet, .writeFailed]) ⟨rfl, rfl⟩).ran
  | some bytes => exact (rest (.done (.ok ())) _ ⟨bytes, encoded, rfl⟩).ran

private theorem encodeReply_sound (encodes : ∀ version packet bytes, rmqtt.encode version packet = some bytes → bytes ≠ [])
    (sound : Sound env loop base world account) (below : world.writeBuffer.length < writeBackpressureBoundary)
    (packet : MqttPacket) {flushBy : Nat} (due : flushBy = deadline loop world) (timeoutContext : TimeoutContext) :
    Run.Ensures (encodeReplyNoted env loop packet flushBy timeoutContext) (world, account)
      (fun _ after => Sound env loop base after.1 after.2) fun _ after => Silenced base after.1 after.2 := by
  refine Ghost.ensures_step (ask_apply env world) (Ghost.ensures_step (observe_apply _ _) ?_)
  split
  · exact Ghost.ensures_lift ⟨sound.silenced rfl rfl⟩
  · subst due
    have room : (world.answered.log [.timer (deadline loop world - (env world.asked).time)]).writeBuffer.length <
      writeBackpressureBoundary := below
    refine sendNoted_below packet room fun sent after ended => ?_
    rcases sent with (error | _) | _
    · exact Ghost.ensures_lift ⟨(sound.sent _).silenced ended.1 rfl⟩
    · obtain ⟨bytes, encoded, rfl⟩ := ended
      have handed : Outbox.encoding rmqtt world.version packet = bytes := congrArg (Option.getD · []) encoded
      subst handed
      refine Ghost.ensures_note (Ghost.ensures_lift ⟨?_⟩)
      exact (sound.sent _).queued (encodes _ _ _ encoded) rfl rfl rfl (Nat.le_succ _) rfl
    · exact Ghost.ensures_lift ⟨(sound.sent _).silenced ended.1 rfl⟩

section
variable (encodes : ∀ version packet bytes, rmqtt.encode version packet = some bytes → bytes ≠ [])
include encodes

variable {budget : Nat} {state : World rmqtt sync × Account}

theorem queueReply_sound (sound : Sound env loop base world account) (packet : MqttPacket)
    (due : (env world.asked).time + budget = deadline loop world) (timeoutContext : TimeoutContext) :
    Run.Ensures (queueReplyNoted env loop packet budget timeoutContext) (world, account)
      (fun _ after => Sound env loop base after.1 after.2) fun _ after => Silenced base after.1 after.2 := by
  refine Ghost.ensures_step (now_apply env world) (Ghost.ensures_look ?_)
  have asked := sound.answered
  dsimp only
  split
  · refine .bind (flushReplies_sound asked) fun _ after ⟨flushed, drained, anchor⟩ => ?_
    refine encodeReply_sound encodes flushed ?_ packet ?_ timeoutContext
    · rw [drained]
      decide
    · rw [due, deadline_after anchor]
      rfl
  next room => exact encodeReply_sound encodes asked (Nat.lt_of_not_le room) packet due timeoutContext

omit encodes in
theorem attempt_ensures {α : Type} {program : Annotated rmqtt sync α} {holds : World rmqtt sync × Account → Prop}
    (ran : Run.Ensures program state (fun _ => holds) fun _ => holds) :
    Run.Ensures (attemptNoted program) state (fun _ => holds) fun _ => holds := by
  have known := ran.ran
  constructor
  unfold attemptNoted
  cases result : program state with
  | ok value after =>
    rw [result] at known
    exact known
  | error stop after =>
    rw [result] at known
    cases stop <;> exact known

def Lasting (env : Nat → Moment) (loop : LoopConfig) (base : Bytes) (state : World rmqtt sync × Account) : Prop :=
  Sound env loop base state.1 state.2 ∨ Silenced base state.1 state.2

omit encodes in
private theorem flushReplies_lasting (lasting : Lasting env loop base (world, account)) :
    Run.Ensures (flushRepliesNoted env) (world, account) (fun _ => Lasting env loop base) fun _ => Lasting env loop base := by
  rcases lasting with sound | silenced
  · exact (flushReplies_sound sound).weaken (fun _ _ flushed => .inl flushed.1) fun _ _ => .inr
  · refine Ghost.ensures_look ?_
    rw [show world.unflushed = none from silenced.unflushed]
    exact .pure (.inr silenced)

theorem closeWithViolation_lasting (sound : Sound env loop base world account) (violation : Violation)
    (due : (env world.asked).time + budget = deadline loop world) :
    Run.Ensures (closeWithViolationNoted env loop violation budget) (world, account)
      (fun _ => Lasting env loop base) fun _ => Lasting env loop base := by
  refine Ghost.ensures_step (observe_apply _ world) (Ghost.ensures_look ?_)
  have seen := sound.still (⟨⟨rfl, rfl, rfl, Nat.le_refl _⟩, rfl⟩ : Still world (world.log [.violated violation]))
  have flushes (_ : Except Error Unit) (state : World rmqtt sync × Account) (lasting : Lasting env loop base state) :
      Run.Ensures (do
        let _flushed ← attemptNoted (flushRepliesNoted env)
        return SessionOutcome.violation) state (fun _ => Lasting env loop base) fun _ => Lasting env loop base :=
    .bind (attempt_ensures (flushReplies_lasting lasting)) fun _ _ lasts => .pure lasts
  dsimp only
  split
  next packet _ =>
    have queued := queueReply_sound encodes seen packet due .disconnectFlush
    exact .bind (attempt_ensures (queued.weaken (fun _ _ => .inl) fun _ _ => .inr)) flushes
  · exact .bind (.pure (.inl seen)) flushes

omit encodes in
theorem Lasting.spent (lasting : Lasting env loop base state) :
    Spent base state.1 state.2 := by
  rcases lasting with sound | silenced
  · exact sound.spent
  · exact silenced.toSpent

def Answered (env : Nat → Moment) (loop : LoopConfig) (base : Bytes) (outcome : Option SessionOutcome)
    (state : World rmqtt sync × Account) : Prop :=
  match outcome with
  | none => Sound env loop base state.1 state.2
  | some _ => Spent base state.1 state.2

section
variable (instant : (env (world.asked + 1)).time = (env world.asked).time)
include instant

omit encodes in
theorem budget_due (sound : Sound env loop base world account) {budget : Nat}
    (taken : budget = loop.idleTimeout - ((env world.asked).time - world.lastPacketTime)) (left : budget ≠ 0) :
    (env world.answered.asked).time + budget = deadline loop world := by
  have begun : world.lastPacketTime ≤ (env world.asked).time := sound.past _ (Nat.le_refl _)
  change (env (world.asked + 1)).time + budget = world.lastPacketTime + loop.idleTimeout
  omega

omit encodes instant in
theorem idleClose_spent (spent : Spent base world account) :
    Run.Ensures (Ghost.lift idleClose) (world, account) (Answered env loop base) fun _ after => Spent base after.1 after.2 :=
  Ghost.ensures_lift ⟨⟨spent.timely, spent.written⟩⟩

private theorem violationClose_answered (sound : Sound env loop base world account) (violation : Violation) :
    Run.Ensures (violationCloseNoted env loop violation) (world, account) (Answered env loop base)
      fun _ after => Spent base after.1 after.2 := by
  have asked := sound.answered
  refine Ghost.ensures_step rfl ?_
  split
  · exact idleClose_spent asked.spent
  next left =>
    have closes := closeWithViolation_lasting encodes asked violation (budget_due instant sound rfl left)
    refine closes.seq (fun _ _ lasts => lasts.spent) fun _ _ lasts => .pure lasts.spent

private theorem replyOwed_answered (sound : Sound env loop base world account) (owed : Option Reply) :
    Run.Ensures (replyOwedNoted env loop owed) (world, account) (Answered env loop base)
      fun _ after => Spent base after.1 after.2 := by
  have asked := sound.answered
  refine Ghost.ensures_step rfl ?_
  split
  · exact idleClose_spent asked.spent
  next left =>
    have due := budget_due instant sound rfl left
    cases owed with
    | none => exact .pure asked
    | some reply =>
      refine Ghost.ensures_look ?_
      dsimp only
      split
      next violation _ =>
        have gated := asked.still (⟨⟨rfl, rfl, rfl, Nat.le_refl _⟩, rfl⟩ : Still world.answered (world.answered.log [.gated]))
        have closes := closeWithViolation_lasting encodes gated violation due
        refine Ghost.ensures_step rfl ?_
        refine closes.seq (fun _ _ lasts => lasts.spent) fun _ _ lasts => .pure lasts.spent
      · have queued := queueReply_sound encodes asked (reply.render world.version) due reply.timeoutContext
        refine queued.seq (fun _ _ silenced => silenced.toSpent) fun _ _ sound => .pure sound

private theorem answer_answered (sound : Sound env loop base world account) (due : Due) :
    Run.Ensures (answerNoted env loop due) (world, account) (Answered env loop base)
      fun _ after => Spent base after.1 after.2 := by
  cases due with
  | reply owed => exact replyOwed_answered encodes instant sound owed
  | violation violation => exact violationClose_answered encodes instant sound violation
  | close =>
    have flushes := flushReplies_sound sound
    refine flushes.seq (fun _ _ silenced => silenced.toSpent) fun _ _ flushed => ?_
    exact .pure flushed.1.spent
  | finish outcome => exact .pure sound.spent

end

end

end

/-! ### Every state of the loop -/

structure Entering (world : World rmqtt sync) : Prop where
  writeBuffer : world.writeBuffer = []
  unflushed : world.unflushed = none
  entry : world.lastPacketTime ≤ (env world.asked).time

/-- The two clock reads of a reply, for its budget and for the flush it is queued to,
are one instant. -/
def OneInstant (start : World rmqtt sync) : Prop :=
  ∀ due world account, Reached env loop start ⟨.answering due, world, account⟩ →
    (env (world.asked + 1)).time = (env world.asked).time

private theorem boundedSend_drains (packet : MqttPacket) (deadline : Nat) (world : World rmqtt sync) :
    Run.Ensures (boundedSend env packet deadline) world
      (fun _ after => after.writeBuffer = [] ∧ world.asked ≤ after.asked) fun _ _ => True := by
  have sends := along_send env trivial packet (world.log [.timer deadline])
  constructor
  simp only [boundedSend, Run.bind_apply, observe_apply]
  generalize send env packet (world.log [.timer deadline]) = result at sends ⊢
  rcases result with ⟨sent, after⟩ | ⟨stop, after⟩
  · obtain ⟨log, kept, -⟩ := sends
    rcases sent with (error | _) | _
    · exact trivial
    · simp only [Run.bind_apply, flush_apply]
      cases (env after.asked).writing with
      | done => exact ⟨List.drop_length, kept.asked.trans (Nat.le_succ _)⟩
      | failed | expired | never => exact trivial
    · exact trivial
  · exact trivial

theorem serveDecision_drained (config : Config) (turns handshakeStart connectReceivedAt : Nat) (connack : MqttPacket)
    (clientId : Option String) (keepAlive idleTimeout : Nat) (maxPacketSize : Option NonZeroU32) (world : World rmqtt sync) :
    let decision := ConnectDecision.accept connack clientId keepAlive idleTimeout maxPacketSize
    let connacks := do boundedSend env connack (← remaining env config handshakeStart)
    (∃ start, (start.writeBuffer = [] ∧ start.unflushed = none ∧ start.lastPacketTime = connectReceivedAt ∧ world.asked ≤ start.asked) ∧
      serveDecision env config turns handshakeStart connectReceivedAt decision world =
        runPacketLoop env ⟨idleTimeout, maxPacketSize, config.ingestDeadline⟩ turns start) ∨
    ∃ stop after, connacks world = .error stop after ∧
      serveDecision env config turns handshakeStart connectReceivedAt decision world = .error stop after := by
  simp only [serveDecision, remaining, Run.bind_apply, now_apply, Run.pure_apply]
  generalize millisOfSecs _ - ((env world.asked).time - handshakeStart) = budget
  have drains := (boundedSend_drains env connack budget world.answered).ran
  cases sent : boundedSend env connack budget world.answered with
  | ok _ after =>
    rw [sent] at drains
    obtain ⟨drained, asked⟩ := drains
    refine .inl ⟨_, ⟨?_, ?_, ?_, ?_⟩, rfl⟩
    · exact drained
    · rfl
    · rfl
    · exact (Nat.le_succ _).trans asked
  | error stop after => exact .inr ⟨stop, after, rfl, rfl⟩

def Holds (base : Bytes) (point : Point rmqtt sync) : Prop :=
  match point.phase with
  | .ended => Spent base point.world point.account
  | .head | .reading | .answering _ => Sound env loop base point.world point.account

section
variable {env loop} {start : World rmqtt sync}

private theorem Entering.sound (clock : Monotone fun moment => (env moment).time) (entering : Entering env start) :
    Sound env loop start.written start {} where
  past := fun _ later => entering.entry.trans (clock later)
  bytes := entering.writeBuffer
  encoded := List.forall_mem_nil _
  first := by rw [entering.unflushed]; rfl
  ordered := .nil
  bounded := List.forall_mem_nil _
  timely := List.forall_mem_nil _
  written := (List.append_nil _).symm

theorem Leads.holds {α : Type} {goes : α → Phase} {base : Bytes} {program : Annotated rmqtt sync α}
    {world : World rmqtt sync} {account : Account} {after : Point rmqtt sync} (led : Leads goes (program (world, account)) after)
    (ran : Run.Ensures program (world, account)
      (fun value last => Holds env loop base ⟨goes value, last.1, last.2⟩) fun _ last => Spent base last.1 last.2) :
    Holds env loop base after := by
  have known := ran.ran
  generalize program (world, account) = result at led known
  cases led with
  | on value last late => exact known
  | out stop last late => exact known

variable (encodes : ∀ version packet bytes, rmqtt.encode version packet = some bytes → bytes ≠ [])
  (clock : Monotone fun moment => (env moment).time)
include encodes clock

theorem Step.holds {base : Bytes} {point after : Point rmqtt sync} (instant : ∀ due, point.phase = .answering due →
      (env (point.world.asked + 1)).time = (env point.world.asked).time)
    (holds : Holds env loop base point) (moved : Step env loop point after) : Holds env loop base after := by
  cases moved with
  | flushes led =>
    have flushes := flushReplies_sound (holds : Sound env loop base _ _)
    refine Leads.holds led (Ghost.ensures_look ?_)
    split
    · exact flushes.weaken (fun _ _ flushed => flushed.1) fun _ _ silenced => silenced.toSpent
    · exact .pure holds
  | meets led =>
    have meets := meet_sound (holds : Sound env loop base _ _) clock
    exact Leads.holds led (Ghost.ensures_lift (meets.weaken (fun _ _ => id) fun _ _ sound => sound.spent))
  | @answers due world account _ led =>
    have answers := answer_answered encodes (instant due rfl) (holds : Sound env loop base world account) due
    refine Leads.holds led (answers.weaken (fun outcome _ answered => ?_) fun _ _ => id)
    cases outcome <;> exact answered

variable {point : Point rmqtt sync} {base : Bytes} {world : World rmqtt sync} {account : Account}

private theorem reached_holds (entering : Entering env start) (instant : OneInstant env loop start)
    (reached : Reached env loop start point) : Holds env loop start.written point := by
  induction reached with
  | refl => exact entering.sound clock
  | @tail point after before moved holds =>
    refine Step.holds encodes clock (fun due phase => ?_) holds moved
    obtain ⟨_, world, account⟩ := point
    cases phase
    exact instant due world account before

omit encodes clock in
private theorem Sound.of_phase (holds : Holds env loop base point)
    (going : point.phase ≠ .ended) : Sound env loop base point.world point.account := by
  obtain ⟨phase, world, account⟩ := point
  cases phase with
  | ended => exact absurd rfl going
  | head | reading | answering => exact holds

omit encodes clock in
private theorem Spent.of_holds (holds : Holds env loop base point) :
    Spent base point.world point.account := by
  obtain ⟨phase, world, account⟩ := point
  cases phase with
  | ended => exact holds
  | head | reading | answering => exact Sound.spent holds

/-- At every state of the packet loop the write buffer and `unflushed` agree: an empty
buffer has no flush due, and a flush is due at the earliest of the idle deadlines of
the replies in the buffer. Whatever the loop writes, it writes in flushes that were
started before the deadline of each reply in them. A run of the loop, of any number of
turns, ends at such a state. -/
theorem flush_by_earliest_deadline (entering : Entering env start) (instant : OneInstant env loop start)
    {point : Point rmqtt sync} (reached : Reached env loop start point) :
    (point.phase ≠ .ended →
      point.world.writeBuffer = bytesOf point.account.buffered ∧
      (point.world.writeBuffer = [] → point.world.unflushed = none) ∧
      (point.world.writeBuffer ≠ [] → ∃ replies, point.world.unflushed = some replies ∧
        IsLeast {due | ∃ reply ∈ point.account.buffered, reply.deadline = due} replies.flushBy)) ∧
    (∀ flush ∈ point.account.flushes, ∀ reply ∈ flush.replies, flush.startedAt < reply.deadline) ∧
    (point.world.written <+: start.written ++ point.account.flushes.flatMap fun flush => bytesOf flush.replies) ∧
    ∀ turns, ∃ last, Reached env loop start last ∧ last.world = worldOf (runPacketLoop env loop turns start) := by
  have holds := reached_holds encodes clock entering instant reached
  have spent := Spent.of_holds holds
  refine ⟨fun going => ?_, spent.timely, spent.written, fun turns => runPacketLoop_steps env loop turns start {}⟩
  have sound := Sound.of_phase holds going
  exact ⟨sound.bytes, sound.idle, sound.least⟩

end

/-! ### Three pings in one read -/

def threePings : World Fixtures.codec .fifo :=
  .accepted _ (.new .fifo Publish 0) [⟨Fixtures.pingreq ++ Fixtures.pingreq ++ Fixtures.pingreq, List.cons_ne_nil _ _⟩]

/-- Two answers wait for the third PINGREQ, and the flush of both is due at their deadline. -/
theorem flush_by_earliest_deadline_pings :
    ∃ point, Reached prompt ⟨1000, none, 100⟩ threePings point ∧ point.world.writeBuffer = [0xD0, 0x00, 0xD0, 0x00] ∧
      ∃ replies, point.world.unflushed = some replies ∧
        IsLeast {due | ∃ reply ∈ point.account.buffered, reply.deadline = due} replies.flushBy := by
  obtain ⟨⟨_, middle, account⟩, one, first, head⟩ := turn_steps prompt ⟨1000, none, 100⟩ threePings {}
  obtain rfl := head (by decide +kernel)
  obtain ⟨point, two, second, goes⟩ := turn_steps prompt ⟨1000, none, 100⟩ middle account
  subst first
  have buffered : point.world.writeBuffer = [0xD0, 0x00, 0xD0, 0x00] := by
    rw [second]
    decide +kernel
  have entering : Entering prompt threePings := ⟨rfl, rfl, Nat.le_refl 0⟩
  have holds := flush_by_earliest_deadline (fun _ _ _ => Fixtures.codec_encodes) monotone_const entering (fun _ _ _ _ => rfl)
    (one.trans two)
  refine ⟨point, one.trans two, buffered, (holds.1 ?_).2.2 ?_⟩
  · rw [goes (by decide +kernel)]
    nofun
  · rw [buffered]
    exact List.cons_ne_nil _ _

end UringMqtt.Proofs.FlushDeadline

import UringMqtt.Broker.Handler
import UringMqtt.Lib.Run
import UringMqtt.Proofs.Framing
import UringMqtt.Proofs.ChannelUse

/-! What the small operations of a session do to its state, one equation each.
The invariants of a session are proved from these and never look inside them. -/

namespace UringMqtt
open Lib

variable {rmqtt : Rmqtt} {sync : LocalSync} (env : Nat → Moment)

namespace World

def answered (world : World rmqtt sync) : World rmqtt sync := { world with asked := world.asked + 1 }

def suspended (world : World rmqtt sync) : World rmqtt sync :=
  { world with
    asked := world.asked + 1
    channel := (env world.asked).others.foldl EventChannel.act world.channel }

def log (world : World rmqtt sync) (observations : List Observation) : World rmqtt sync :=
  { world with trace := world.trace ++ observations }

def took (world : World rmqtt sync) (count : Nat) : World rmqtt sync :=
  { world with
    written := world.written ++ world.writeBuffer.take count
    writeBuffer := world.writeBuffer.drop count
    trace := world.trace ++ [.wrote (world.writeBuffer.take count)] }

def appended (world : World rmqtt sync) (bytes : Bytes) : World rmqtt sync :=
  { world with writeBuffer := world.writeBuffer ++ bytes }

/-- The session behind an offer: the channel, the clock, the tickets and the log have moved. -/
def offered (world : World rmqtt sync) (asked : Nat) (channel : EventChannel sync Publish) (log : List Observation) :
    World rmqtt sync :=
  { world with
    asked, channel
    nextTicket := world.nextTicket + 1
    trace := world.trace ++ log }

/-- The session without its clock, its idle anchor and its ticket counter. -/
def core (world : World rmqtt sync) : World rmqtt sync :=
  { world with asked := 0, nextTicket := 0, lastPacketTime := 0, holdDebt := false }

theorem of_core {world after : World rmqtt sync} (same : after.core = world.core) :
    ∃ asked nextTicket lastPacketTime holdDebt,
      after = { world with asked, nextTicket, lastPacketTime, holdDebt } := by
  refine ⟨after.asked, after.nextTicket, after.lastPacketTime, after.holdDebt, ?_⟩
  cases after
  cases world
  simpa [core] using same

/-- The bytes no decoder has taken yet, read or still to come. -/
def unread (world : World rmqtt sync) : Bytes := world.readBuffer ++ (world.incoming.map Subtype.val).flatten

end World

def answerOf {α : Type} : EStateM.Result Stop (World rmqtt sync) α → Except Stop α
  | .ok value _ => .ok value
  | .error stop _ => .error stop

def worldOf {α : Type} : EStateM.Result Stop (World rmqtt sync) α → World rmqtt sync
  | .ok _ after => after
  | .error _ after => after

namespace Proofs.SessionSteps

def prompt : Nat → Moment := fun _ => ⟨0, .ready, .done, false, .resumed, []⟩

@[simp] theorem observe_apply (observation : Observation) (world : World rmqtt sync) :
    observe observation world = .ok () (world.log [observation]) := rfl

@[simp] theorem ask_apply (world : World rmqtt sync) :
    ask env world = .ok (env world.asked) world.answered := rfl

@[simp] theorem now_apply (world : World rmqtt sync) :
    now env world = .ok (env world.asked).time world.answered := rfl

@[simp] theorem suspend_apply (world : World rmqtt sync) :
    suspend env world = .ok (env world.asked) (world.suspended env) := rfl

variable {α : Type} {world first second third before : World rmqtt sync} {bound : MaxInboundPacketSize} {rest : Bytes}

theorem attempt_apply (run : Session rmqtt sync α) (world : World rmqtt sync) :
    attempt run world =
      match run world with
      | .ok value after => .ok (.ok value) after
      | .error (.error error) after => .ok (.error error) after
      | .error .pending after => .error .pending after
      | .error .panicked after => .error .panicked after := rfl

theorem flush_apply (world : World rmqtt sync) :
    flush env world =
      match (env world.asked).writing with
      | .done => .ok (.done (.ok ())) (((world.suspended env).took world.writeBuffer.length).log [.flushed])
      | .failed kind taken =>
        .ok (.done (.error (.transport kind))) (((world.suspended env).took taken).log [.writeFailed])
      | .expired taken => .ok .timedOut (((world.suspended env).took taken).log [.writeExpired])
      | .never taken => .error .pending ((world.suspended env).took taken) := by
  simp only [flush, Run.bind_apply, suspend_apply]
  cases (env world.asked).writing <;> rfl

theorem encode_apply (packet : MqttPacket) (world : World rmqtt sync) :
    encode packet world =
      match rmqtt.encode world.version packet with
      | some bytes => .ok (.done (.ok ())) ((world.log [.sent world.version packet]).appended bytes)
      | none => .ok (.done (.error .encode)) (world.log [.sent world.version packet, .writeFailed]) := by
  simp only [encode, Run.bind_apply, Run.get_apply, observe_apply]
  cases rmqtt.encode world.version packet with
  | some bytes => rfl
  | none => simp [World.log]

theorem send_apply (packet : MqttPacket)
    (below : world.writeBuffer.length < writeBackpressureBoundary) : send env packet world = encode packet world := by
  simp only [send, Run.bind_apply, Run.get_apply, ge_iff_le, Nat.not_le.mpr below, if_false]

theorem flushReplies_apply (world : World rmqtt sync) :
    flushReplies env world =
      match world.unflushed with
      | none => .ok () world
      | some queued =>
        let started := { world with unflushed := none }.answered
        let left := queued.flushBy - (env world.asked).time
        if left = 0 then .error (.error .timeout) (started.log [.writeExpired])
        else match flush env (started.log [.timer left]) with
          | .ok (.done (.ok ())) after => .ok () after
          | .ok (.done (.error error)) after => .error (.error (.io error)) after
          | .ok .timedOut after => .error (.error .timeout) after
          | .error reason after => .error reason after := by
  cases queued : world.unflushed with
  | none => simp only [flushReplies, Run.bind_apply, Run.get_apply, queued, Run.pure_apply]
  | some replies =>
    simp only [flushReplies, Run.bind_apply, Run.get_apply, queued, Run.modify_apply, now_apply]
    split
    · rfl
    · simp only [Run.bind_apply, observe_apply]
      rcases flush env _ with ⟨(_ | _) | _, after⟩ | ⟨reason, after⟩ <;> rfl

/-! ### Reading a packet -/

structure Kept (before after : World rmqtt sync) : Prop where
  writeBuffer : after.writeBuffer = before.writeBuffer
  written : after.written = before.written
  version : after.version = before.version
  unflushed : after.unflushed = before.unflushed
  lastPacketTime : after.lastPacketTime = before.lastPacketTime
  holdDebt : after.holdDebt = before.holdDebt
  awaiting : after.awaiting = before.awaiting

private theorem Kept.refl (world : World rmqtt sync) : Kept world world := ⟨rfl, rfl, rfl, rfl, rfl, rfl, rfl⟩

private theorem Kept.trans (one : Kept first second) (two : Kept second third) :
    Kept first third where
  writeBuffer := two.writeBuffer.trans one.writeBuffer
  written := two.written.trans one.written
  version := two.version.trans one.version
  unflushed := two.unflushed.trans one.unflushed
  lastPacketTime := two.lastPacketTime.trans one.lastPacketTime
  holdDebt := two.holdDebt.trans one.holdDebt
  awaiting := two.awaiting.trans one.awaiting

/-- A stretch of reading, with the waits it logged. Only other tasks touch the channel. -/
structure Waited (before after : World rmqtt sync) (log : List Observation) : Prop where
  kept : Kept before after
  others : ∃ others : List Activity, after.channel = others.foldl EventChannel.act before.channel
  trace : after.trace = before.trace ++ log
  waits : ∀ observation ∈ log, observation = .awaitRead before.unflushed before.writeBuffer

theorem Waited.trans {one two : List Observation}
    (start : Waited first second one) (rest : Waited second third two) : Waited first third (one ++ two) where
  kept := start.kept.trans rest.kept
  others := by
    obtain ⟨early, first⟩ := start.others
    obtain ⟨late, second⟩ := rest.others
    exact ⟨early ++ late, by rw [second, first, List.foldl_append]⟩
  trace := by rw [rest.trace, start.trace, List.append_assoc]
  waits := by
    intro observation member
    rcases List.mem_append.mp member with early | late
    · exact start.waits observation early
    · rw [← start.kept.unflushed, ← start.kept.writeBuffer]
      exact rest.waits observation late

theorem Waited.reads (world : World rmqtt sync) {chunk : Chunk} {incoming : List Chunk}
    (arrived : world.incoming = chunk :: incoming) :
    let read := { world with incoming, readBuffer := world.readBuffer ++ chunk.val }
    Waited world read [] ∧ read.unread = world.unread := by
  refine ⟨⟨⟨rfl, rfl, rfl, rfl, rfl, rfl, rfl⟩, ⟨[], rfl⟩, (List.append_nil _).symm, List.forall_mem_nil _⟩, ?_⟩
  simp only [World.unread, arrived, List.map_cons, List.flatten_cons, List.append_assoc]

/-- A decoder at a frame start with a whole packet buffered. -/
def Complete (world : World rmqtt sync) : Prop :=
  rmqtt.state world.decoder.inner = .frameHeader ∧ holdsCompletePacket world.readBuffer = true

/-- What the one-shot parser makes of everything unread, from where the decoder stands. -/
def parse (bound : MaxInboundPacketSize) (world : World rmqtt sync) : List Item × Ending :=
  Framing.resume rmqtt world.version bound (rmqtt.state world.decoder.inner) (World.unread world)

theorem parse_same {after : World rmqtt sync} (version : after.version = before.version)
    (decoder : after.decoder = before.decoder) (readBuffer : after.readBuffer = before.readBuffer)
    (incoming : after.incoming = before.incoming) : parse bound after = parse bound before := by
  rw [parse, World.unread, version, decoder, readBuffer, incoming]
  rfl

variable (bound : MaxInboundPacketSize) (before : World rmqtt sync) in
/-- Everything `next_packet` can do. It answers as the one-shot parser does, unless the
surroundings keep it from it; a whole buffered packet is decided at once. -/
inductive Fetch :
    EStateM.Result Stop (World rmqtt sync) (Next Item) → Prop
  | packet (item : Item) (after : World rmqtt sync) (log : List Observation) (waited : Waited before after log)
      (synced : Framing.Synced rmqtt before.version bound after.decoder)
      (start : rmqtt.state after.decoder.inner = .frameHeader)
      (quick : Complete before → log = [] ∧ after.channel = before.channel)
      (parsed : parse bound before = (item :: (parse bound after).1, (parse bound after).2))
      (sourced : ∃ first body, rmqtt.decodePacket before.version first body = .ok item.1) :
      Fetch (.ok (.done (some (.ok item))) after)
  | rejected (error : DecodeError) (after : World rmqtt sync) (log : List Observation)
      (waited : Waited before after log) (quick : Complete before → log = [])
      (parsed : parse bound before = ([], .error (.decode error))) :
      Fetch (.ok (.done (some (.error (.decode error)))) after)
  | truncated (after : World rmqtt sync) (log : List Observation) (waited : Waited before after log)
      (incomplete : ¬Complete before) (parsed : parse bound before = ([], .error .truncatedPacket)) :
      Fetch (.ok (.done (some (.error .truncatedPacket))) after)
  | failed (kind : Nat) (after : World rmqtt sync) (log : List Observation) (waited : Waited before after log)
      (incomplete : ¬Complete before) (cause : ∃ moment, (env moment).arrival = .failed kind) :
      Fetch (.ok (.done (some (.error (.transport kind)))) after)
  | ended (after : World rmqtt sync) (log : List Observation) (waited : Waited before after log)
      (incomplete : ¬Complete before) (parsed : parse bound before = ([], .clean)) :
      Fetch (.ok (.done none) after)
  | expired (after : World rmqtt sync) (log : List Observation) (waited : Waited before after log)
      (incomplete : ¬Complete before) (cause : ∃ moment, (env moment).arrival = .expired) :
      Fetch (.ok .timedOut (after.log [.readExpired]))
  | pending (after : World rmqtt sync) (log : List Observation) (waited : Waited before after log)
      (quick : Complete before → log = []) (cause : ∃ moment, (env moment).arrival = .never) :
      Fetch (.error .pending after)

private theorem Fetch.after_wait {middle : World rmqtt sync}
    {log : List Observation} (waited : Waited before middle log) (incomplete : ¬Complete before)
    (same : parse bound before = parse bound middle)
    {result : EStateM.Result Stop (World rmqtt sync) (Next Item)} (rest : Fetch env bound middle result) :
    Fetch env bound before result := by
  cases rest with
  | packet item after later tail synced start quick parsed sourced =>
    rw [waited.kept.version] at synced sourced
    exact .packet item after _ (waited.trans tail) synced start (fun complete => absurd complete incomplete)
      (same.trans parsed) sourced
  | rejected error after later tail _ parsed =>
    exact .rejected error after _ (waited.trans tail) (fun complete => absurd complete incomplete) (same.trans parsed)
  | truncated after later tail _ parsed => exact .truncated after _ (waited.trans tail) incomplete (same.trans parsed)
  | failed kind after later tail _ cause => exact .failed kind after _ (waited.trans tail) incomplete cause
  | ended after later tail _ parsed => exact .ended after _ (waited.trans tail) incomplete (same.trans parsed)
  | expired after later tail _ cause => exact .expired after _ (waited.trans tail) incomplete cause
  | pending after later tail _ cause =>
    exact .pending after _ (waited.trans tail) (fun complete => absurd complete incomplete) cause

private theorem Waited.decoded (world : World rmqtt sync) (decoder : MqttDecoder rmqtt) (rest : Bytes) :
    Waited world { world with decoder, readBuffer := rest } [] :=
  ⟨⟨rfl, rfl, rfl, rfl, rfl, rfl, rfl⟩, ⟨[], rfl⟩, (List.append_nil _).symm, by simp⟩

private theorem decode_error {decoder after : MqttDecoder rmqtt} {src : Bytes} {error : IoError}
    (called : decoder.decode src = (.error error, after, rest)) : ∃ reason, error = .decode reason := by
  unfold MqttDecoder.decode at called
  split at called
  · cases called
    exact ⟨_, rfl⟩
  · split at called
    · cases called
      exact ⟨_, rfl⟩
    · dsimp only at called
      split at called
      · cases called
      · split at called <;> cases called
      · cases called
        exact ⟨_, rfl⟩

theorem decodePacket_apply (world : World rmqtt sync) :
    decodePacket world =
      .ok (world.decoder.decode world.readBuffer).1
        { world with
          decoder := (world.decoder.decode world.readBuffer).2.1
          readBuffer := (world.decoder.decode world.readBuffer).2.2 } := rfl

private theorem decodePacketEof_apply (world : World rmqtt sync) :
    decodePacketEof world =
      .ok (world.decoder.decodeEof world.readBuffer).1
        { world with
          decoder := (world.decoder.decodeEof world.readBuffer).2.1
          readBuffer := (world.decoder.decodeEof world.readBuffer).2.2 } := rfl

private theorem fetch_packet {log : List Observation}
    (waited : Waited before world log) (same : parse bound before = parse bound world)
    {item : Item} {decoder : MqttDecoder rmqtt}
    (call : Framing.Call rmqtt world.version bound world.decoder world.readBuffer (.ok (some item), decoder, rest))
    (quick : Complete before → log = [] ∧ world.channel = before.channel) :
    Fetch env bound before (.ok (.done (some (.ok item))) { world with decoder, readBuffer := rest }) := by
  cases call with
  | packet _ _ _ synced start _ parsed sourced =>
    have moved := waited.trans (.decoded world decoder rest)
    rw [List.append_nil] at moved
    have next := parsed (world.incoming.map Subtype.val).flatten
    refine .packet item _ log moved ?_ start quick (same.trans ?_) ?_
    · rw [← waited.kept.version]
      exact synced
    · rw [parse, World.unread, next, parse, start]
      rfl
    · rw [← waited.kept.version]
      exact sourced

private theorem fetch_rejected {log : List Observation}
    (waited : Waited before world log) (same : parse bound before = parse bound world)
    {error : DecodeError} {decoder : MqttDecoder rmqtt}
    (call : Framing.Call rmqtt world.version bound world.decoder world.readBuffer (.error (.decode error), decoder, rest))
    (quick : Complete before → log = []) :
    Fetch env bound before (.ok (.done (some (.error (.decode error)))) { world with decoder, readBuffer := rest }) := by
  cases call with
  | error _ _ _ parsed =>
    have moved := waited.trans (.decoded world decoder rest)
    rw [List.append_nil] at moved
    refine .rejected error _ log moved quick (same.trans ?_)
    rw [parse, World.unread, parsed]

private theorem fetch_eof (lawful : rmqtt.LawfulFraming)
    {log : List Observation} (waited : Waited before world log) (incomplete : ¬Complete before)
    (same : parse bound before = parse bound world)
    (drained : world.incoming = []) (synced : Framing.Synced rmqtt world.version bound world.decoder) :
    Fetch env bound before
      (match world.decoder.decodeEof world.readBuffer with
      | (.ok (some item), decoder, rest) => .ok (.done (some (.ok item))) { world with decoder, readBuffer := rest }
      | (.error error, decoder, rest) => .ok (.done (some (.error error))) { world with decoder, readBuffer := rest }
      | (.ok none, decoder, rest) => .ok (.done none) { world with decoder, readBuffer := rest }) := by
  have call := Framing.decode_call lawful synced world.readBuffer
  unfold MqttDecoder.decodeEof
  rcases called : world.decoder.decode world.readBuffer with ⟨(_ | _ | item), decoder, rest⟩
  · rw [called] at call
    obtain ⟨reason, rfl⟩ := decode_error called
    exact fetch_rejected env waited same call (fun complete => absurd complete incomplete)
  · rw [called] at call
    have moved := waited.trans (.decoded world decoder rest)
    rw [List.append_nil] at moved
    cases call with
    | insufficient _ _ _ parsed starved =>
      have ends : parse bound before = ([], if rest.isEmpty && decoder.atFrameStart then .clean else .error .truncatedPacket) := by
        rw [same, parse, World.unread, parsed, drained, List.map_nil, List.flatten_nil, List.append_nil, starved]
      dsimp only
      by_cases clean : (rest.isEmpty && decoder.atFrameStart) = true
      · rw [if_pos clean] at ends
        simp only [clean, if_true]
        exact .ended _ log moved incomplete ends
      · rw [if_neg clean] at ends
        simp only [clean, if_false, Bool.false_eq_true]
        exact .truncated _ log moved incomplete ends
  · rw [called] at call
    exact fetch_packet env waited same call (fun complete => absurd complete incomplete)

private theorem next_fetch (lawful : rmqtt.LawfulFraming) (calls : Nat)
    (world : World rmqtt sync) (enough : world.incoming.length < calls)
    (synced : Framing.Synced rmqtt world.version bound world.decoder) :
    Fetch env bound world (next env decodePacket decodePacketEof calls world) := by
  induction calls generalizing world with
  | zero => omega
  | succ calls ih =>
    have call := Framing.decode_call lawful synced world.readBuffer
    have decided : Complete world → (world.decoder.decode world.readBuffer).1 ≠ .ok none :=
      fun complete => Framing.decode_complete lawful synced complete.1 complete.2
    have still : Waited world world [] := ⟨.refl world, ⟨[], rfl⟩, (List.append_nil _).symm, by simp⟩
    simp only [next, Run.bind_apply, decodePacket_apply]
    rcases called : world.decoder.decode world.readBuffer with ⟨(error | _ | item), decoder, rest⟩
    · rw [called] at call
      obtain ⟨reason, rfl⟩ := decode_error called
      exact fetch_rejected env still rfl call (fun _ => rfl)
    · rw [called] at call decided
      have incomplete : ¬Complete world := fun complete => decided complete rfl
      cases call with
      | insufficient _ _ after parsed =>
        simp only [Run.bind_apply, Run.get_apply, observe_apply, suspend_apply]
        set asleep : World rmqtt sync := World.suspended env (World.log
          { world with decoder, readBuffer := rest } [.awaitRead world.unflushed world.writeBuffer]) with sleeping
        have waited : Waited world asleep [.awaitRead world.unflushed world.writeBuffer] :=
          ⟨⟨rfl, rfl, rfl, rfl, rfl, rfl, rfl⟩, ⟨(env world.asked).others, rfl⟩, rfl, by simp⟩
        have same : parse bound world = parse bound asleep := parsed _
        rw [show (World.log { world with decoder, readBuffer := rest }
          [.awaitRead world.unflushed world.writeBuffer]).asked = world.asked from rfl]
        cases arrival : (env world.asked).arrival with
        | failed kind => exact .failed kind _ _ waited incomplete ⟨_, arrival⟩
        | expired => exact .expired asleep _ waited incomplete ⟨_, arrival⟩
        | never => exact .pending _ _ waited (fun complete => absurd complete incomplete) ⟨_, arrival⟩
        | ready =>
          cases arrived : world.incoming with
          | cons chunk incoming =>
            simp only [Run.bind_apply, Run.modify_apply]
            set read : World rmqtt sync := { asleep with incoming, readBuffer := asleep.readBuffer ++ chunk.val }
            obtain ⟨took, unread⟩ : Waited asleep read [] ∧ read.unread = asleep.unread := Waited.reads asleep arrived
            have parses : parse bound asleep = parse bound read := by
              rw [parse, ← unread]
              rfl
            rw [arrived, List.length_cons] at enough
            exact (ih read (by change incoming.length < calls; omega) after).after_wait env (waited.trans took) incomplete
              (same.trans parses)
          | nil =>
            simp only [Run.bind_apply, decodePacketEof_apply]
            have ends := fetch_eof env lawful waited incomplete same arrived after
            rcases eof : asleep.decoder.decodeEof asleep.readBuffer with ⟨_ | _ | _, decoder, rest⟩ <;>
              simpa only [eof, Run.pure_apply] using ends
    · rw [called] at call
      exact fetch_packet env still rfl call (fun _ => ⟨rfl, rfl⟩)

theorem nextPacket_fetch (lawful : rmqtt.LawfulFraming) (world : World rmqtt sync)
    (synced : Framing.Synced rmqtt world.version bound world.decoder) : Fetch env bound world (nextPacket env world) := by
  simp only [nextPacket, Run.bind_apply, Run.get_apply]
  exact next_fetch env lawful _ world (Nat.lt_succ_self _) synced

section
variable {related : World rmqtt sync → World rmqtt sync → Prop} [IsPreorder _ related]

/-- What holds along a wait, a read and a decode holds along `next_packet`. -/
theorem along_nextPacket (waits : ∀ unflushed writeBuffer, Run.Along related (observe (.awaitRead unflushed writeBuffer)))
    (expires : Run.Along related (observe .readExpired)) (suspends : Run.Along related (suspend env))
    (reads : ∀ world incoming readBuffer, related world { world with incoming, readBuffer })
    (decodes : ∀ world decoder readBuffer, related world { world with decoder, readBuffer }) :
    Run.Along related (nextPacket env) := by
  refine .bind .get fun world => ?_
  generalize world.incoming.length + 1 = calls
  induction calls with
  | zero => exact .throw _
  | succ calls again =>
    refine .bind (fun world => decodes world _ _) fun decoded => ?_
    rcases decoded with error | _ | item
    · exact .pure _
    · refine .bind .get fun world => .bind (waits _ _) fun _ => .bind suspends fun moment => ?_
      cases moment.arrival with
      | failed => exact .pure _
      | expired => exact .bind expires fun _ => .pure _
      | never => exact .throw _
      | ready =>
        cases world.incoming with
        | cons chunk incoming => exact .bind (.update fun world => reads world _ _) fun _ => again
        | nil =>
          refine .bind (fun world => decodes world _ _) fun decoded => ?_
          rcases decoded with error | _ | item <;> exact .pure _
    · exact .pure _

end

/-! ### Offering a publish -/

/-- What a session logs when it waits for a slot. -/
def slotWait (wait : Nat) (world : World rmqtt sync) : List Observation :=
  [.timer wait, .awaitSlot world.unflushed world.writeBuffer]

private theorem holdForSlot_admits {channel middle : EventChannel sync Publish} {publish : CodecPublish} {ticket wait replyBy later : Nat}
    (offered : Segments.Offered channel ticket (.fromCodec publish) wait replyBy later .holding middle)
    (world : World rmqtt sync) (same : world.channel = middle) :
    ∃ log admitting after ledger asked, world.asked ≤ asked ∧
      ChannelUse.Admits channel (.fromCodec publish) wait (slotWait wait world) log admitting after ledger ∧
      holdForSlot env publish ticket wait replyBy (.between channel middle) world =
        admitted publish ledger admitting { world with asked, channel := after, trace := world.trace ++ log } := by
  subst same
  simp only [holdForSlot, Run.bind_apply, Run.get_apply, observe_apply, suspend_apply]
  have trace : world.trace ++ [Observation.timer wait] ++ [.awaitSlot world.unflushed world.writeBuffer] =
    world.trace ++ slotWait wait world := List.append_assoc _ _ _
  cases (env _).waking with
  | never =>
    refine ⟨_, .holding, _, _, world.asked + 1, Nat.le_succ _, .waits offered (env world.asked).others, ?_⟩
    rw [← trace]
    rfl
  | expired =>
    refine ⟨_, _, _, _, world.asked + 1, Nat.le_succ _, .expired offered (env world.asked).others (Segments.abandon_abandoned rfl), ?_⟩
    rw [← List.append_assoc, ← trace]
    rfl
  | resumed =>
    have polled := @Segments.admitPoll_polled _ _ ((env world.asked).others.foldl EventChannel.act world.channel) _ ticket replyBy
      (env (world.asked + 1)).time (.fromCodec publish) _ rfl
    refine ⟨_, _, _, _, world.asked + 1 + 1, by omega, .resumed offered _ polled, ?_⟩
    rw [← trace]
    rfl

private theorem admitPublish_apply (publish : CodecPublish) (wait replyBy : Nat) (world : World rmqtt sync) :
    admitPublish env publish wait replyBy world =
      match world.channel.admitWith world.nextTicket (.fromCodec publish) wait replyBy
        (env world.asked).time (env (world.asked + 1)).time with
      | (admitting, channel) =>
        (match admitting with
        | .holding => holdForSlot env publish world.nextTicket wait replyBy (.between world.channel channel)
        | ended => admitted publish (.between world.channel channel) ended : Session rmqtt sync Admission)
          { world with asked := world.asked + 1 + 1, channel, nextTicket := world.nextTicket + 1 } := rfl

private theorem admitPublish_admits (publish : CodecPublish) (wait replyBy : Nat) (world : World rmqtt sync) :
    ∃ log admitting channel ledger asked, world.asked ≤ asked ∧
      ChannelUse.Admits world.channel (.fromCodec publish) wait (slotWait wait world) log admitting channel ledger ∧
      admitPublish env publish wait replyBy world = admitted publish ledger admitting (world.offered asked channel log) := by
  rcases ran : world.channel.admitWith world.nextTicket (.fromCodec publish) wait replyBy
    (env world.asked).time (env (world.asked + 1)).time with ⟨admitting, channel⟩
  have offered := Segments.admitWith_offered ran
  rw [admitPublish_apply, ran]
  cases admitting with
  | done | panicked =>
    refine ⟨[], _, channel, _, world.asked + 1 + 1, by omega, .atOnce offered (by rintro ⟨⟩), ?_⟩
    rw [World.offered, List.append_nil]
  | holding =>
    obtain ⟨log, admitting, after, ledger, asked, later, admits, ran⟩ := holdForSlot_admits env offered
      { world with asked := world.asked + 1 + 1, channel, nextTicket := world.nextTicket + 1 } rfl
    exact ⟨log, admitting, after, ledger, asked, Nat.le_of_succ_le (Nat.le_of_succ_le later), admits, ran⟩

/-- What `deliver_publish` makes of an admission. -/
def ingestStep (ingestDeadline idleWait : Nat) : Admission → IngestStep
  | .noReplyTime => .idleTimeout
  | .dropped => if idleWait < ingestDeadline then .idleTimeout else .continue (decide (min ingestDeadline idleWait ≠ 0))
  | .enqueuedAfterHold => .continue true
  | .enqueued | .receiverClosed => .continue false

theorem deliverPublish_admits (publish : CodecPublish) (idleLeft ingestDeadline : Nat) (world : World rmqtt sync) :
    let idleWait := idleLeft - ingestReplyReserve
    let wait := min ingestDeadline idleWait
    ∃ log admitting channel ledger asked, world.asked ≤ asked ∧
      ChannelUse.Admits world.channel (.fromCodec publish) wait (slotWait wait world) log admitting channel ledger ∧
      deliverPublish env publish idleLeft ingestDeadline world =
        match admitting with
        | .done admission => .ok (ingestStep ingestDeadline idleWait admission)
          (world.offered asked channel (.offered publish idleWait :: (log ++ [.admitted publish admission ledger])))
        | .holding => .error .pending (world.offered asked channel (.offered publish idleWait :: log))
        | .panicked => .error .panicked (world.offered asked channel (.offered publish idleWait :: log)) := by
  intro idleWait wait
  obtain ⟨log, admitting, channel, ledger, asked, later, admits, ran⟩ := admitPublish_admits env publish wait
    ((env world.asked).time + idleLeft) (world.answered.log [.offered publish idleWait])
  refine ⟨log, admitting, channel, ledger, asked, Nat.le_of_succ_le later, admits, ?_⟩
  simp only [deliverPublish, Run.bind_apply, now_apply, observe_apply]
  rw [ran]
  have trace (more : List Observation) : world.trace ++ .offered publish idleWait :: more =
    world.trace ++ [.offered publish idleWait] ++ more := List.append_cons ..
  simp only [World.offered]
  cases admitting with
  | done admission =>
    dsimp only
    rw [trace, ← List.append_assoc _ log]
    cases admission with
    | dropped =>
      by_cases short : idleLeft - ingestReplyReserve < ingestDeadline
      · simp only [ingestStep, idleWait, short, if_true]
        rfl
      · simp only [ingestStep, idleWait, short, if_false]
        rfl
    | _ => rfl
  | holding | panicked =>
    rw [trace]
    rfl

end Proofs.SessionSteps
end UringMqtt

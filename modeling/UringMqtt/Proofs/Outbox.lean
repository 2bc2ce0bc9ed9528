import UringMqtt.Proofs.Conversation
import UringMqtt.Proofs.SessionSteps

/-! The bytes of a session on their way out. While nothing failed, the bytes the
socket took and the bytes still queued are together the packets handed over so
far; after a failed or timed-out flush or encode nothing more is written. -/

namespace UringMqtt.Proofs.Outbox
open Lib SessionSteps Conversation

variable {rmqtt : Rmqtt} {sync : LocalSync} (env : Nat → Moment)

/-! ### Reading the log -/

def wroteBytes (log : List Observation) : Bytes :=
  log.flatMap fun
    | .wrote bytes => bytes
    | _ => []

def encoding (rmqtt : Rmqtt) (version : ProtocolVersion) (packet : MqttPacket) : Bytes :=
  (rmqtt.encode version packet).getD []

def sentBytes (rmqtt : Rmqtt) (log : List Observation) : Bytes :=
  log.flatMap fun
    | .sent version packet => encoding rmqtt version packet
    | _ => []

def Halting : Observation → Bool
  | .writeFailed | .writeExpired => true
  | _ => false

/-- A wait on the socket or on the event channel holds no reply back, and neither
does a flush that went through. -/
def CleanWait (flushed : Prop) : Observation → Prop
  | .awaitRead unflushed writeBuffer | .awaitSlot unflushed writeBuffer =>
    unflushed = none ∧ writeBuffer = [] ∧ flushed
  | .flushed => flushed
  | _ => True

/-- An observation that neither sends nor writes nor fails, nor waits while bytes are queued. -/
structure Neutral (writeBuffer : Bytes) (observation : Observation) : Prop where
  unwritten : wroteBytes [observation] = []
  unsent : ∀ rmqtt, sentBytes rmqtt [observation] = []
  healthy : Halting observation = false
  clean : CleanWait (writeBuffer = []) observation

def Silent : Observation → Bool
  | .sent _ _ | .wrote _ | .flushed | .writeFailed | .writeExpired | .awaitRead _ _ | .awaitSlot _ _ => false
  | _ => true

variable {observation : Observation} {log : List Observation}

theorem Neutral.of_silent (silent : Silent observation = true) (writeBuffer : Bytes) :
    Neutral writeBuffer observation := by
  cases observation <;> first | exact ⟨rfl, fun _ => rfl, rfl, trivial⟩ | cases silent

@[simp] theorem wroteBytes_nil : wroteBytes [] = [] := rfl

@[simp] theorem sentBytes_nil : sentBytes rmqtt [] = [] := rfl

@[simp] theorem wroteBytes_append (first second : List Observation) :
    wroteBytes (first ++ second) = wroteBytes first ++ wroteBytes second := by
  simp [wroteBytes]

@[simp] theorem sentBytes_append (first second : List Observation) :
    sentBytes rmqtt (first ++ second) = sentBytes rmqtt first ++ sentBytes rmqtt second := by
  simp [sentBytes]

private theorem bytes_neutral {writeBuffer : Bytes} {log : List Observation}
    (neutral : ∀ observation ∈ log, Neutral writeBuffer observation) : wroteBytes log = [] ∧ sentBytes rmqtt log = [] := by
  induction log with
  | nil => exact ⟨rfl, rfl⟩
  | cons observation rest ih =>
    obtain ⟨written, sent⟩ := ih fun other member => neutral other (by simp [member])
    have first := neutral observation (by simp)
    rw [← List.singleton_append, wroteBytes_append, sentBytes_append, first.unwritten, first.unsent, written, sent]
    exact ⟨rfl, rfl⟩

theorem CleanWait.mono {flushed later : Prop} (implied : flushed → later) {observation : Observation}
    (clean : CleanWait flushed observation) : CleanWait later observation := by
  cases observation <;> first | exact trivial | exact implied clean | exact ⟨clean.1, clean.2.1, implied clean.2.2⟩

/-- Every wait and every flush in the log found every packet handed over before it on the wire. -/
def CleanLog (rmqtt : Rmqtt) (log : List Observation) : Prop :=
  ∀ before observation after, log = before ++ observation :: after →
    CleanWait (wroteBytes before = sentBytes rmqtt before) observation

theorem CleanLog.append {first second : List Observation} (early : CleanLog rmqtt first)
    (late : ∀ before observation after, second = before ++ observation :: after →
      CleanWait (wroteBytes (first ++ before) = sentBytes rmqtt (first ++ before)) observation) :
    CleanLog rmqtt (first ++ second) := by
  intro before observation after split
  rcases List.append_eq_append_iff.mp split with ⟨middle, rfl, same⟩ | ⟨middle, same, rest⟩
  · exact late middle observation after same
  · rcases middle with _ | ⟨head, tail⟩
    · rw [List.append_nil] at same
      rw [← same, ← List.append_nil first]
      exact late [] observation after rest.symm
    · rw [List.cons_append, List.cons.injEq] at rest
      exact early before observation tail (by rw [same, rest.1])

theorem CleanLog.snoc (early : CleanLog rmqtt log)
    (clean : CleanWait False observation) : CleanLog rmqtt (log ++ [observation]) := by
  refine early.append ?_
  intro before other after split
  rcases before with _ | ⟨head, tail⟩
  · obtain ⟨rfl, _⟩ := List.cons.inj split
    exact clean.mono False.elim
  · simp at split

/-! ### The invariant -/

structure Safe (start : List Observation) (base : Bytes) (log : List Observation) (world : World rmqtt sync) :
    Prop where
  trace : world.trace = start ++ log
  written : world.written = base ++ wroteBytes log
  sent : wroteBytes log <+: sentBytes rmqtt log
  waits : CleanLog rmqtt log
  silent : ∀ before observation after, log = before ++ observation :: after → Halting observation = true →
    wroteBytes after = []

/-- What holds while nothing failed: every byte handed over was written or is queued. -/
structure Healthy (start : List Observation) (base : Bytes) (log : List Observation) (world : World rmqtt sync) :
    Prop where
  trace : world.trace = start ++ log
  written : world.written = base ++ wroteBytes log
  total : wroteBytes log ++ world.writeBuffer = sentBytes rmqtt log
  waits : CleanLog rmqtt log
  healthy : ∀ observation ∈ log, Halting observation = false

def Clean (world : World rmqtt sync) : Prop := world.unflushed = none → world.writeBuffer = []

section
variable {start : List Observation} {base : Bytes} {log : List Observation} {world : World rmqtt sync}

theorem Healthy.safe (healthy : Healthy start base log world) : Safe start base log world where
  trace := healthy.trace
  written := healthy.written
  sent := ⟨world.writeBuffer, healthy.total⟩
  waits := healthy.waits
  silent := by
    intro before observation after split halting
    rw [healthy.healthy observation (by rw [split]; simp)] at halting
    cases halting

variable {after : World rmqtt sync}

theorem Safe.same (safe : Safe start base log world)
    (trace : after.trace = world.trace) (written : after.written = world.written) : Safe start base log after :=
  ⟨trace.trans safe.trace, written.trans safe.written, safe.sent, safe.waits, safe.silent⟩

section
variable (healthy : Healthy start base log world)
include healthy

theorem Healthy.same (trace : after.trace = world.trace) (written : after.written = world.written)
    (writeBuffer : after.writeBuffer = world.writeBuffer) : Healthy start base log after :=
  ⟨trace.trans healthy.trace, written.trans healthy.written, by rw [writeBuffer, healthy.total], healthy.waits,
    healthy.healthy⟩

omit healthy in
private theorem both {property : Observation → Prop} {first second : List Observation}
    (early : ∀ observation ∈ first, property observation) (late : ∀ observation ∈ second, property observation) :
    ∀ observation ∈ first ++ second, property observation := fun observation member =>
  (List.mem_append.mp member).elim (early observation) (late observation)

theorem Healthy.quiet {more : List Observation} (trace : after.trace = world.trace ++ more)
    (written : after.written = world.written) (writeBuffer : after.writeBuffer = world.writeBuffer)
    (neutral : ∀ observation ∈ more, Neutral world.writeBuffer observation) :
    Healthy start base (log ++ more) after where
  trace := by rw [trace, healthy.trace, List.append_assoc]
  written := by rw [written, healthy.written, wroteBytes_append, (@bytes_neutral rmqtt _ _ neutral).1, List.append_nil]
  total := by
    obtain ⟨unwritten, unsent⟩ := @bytes_neutral rmqtt _ _ neutral
    rw [wroteBytes_append, sentBytes_append, unwritten, unsent, List.append_nil, List.append_nil, writeBuffer,
      healthy.total]
  waits := by
    refine healthy.waits.append ?_
    intro before observation after split
    obtain ⟨unwritten, unsent⟩ := @bytes_neutral rmqtt _ before fun other member =>
      neutral other (by rw [split]; exact List.mem_append_left _ member)
    refine (neutral observation (by rw [split]; simp)).clean.mono fun empty => ?_
    rw [wroteBytes_append, sentBytes_append, unwritten, unsent, ← healthy.total, empty, List.append_nil, List.append_nil]
  healthy := both healthy.healthy fun observation member => (neutral observation member).healthy

theorem Healthy.noted (observation : Observation)
    (neutral : Neutral world.writeBuffer observation) :
    Healthy start base (log ++ [observation]) (world.log [observation]) :=
  healthy.quiet rfl rfl rfl (by simpa using neutral)

theorem Healthy.handed (version : ProtocolVersion) (packet : MqttPacket) :
    Healthy start base (log ++ [.sent version packet])
      ((world.log [.sent version packet]).appended (encoding rmqtt version packet)) where
  trace := by simp [World.log, World.appended, healthy.trace]
  written := by simp [World.log, World.appended, healthy.written, wroteBytes]
  total := by
    rw [sentBytes_append, ← healthy.total]
    simp [World.log, World.appended, wroteBytes, sentBytes]
  waits := healthy.waits.snoc trivial
  healthy := both healthy.healthy (by simp [Halting])

theorem Healthy.took (count : Nat) :
    Healthy start base (log ++ [.wrote (world.writeBuffer.take count)]) (world.took count) where
  trace := by simp [World.took, healthy.trace]
  written := by simp [World.took, healthy.written, wroteBytes]
  total := by
    rw [wroteBytes_append, sentBytes_append, ← healthy.total]
    simp [World.took, wroteBytes, sentBytes]
  waits := healthy.waits.snoc trivial
  healthy := both healthy.healthy (by simp [Halting])

theorem Healthy.halted (observation : Observation)
    (unwritten : wroteBytes [observation] = []) (clean : CleanWait False observation) :
    Safe start base (log ++ [observation]) (world.log [observation]) where
  trace := by simp [World.log, healthy.trace]
  written := by simp [World.log, healthy.written, unwritten]
  sent := by
    rw [wroteBytes_append, sentBytes_append, unwritten, List.append_nil]
    exact healthy.safe.sent.trans (List.prefix_append _ _)
  waits := healthy.waits.snoc clean
  silent := by
    intro before other after split halting
    rcases after.eq_nil_or_concat with rfl | ⟨middle, last, rfl⟩
    · rfl
    · -- Behind a failure that is not the last observation there would be an earlier one.
      rw [List.concat_eq_append, ← List.cons_append, ← List.append_assoc] at split
      obtain ⟨earlier, _⟩ := List.append_inj' split rfl
      rw [healthy.healthy other (by rw [earlier]; simp)] at halting
      cases halting

end

end

theorem Healthy.before {start : List Observation} {base : Bytes} {more : List Observation}
    {world after : World rmqtt sync} (healthy : Healthy start base log world) (empty : world.writeBuffer = [])
    (safe : Safe world.trace world.written more after) : Safe start base (log ++ more) after := by
  have total := healthy.total
  rw [empty, List.append_nil] at total
  refine ⟨?_, ?_, ?_, ?_, ?_⟩
  · rw [safe.trace, healthy.trace, List.append_assoc]
  · rw [safe.written, healthy.written, wroteBytes_append, List.append_assoc]
  · rw [wroteBytes_append, sentBytes_append, total]
    exact (List.prefix_append_right_inj _).mpr safe.sent
  · refine healthy.waits.append ?_
    intro before observation rest split
    refine (safe.waits before observation rest split).mono fun same => ?_
    rw [wroteBytes_append, sentBytes_append, total, same]
  · intro before observation rest split halting
    rcases List.append_eq_append_iff.mp split with ⟨middle, rfl, same⟩ | ⟨middle, same, tail⟩
    · exact safe.silent middle observation rest same halting
    · rcases middle with _ | ⟨head, middle⟩
      · exact safe.silent [] observation rest tail.symm halting
      · -- The failure would lie in the stretch in front, where nothing failed.
        rw [List.cons_append, List.cons.injEq] at tail
        rw [healthy.healthy observation (by rw [same, tail.1]; simp)] at halting
        cases halting

/-! ### The operations on the outbox -/

structure Steady (view : sync.Room → Semaphore Nat) (before after : World rmqtt sync) : Prop where
  incoming : after.incoming = before.incoming
  readBuffer : after.readBuffer = before.readBuffer
  decoder : after.decoder = before.decoder
  version : after.version = before.version
  lastPacketTime : after.lastPacketTime = before.lastPacketTime
  holdDebt : after.holdDebt = before.holdDebt
  awaiting : after.awaiting = before.awaiting
  coherent : ChannelUse.Coherent view before.channel → ChannelUse.Coherent view after.channel

private theorem Steady.refl (view : sync.Room → Semaphore Nat) (world : World rmqtt sync) : Steady view world world :=
  ⟨rfl, rfl, rfl, rfl, rfl, rfl, rfl, id⟩

theorem Steady.trans {view : sync.Room → Semaphore Nat} {first second third : World rmqtt sync}
    (one : Steady view first second) (two : Steady view second third) : Steady view first third where
  incoming := two.incoming.trans one.incoming
  readBuffer := two.readBuffer.trans one.readBuffer
  decoder := two.decoder.trans one.decoder
  version := two.version.trans one.version
  lastPacketTime := two.lastPacketTime.trans one.lastPacketTime
  holdDebt := two.holdDebt.trans one.holdDebt
  awaiting := two.awaiting.trans one.awaiting
  coherent := two.coherent ∘ one.coherent

section
variable {view : sync.Room → Semaphore Nat} {start : List Observation} {base : Bytes} {log : List Observation}

variable (view start base log) in
structure Went (more : List Observation) (before after : World rmqtt sync) : Prop where
  healthy : Healthy start base (log ++ more) after
  steady : Steady view before after

variable (view start base log) in
structure Broke (more : List Observation) (before after : World rmqtt sync) : Prop where
  safe : Safe start base (log ++ more) after
  steady : Steady view before after
  noted : ∃ observation ∈ more, Halting observation = true

variable {one two more : List Observation} {first second third world : World rmqtt sync} {offer : Option MqttPacket}

theorem Went.trans
    (went : Went view start base log one first second) (next : Went view start base (log ++ one) two second third) :
    Went view start base log (one ++ two) first third :=
  ⟨by rw [← List.append_assoc]; exact next.healthy, went.steady.trans next.steady⟩

theorem Went.broke
    (went : Went view start base log one first second) (next : Broke view start base (log ++ one) two second third) :
    Broke view start base log (one ++ two) first third := by
  obtain ⟨observation, member, halting⟩ := next.noted
  exact ⟨by rw [← List.append_assoc]; exact next.safe, went.steady.trans next.steady,
    ⟨observation, List.mem_append_right _ member, halting⟩⟩

variable (view start base log) in
inductive Writes (before : World rmqtt sync) :
    EStateM.Result Stop (World rmqtt sync) (Timed (Except IoError Unit)) → Prop
  | done (after : World rmqtt sync) (more : List Observation) (went : Went view start base log more before after)
      (mechanical : ∀ observation ∈ more, Mechanical observation) (flushed : .flushed ∈ more)
      (empty : after.writeBuffer = []) (unflushed : after.unflushed = before.unflushed) :
      Writes before (.ok (.done (.ok ())) after)
  | failed (error : IoError) (after : World rmqtt sync) (more : List Observation)
      (broke : Broke view start base log more before after)
      (mechanical : ∀ observation ∈ more, Mechanical observation) (unflushed : after.unflushed = before.unflushed) :
      Writes before (.ok (.done (.error error)) after)
  | expired (after : World rmqtt sync) (more : List Observation) (broke : Broke view start base log more before after)
      (mechanical : ∀ observation ∈ more, Mechanical observation) (unflushed : after.unflushed = before.unflushed) :
      Writes before (.ok .timedOut after)
  | hung (after : World rmqtt sync) (more : List Observation) (safe : Safe start base (log ++ more) after)
      (mechanical : ∀ observation ∈ more, Mechanical observation)
      (cause : ∃ moment taken, (env moment).writing = .never taken) :
      Writes before (.error .pending after)

theorem flush_writes (lawful : sync.Lawful view) (healthy : Healthy start base log world) :
    Writes env view start base log world (flush env world) := by
  rw [flush_apply]
  have asleep : Healthy start base log (world.suspended env) := healthy.same rfl rfl rfl
  have calm : Steady view world (world.suspended env) :=
    ⟨rfl, rfl, rfl, rfl, rfl, rfl, rfl, fun coherent => coherent.others lawful _⟩
  have steady (count : Nat) (last : Observation) : Steady view world (((world.suspended env).took count).log [last]) :=
    calm.trans ⟨rfl, rfl, rfl, rfl, rfl, rfl, rfl, id⟩
  -- How the write ended is the last thing it logs.
  have breaks (count : Nat) {last : Observation} (halting : Halting last = true) (unwritten : wroteBytes [last] = [])
      (clean : CleanWait False last) :
      Broke view start base log [.wrote (world.writeBuffer.take count), last] world
        (((world.suspended env).took count).log [last]) := by
    have safe := (asleep.took count).halted last unwritten clean
    rw [List.append_assoc] at safe
    exact ⟨safe, steady count last, ⟨last, by simp, halting⟩⟩
  cases writing : (env world.asked).writing with
  | done =>
    have full := (asleep.took world.writeBuffer.length).noted .flushed
      ⟨rfl, fun _ => rfl, rfl, List.drop_length⟩
    rw [List.append_assoc] at full
    exact .done _ _ ⟨full, steady _ _⟩ (by simp [Mechanical]) (by simp) List.drop_length rfl
  | failed kind taken => exact .failed _ _ _ (breaks taken rfl rfl trivial) (by simp [Mechanical]) rfl
  | expired taken => exact .expired _ _ (breaks taken rfl rfl trivial) (by simp [Mechanical]) rfl
  | never taken => exact .hung _ _ (asleep.took taken).safe (by simp [Mechanical]) ⟨_, taken, writing⟩

variable (view start base log) in
inductive Flushed (before : World rmqtt sync) : EStateM.Result Stop (World rmqtt sync) Unit → Prop
  | done (after : World rmqtt sync) (more : List Observation) (went : Went view start base log more before after)
      (mechanical : ∀ observation ∈ more, Mechanical observation) (empty : after.writeBuffer = [])
      (dropped : after.unflushed = none) : Flushed before (.ok () after)
  | failed (error : Error) (after : World rmqtt sync) (more : List Observation)
      (broke : Broke view start base log more before after)
      (mechanical : ∀ observation ∈ more, Mechanical observation) (dropped : after.unflushed = none) :
      Flushed before (.error (.error error) after)
  | hung (after : World rmqtt sync) (more : List Observation) (safe : Safe start base (log ++ more) after)
      (mechanical : ∀ observation ∈ more, Mechanical observation)
      (cause : ∃ moment taken, (env moment).writing = .never taken) :
      Flushed before (.error .pending after)

theorem flushReplies_flushed (lawful : sync.Lawful view) (healthy : Healthy start base log world) (clean : Clean world) :
    Flushed env view start base log world (flushReplies env world) := by
  rw [flushReplies_apply]
  cases queued : world.unflushed with
  | none =>
    refine .done world [] ⟨?_, .refl view world⟩ (by simp) (clean queued) queued
    rw [List.append_nil]
    exact healthy
  | some replies =>
    dsimp only
    set left := replies.flushBy - (env world.asked).time
    set begun : World rmqtt sync := World.answered { world with unflushed := none } with beginning
    have ready : Healthy start base log begun := healthy.same rfl rfl rfl
    split
    · -- The deadline has passed: a timeout with no write.
      exact .failed .timeout _ [.writeExpired]
        ⟨ready.halted .writeExpired rfl trivial, ⟨rfl, rfl, rfl, rfl, rfl, rfl, rfl, id⟩, ⟨.writeExpired, by simp, rfl⟩⟩
        (by simp [Mechanical]) rfl
    · have armed : Went view start base log [.timer left] world (begun.log [.timer left]) :=
        ⟨ready.noted _ (.of_silent rfl _), ⟨rfl, rfl, rfl, rfl, rfl, rfl, rfl, id⟩⟩
      have timer : ∀ observation ∈ [Observation.timer left], Mechanical observation := by simp [Mechanical]
      have writes := flush_writes env lawful armed.healthy
      generalize flush env (begun.log [.timer left]) = result at writes ⊢
      cases writes with
      | done after more went mechanical _ empty unflushed =>
        exact .done after _ (armed.trans went) (both timer mechanical) empty unflushed
      | failed error after more broke mechanical unflushed =>
        exact .failed _ after _ (armed.broke broke) (both timer mechanical) unflushed
      | expired after more broke mechanical unflushed =>
        exact .failed _ after _ (armed.broke broke) (both timer mechanical) unflushed
      | hung after more safe mechanical cause =>
        rw [List.append_assoc] at safe
        exact .hung after _ safe (both timer mechanical) cause

/-- What handing over at most one packet logs: whether it went to the encoder,
and nothing but writing around it. -/
inductive Handing (version : ProtocolVersion) (offer : Option MqttPacket) : Bool → List Observation → Prop
  | withheld {log : List Observation} (mechanical : ∀ observation ∈ log, Mechanical observation) :
      Handing version offer false log
  | handed {packet : MqttPacket} {before after : List Observation} (offered : offer = some packet)
      (early : ∀ observation ∈ before, Mechanical observation) (late : ∀ observation ∈ after, Mechanical observation) :
      Handing version offer true (before ++ .sent version packet :: after)

theorem Handing.behind {version : ProtocolVersion} {handed : Bool} (mechanical : ∀ observation ∈ one, Mechanical observation)
    (handing : Handing version offer handed two) : Handing version offer handed (one ++ two) := by
  cases handing with
  | withheld late => exact .withheld (both mechanical late)
  | handed offered early late =>
    rw [← List.append_assoc]
    exact .handed offered (both mechanical early) late

theorem Handing.before {version : ProtocolVersion} {handed : Bool} (handing : Handing version offer handed one)
    (mechanical : ∀ observation ∈ two, Mechanical observation) : Handing version offer handed (one ++ two) := by
  cases handing with
  | withheld early => exact .withheld (both early mechanical)
  | handed offered early late =>
    rw [List.append_assoc, List.cons_append]
    exact .handed offered early (both late mechanical)

theorem Handing.run {State : Type} {step : State → Observation → State → Prop} {first state after : State}
    {version : ProtocolVersion} {handed : Bool} {log : List Observation}
    (handing : Handing version offer handed more) (run : Runs step first log state)
    (early : ∀ observation, Mechanical observation → step state observation state)
    (late : ∀ observation, Mechanical observation → step after observation after)
    (sends : ∀ packet, offer = some packet → step state (.sent version packet) after) :
    Runs step first (log ++ more) (if handed then after else state) := by
  cases handing with
  | withheld mechanical => exact run.append (.stay fun observation member => early observation (mechanical observation member))
  | handed offered front back =>
    have before := run.append (.stay fun observation member => early observation (front observation member))
    have sent := before.next (sends _ offered)
    rw [List.append_cons, ← List.append_assoc, ← List.append_assoc]
    exact sent.append (.stay fun observation member => late observation (back observation member))

variable (view start base log) in
inductive Queued (before : World rmqtt sync) (packet : MqttPacket) :
    EStateM.Result Stop (World rmqtt sync) Unit → Prop
  | done (after : World rmqtt sync) (more : List Observation) (went : Went view start base log more before after)
      (handing : Handing before.version (some packet) true more) (coming : after.unflushed.isSome) :
      Queued before packet (.ok () after)
  | failed (error : Error) (after : World rmqtt sync) (more : List Observation) (handed : Bool)
      (broke : Broke view start base log more before after) (handing : Handing before.version (some packet) handed more)
      (dropped : after.unflushed = none) : Queued before packet (.error (.error error) after)
  | hung (after : World rmqtt sync) (more : List Observation) (safe : Safe start base (log ++ more) after)
      (mechanical : ∀ observation ∈ more, Mechanical observation)
      (cause : ∃ moment taken, (env moment).writing = .never taken) :
      Queued before packet (.error .pending after)

private theorem Queued.behind {packet : MqttPacket}
    (went : Went view start base log one first second) (mechanical : ∀ observation ∈ one, Mechanical observation)
    {result : EStateM.Result Stop (World rmqtt sync) Unit}
    (queued : Queued env view start base (log ++ one) second packet result) :
    Queued env view start base log first packet result := by
  cases queued with
  | done after two next handing coming =>
    rw [went.steady.version] at handing
    exact .done after _ (went.trans next) (handing.behind mechanical) coming
  | failed error after two handed next handing dropped =>
    rw [went.steady.version] at handing
    exact .failed error after _ handed (went.broke next) (handing.behind mechanical) dropped
  | hung after two safe late cause =>
    rw [List.append_assoc] at safe
    exact .hung after _ safe (both mechanical late) cause

private theorem encodeReply_queued (healthy : Healthy start base log world)
    (below : world.writeBuffer.length < writeBackpressureBoundary) (packet : MqttPacket) (flushBy : Nat)
    (context : TimeoutContext) :
    Queued env view start base log world packet (encodeReply env packet flushBy context world) := by
  simp only [encodeReply, Run.bind_apply, ask_apply, observe_apply]
  set left := flushBy - (env world.asked).time
  set timed := (world.answered).log [.timer left]
  have ready : Healthy start base log world.answered := healthy.same rfl rfl rfl
  have armed : Went view start base log [.timer left] world timed :=
    ⟨ready.noted _ (.of_silent rfl _), ⟨rfl, rfl, rfl, rfl, rfl, rfl, rfl, id⟩⟩
  refine .behind env armed (by simp [Mechanical]) ?_
  split
  · -- The timer of the encode ran out.
    exact .failed .timeout _ [.writeExpired] false
      ⟨(armed.healthy.halted .writeExpired rfl trivial).same rfl rfl, ⟨rfl, rfl, rfl, rfl, rfl, rfl, rfl, id⟩,
        ⟨.writeExpired, by simp, rfl⟩⟩ (.withheld (by simp [Mechanical])) rfl
  · rw [Run.bind_apply, send_apply env packet (show timed.writeBuffer.length < _ from below), encode_apply]
    have handed := armed.healthy.handed timed.version packet
    have handing (after : List Observation) (late : ∀ observation ∈ after, Mechanical observation) :
        Handing timed.version (some packet) true (.sent timed.version packet :: after) :=
      @Handing.handed _ _ packet [] after rfl (by simp) late
    cases encoded : rmqtt.encode timed.version packet with
    | some bytes =>
      rw [encoding, encoded, Option.getD_some] at handed
      exact .done _ [.sent timed.version packet] ⟨handed.same rfl rfl rfl, ⟨rfl, rfl, rfl, rfl, rfl, rfl, rfl, id⟩⟩
        (handing [] (by simp)) rfl
    | none =>
      have failed := handed.halted .writeFailed rfl trivial
      rw [List.append_assoc] at failed
      refine .failed (.io .encode) _ [.sent timed.version packet, .writeFailed] true
        ⟨failed.same ?_ rfl, ⟨rfl, rfl, rfl, rfl, rfl, rfl, rfl, id⟩, ⟨.writeFailed, by simp, rfl⟩⟩
        (handing [.writeFailed] (by simp [Mechanical])) rfl
      simp [World.log, World.appended]

theorem queueReply_queued (lawful : sync.Lawful view)
    (healthy : Healthy start base log world) (clean : Clean world) (packet : MqttPacket) (deadline : Nat)
    (context : TimeoutContext) :
    Queued env view start base log world packet (queueReply env packet deadline context world) := by
  simp only [queueReply, Run.bind_apply, now_apply, Run.get_apply]
  have begun : Went view start base log [] world world.answered := by
    refine ⟨?_, ⟨rfl, rfl, rfl, rfl, rfl, rfl, rfl, id⟩⟩
    rw [List.append_nil]
    exact healthy.same rfl rfl rfl
  refine .behind env begun (by simp) ?_
  split
  · -- At the boundary the queue is flushed first, and is empty afterwards.
    rw [Run.bind_apply]
    have flushed := flushReplies_flushed env lawful begun.healthy clean
    generalize flushReplies env world.answered = result at flushed ⊢
    cases flushed with
    | done after more went mechanical empty =>
      have room : after.writeBuffer.length < writeBackpressureBoundary := by
        rw [empty]
        decide
      exact .behind env went mechanical (encodeReply_queued env went.healthy room packet _ context)
    | failed error after more broke mechanical dropped =>
      exact .failed error after more false broke (.withheld mechanical) dropped
    | hung after more safe mechanical cause => exact .hung after more safe mechanical cause
  next small => exact encodeReply_queued env begun.healthy (Nat.lt_of_not_le small) packet _ context

/-! ### Closing with a violation -/

variable (start base log) in
/-- Everything a violation close can do. It always reports the violation; if
nothing failed on the way, every byte handed over is on the wire. -/
inductive Closed (version : ProtocolVersion)
    (violation : Violation) (offer : Option MqttPacket) : EStateM.Result Stop (World rmqtt sync) SessionOutcome → Prop
  | closed (after : World rmqtt sync) (more : List Observation) (handed : Bool)
      (safe : Safe start base (log ++ .violated violation :: more) after) (handing : Handing version offer handed more)
      (whole : (∀ observation ∈ more, Halting observation = false) →
        wroteBytes (log ++ .violated violation :: more) = sentBytes rmqtt (log ++ .violated violation :: more) ∧
          (offer.isSome → handed = true)) :
      Closed version violation offer (.ok .violation after)
  | hung (after : World rmqtt sync) (more : List Observation) (handed : Bool)
      (safe : Safe start base (log ++ .violated violation :: more) after) (handing : Handing version offer handed more)
      (cause : ∃ moment taken, (env moment).writing = .never taken) :
      Closed version violation offer (.error .pending after)

private theorem close_flush (lawful : sync.Lawful view) {version : ProtocolVersion} {violation : Violation} {handed : Bool}
    (healthy : Healthy start base (log ++ .violated violation :: more) world) (clean : Clean world)
    (handing : Handing version offer handed more) (said : offer.isSome → handed = true) :
    Closed env start base log version violation offer
      ((do
        let _ ← attempt (flushReplies env)
        return .violation : Session rmqtt sync SessionOutcome) world) := by
  have flushed := flushReplies_flushed env lawful healthy clean
  rw [Run.bind_apply, attempt_apply]
  generalize flushReplies env world = result at flushed ⊢
  have joined (two : List Observation) :
      log ++ .violated violation :: more ++ two = log ++ .violated violation :: (more ++ two) := by simp
  cases flushed with
  | done after two went mechanical empty =>
    have final := went.healthy
    rw [joined] at final
    refine .closed after (more ++ two) handed final.safe (handing.before mechanical) (fun _ => ⟨?_, said⟩)
    have total := final.total
    rwa [empty, List.append_nil] at total
  | failed error after two broke mechanical =>
    have safe := broke.safe
    rw [joined] at safe
    refine .closed after (more ++ two) handed safe (handing.before mechanical) (fun quiet => ?_)
    obtain ⟨observation, member, halting⟩ := broke.noted
    rw [quiet observation (List.mem_append_right _ member)] at halting
    cases halting
  | hung after two safe mechanical cause =>
    rw [joined] at safe
    exact .hung after (more ++ two) handed safe (handing.before mechanical) cause

theorem closeWithViolation_closed (lawful : sync.Lawful view)
    (healthy : Healthy start base log world) (clean : Clean world) (violation : Violation) (deadline : Nat)
    (maxPacketSize : Option NonZeroU32) :
    Closed env start base log world.version violation (violation.disconnect rmqtt world.version maxPacketSize)
      (closeWithViolation env violation deadline maxPacketSize world) := by
  have noted : Healthy start base (log ++ [.violated violation]) (world.log [.violated violation]) :=
    healthy.noted _ (.of_silent rfl _)
  simp only [closeWithViolation, Run.bind_apply, observe_apply, Run.get_apply]
  rw [show (world.log [.violated violation]).version = world.version from rfl]
  cases violation.disconnect rmqtt world.version maxPacketSize with
  | none => exact close_flush env lawful noted clean (.withheld (by simp)) (by rintro ⟨⟩)
  | some packet =>
    have queued := queueReply_queued env lawful noted clean packet deadline .disconnectFlush
    dsimp only
    rw [Run.bind_apply, attempt_apply]
    generalize queueReply env packet deadline .disconnectFlush (world.log [.violated violation]) = result at queued ⊢
    cases queued with
    | done after more went handing coming =>
      have final := went.healthy
      rw [List.append_assoc, List.singleton_append] at final
      refine close_flush env lawful final ?_ handing (fun _ => rfl)
      intro none
      rw [none] at coming
      cases coming
    | failed error after more handed broke handing dropped =>
      -- Nothing is left to flush, so the last flush does nothing.
      have safe := broke.safe
      rw [List.append_assoc, List.singleton_append] at safe
      simp only [Run.bind_apply, attempt_apply, flushReplies_apply, dropped]
      refine .closed after more handed safe handing (fun quiet => ?_)
      obtain ⟨observation, member, halting⟩ := broke.noted
      rw [quiet observation member] at halting
      cases halting
    | hung after more safe mechanical cause =>
      rw [List.append_assoc, List.singleton_append] at safe
      exact .hung after more false safe (.withheld mechanical) cause

/-! ### A packet of the handshake -/

variable (view start base log) in
inductive Bounded (before : World rmqtt sync) (packet : MqttPacket) :
    EStateM.Result Stop (World rmqtt sync) Unit → Prop
  | done (after : World rmqtt sync) (early late : List Observation)
      (went : Went view start base log (early ++ .sent before.version packet :: late) before after)
      (mechanical : ∀ observation ∈ early ++ late, Mechanical observation) (flushed : .flushed ∈ late)
      (empty : after.writeBuffer = []) (unflushed : after.unflushed = before.unflushed) :
      Bounded before packet (.ok () after)
  | failed (error : Error) (after : World rmqtt sync) (more : List Observation)
      (broke : Broke view start base log more before after)
      (handing : Handing before.version (some packet) true more) :
      Bounded before packet (.error (.error error) after)
  | hung (after : World rmqtt sync) (more : List Observation) (safe : Safe start base (log ++ more) after)
      (handing : Handing before.version (some packet) true more)
      (cause : ∃ moment taken, (env moment).writing = .never taken) :
      Bounded before packet (.error .pending after)

theorem boundedSend_bounded (lawful : sync.Lawful view)
    (healthy : Healthy start base log world) (empty : world.writeBuffer = []) (packet : MqttPacket) (deadline : Nat) :
    Bounded env view start base log world packet (boundedSend env packet deadline world) := by
  simp only [boundedSend, Run.bind_apply, observe_apply]
  set timed := world.log [.timer deadline]
  have armed : Healthy start base (log ++ [.timer deadline]) timed := healthy.noted _ (.of_silent rfl _)
  have below : timed.writeBuffer.length < writeBackpressureBoundary := by
    rw [show timed.writeBuffer = [] from empty]
    decide
  have timer : ∀ observation ∈ [Observation.timer deadline], Mechanical observation := by simp [Mechanical]
  have handed := armed.handed timed.version packet
  have handing {after : List Observation} (late : ∀ observation ∈ after, Mechanical observation) :
      Handing world.version (some packet) true ([.timer deadline] ++ .sent world.version packet :: after) :=
    .handed rfl timer late
  rw [send_apply env packet below, encode_apply]
  cases encoded : rmqtt.encode timed.version packet with
  | none =>
    have failed := handed.halted .writeFailed rfl trivial
    rw [List.append_assoc, List.append_assoc] at failed
    refine .failed (.io .encode) _ _ ⟨failed.same ?_ rfl, ⟨rfl, rfl, rfl, rfl, rfl, rfl, rfl, id⟩,
      ⟨.writeFailed, by simp, rfl⟩⟩ (handing (by simp [Mechanical]))
    simp [World.log, World.appended]
  | some bytes =>
    rw [encoding, encoded, Option.getD_some] at handed
    have sent : Went view start base log [.timer deadline, .sent world.version packet] world
        ((timed.log [.sent timed.version packet]).appended bytes) := by
      rw [List.append_assoc] at handed
      exact ⟨handed, ⟨rfl, rfl, rfl, rfl, rfl, rfl, rfl, id⟩⟩
    dsimp only
    rw [Run.bind_apply]
    have writes := flush_writes env lawful sent.healthy
    generalize flush env ((timed.log [.sent timed.version packet]).appended bytes) = result at writes ⊢
    cases writes with
    | done after more went mechanical flushed empty unflushed =>
      exact .done after [.timer deadline] more (sent.trans went) (both timer mechanical) flushed empty unflushed
    | failed error after more broke mechanical => exact .failed _ after _ (sent.broke broke) (handing mechanical)
    | expired after more broke mechanical => exact .failed _ after _ (sent.broke broke) (handing mechanical)
    | hung after more safe mechanical cause =>
      rw [List.append_assoc] at safe
      exact .hung after _ safe (handing mechanical) cause

end
end UringMqtt.Proofs.Outbox

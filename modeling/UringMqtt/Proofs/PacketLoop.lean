import UringMqtt.Proofs.Outbox

/-! The packet loop keeps to its conversation, whatever its surroundings do. One
invariant holds at the top of every turn; each function of the loop either keeps it
or ends the loop in a state that says how. -/

namespace UringMqtt.Proofs.PacketLoop
open Lib SessionSteps Outbox Conversation ExactlyOnce

variable {rmqtt : Rmqtt} {sync : LocalSync} (env : Nat → Moment)

structure Frame (sync : LocalSync) where
  view : sync.Room → Semaphore Nat
  start : List Observation
  base : Bytes
  bound : MaxInboundPacketSize
  version : ProtocolVersion
  loop : LoopConfig
  script : Script

structure Sound (frame : Frame sync) (log : List Observation) (talk : Talk) (world : World rmqtt sync) : Prop where
  healthy : Healthy frame.start frame.base log world
  clean : Clean world
  version : world.version = frame.version
  talks : Talks rmqtt frame.version frame.loop frame.script log talk

structure Fit (frame : Frame sync) (log : List Observation) (talk : Talk) (world : World rmqtt sync) : Prop
    extends Sound frame log talk world where
  coherent : ChannelUse.Coherent frame.view world.channel
  synced : Framing.Synced rmqtt frame.version frame.bound world.decoder
  atStart : rmqtt.state world.decoder.inner = .frameHeader
  awaiting : world.awaiting = stateAfter talk.packets

def Continues (frame : Frame sync) (packets : List MqttPacket) (world : World rmqtt sync) : Prop :=
  frame.script = (packets ++ (parse frame.bound world).1.map Prod.fst, (parse frame.bound world).2)

structure Live (frame : Frame sync) (log : List Observation) (talk : Talk) (world : World rmqtt sync) : Prop
    extends Fit frame log talk world where
  continues : Continues frame talk.packets world

structure Entered (view : sync.Room → Semaphore Nat) (bound : MaxInboundPacketSize) (version : ProtocolVersion)
    (world : World rmqtt sync) : Prop where
  unflushed : world.unflushed = none
  writeBuffer : world.writeBuffer = []
  awaiting : world.awaiting = {}
  synced : Framing.Synced rmqtt version bound world.decoder
  atStart : rmqtt.state world.decoder.inner = .frameHeader
  coherent : ChannelUse.Coherent view world.channel
  version : world.version = version

/-- The result a loop that was not stopped by a write returns at the end of its conversation. -/
def verdict : Stage → Option (Except Stop SessionOutcome)
  | .closed | .idled => some (.ok .served)
  | .broken error => some (if error = .truncatedPacket then .error (.error (.io error)) else .ok .served)
  | .closing _ | .parted _ => some (.ok .violation)
  | _ => none

inductive Reports (result : Except Stop SessionOutcome) (stage : Stage) : Prop
  | settled (verdict : verdict stage = some result)
  | stopped (stop : Stop) (failed : result = .error stop) (unspent : stage.spent = false)

/-- Nothing more is owed: the conversation is over, and a DISCONNECT that may be sent is out. -/
def Parted (rmqtt : Rmqtt) (version : ProtocolVersion) (loop : LoopConfig) : Stage → Prop
  | .closed | .broken _ | .parted _ => True
  | .closing violation => violation.disconnect rmqtt version loop.maxPacketSize = none
  | _ => False

/-- Why a session may not come back: a read or a write that never does, or a wait for a
slot in the event channel. -/
inductive Suspended (log : List Observation) : Prop
  | read (moment : Nat) (never : (env moment).arrival = .never)
  | write (moment taken : Nat) (never : (env moment).writing = .never taken)
  | slot (unflushed : Option UnflushedReplies) (writeBuffer : Bytes) (waits : .awaitSlot unflushed writeBuffer ∈ log)

theorem Suspended.behind {env : Nat → Moment} {more : List Observation} (suspended : Suspended env more)
    (log : List Observation) : Suspended env (log ++ more) := by
  cases suspended with
  | read moment never => exact .read moment never
  | write moment taken never => exact .write moment taken never
  | slot unflushed writeBuffer waits => exact .slot unflushed writeBuffer (List.mem_append_right _ waits)

/-- The loop once it has stopped. `spent` is whether its turns may have run out. -/
structure Final (frame : Frame sync) (spent : Prop) (log : List Observation) (talk : Talk)
    (result : Except Stop SessionOutcome) (world : World rmqtt sync) : Prop where
  safe : Safe frame.start frame.base log world
  talks : Talks rmqtt frame.version frame.loop frame.script log talk
  reports : Reports result talk.stage
  halted : returned result = false → Suspended env log ∨ spent
  settled : returned result = true → (∀ observation ∈ log, Halting observation = false) →
    verdict talk.stage = some result
  whole : returned result = true → (∀ observation ∈ log, Halting observation = false) → talk.stage ≠ .idled →
    wroteBytes log = sentBytes rmqtt log ∧ Parted rmqtt frame.version frame.loop talk.stage

def Ends (frame : Frame sync) (count : Nat) : EStateM.Result Stop (World rmqtt sync) (Option SessionOutcome) → Prop
  | .ok none after => ∃ log packets, packets.length = count ∧ Live frame log ⟨packets, .reading⟩ after
  | .ok (some outcome) after => ∃ log talk, Final env frame False log talk (.ok outcome) after
  | .error stop after => ∃ log talk, Final env frame False log talk (.error stop) after

variable {result : Except Stop SessionOutcome}

private theorem verdict_returned {stage : Stage} (fits : verdict stage = some result) :
    returned result = true := by
  cases stage with
  | broken error =>
    rw [verdict] at fits
    split at fits <;> cases fits <;> rfl
  | _ => cases fits <;> rfl

theorem Final.returned {frame : Frame sync} {spent : Prop} {log : List Observation} {talk : Talk}
    {world : World rmqtt sync} (safe : Safe frame.start frame.base log world)
    (talks : Talks rmqtt frame.version frame.loop frame.script log talk) (fits : verdict talk.stage = some result)
    (whole : (∀ observation ∈ log, Halting observation = false) → talk.stage ≠ .idled →
      wroteBytes log = sentBytes rmqtt log ∧ Parted rmqtt frame.version frame.loop talk.stage) : Final env frame spent log talk result world :=
  ⟨safe, talks, .settled fits, fun halted => by simp [verdict_returned fits] at halted, fun _ _ => fits, fun _ => whole⟩

section
variable {frame : Frame sync} {count : Nat} {log : List Observation} {talk : Talk} {world : World rmqtt sync}

variable {after : World rmqtt sync} {more : List Observation} {packets : List MqttPacket} {stage : Stage}

theorem Sound.same (sound : Sound frame log talk world) (same : after.core = world.core) :
    Sound frame log talk after := by
  obtain ⟨_, _, _, _, rfl⟩ := World.of_core same
  exact ⟨sound.healthy.same rfl rfl rfl, sound.clean, sound.version, sound.talks⟩

theorem Fit.same (fit : Fit frame log talk world) (same : after.core = world.core) :
    Fit frame log talk after := by
  have sound := fit.toSound.same same
  obtain ⟨_, _, _, _, rfl⟩ := World.of_core same
  exact ⟨sound, fit.coherent, fit.synced, fit.atStart, fit.awaiting⟩

theorem Live.same (live : Live frame log talk world) (same : after.core = world.core) :
    Live frame log talk after := by
  have fit := live.toFit.same same
  obtain ⟨_, _, _, _, rfl⟩ := World.of_core same
  exact ⟨fit, live.continues⟩

def scriptFrom (bound : MaxInboundPacketSize) (world : World rmqtt sync) : Script :=
  ((parse bound world).1.map Prod.fst, (parse bound world).2)

theorem Entered.live {view : sync.Room → Semaphore Nat} {bound : MaxInboundPacketSize} {version : ProtocolVersion}
    (entered : Entered view bound version world) (loop : LoopConfig) :
    Live ⟨view, world.trace, world.written, bound, version, loop, scriptFrom bound world⟩ [] ⟨[], .reading⟩ world where
  healthy := ⟨(List.append_nil _).symm, (List.append_nil _).symm, by simp [entered.writeBuffer], by simp [CleanLog], by simp⟩
  clean := fun _ => entered.writeBuffer
  version := entered.version
  talks := .start
  coherent := entered.coherent
  synced := entered.synced
  atStart := entered.atStart
  awaiting := entered.awaiting
  continues := rfl

theorem Entered.accepted (framing : rmqtt.LawfulFraming) {view : sync.Room → Semaphore Nat}
    {channel : EventChannel sync Publish} (coherent : ChannelUse.Coherent view channel) (incoming : List Chunk) :
    Entered view .default .mqtt3 (World.accepted rmqtt channel incoming) :=
  ⟨rfl, rfl, rfl, .new framing, framing.new_state _ _, coherent, rfl⟩

theorem Sound.noted (sound : Sound frame log talk world) (observation : Observation) (neutral : Neutral world.writeBuffer observation)
    {after : Talk} (step : talk.Step rmqtt frame.version frame.loop frame.script observation after) :
    Sound frame (log ++ [observation]) after (world.log [observation]) :=
  ⟨sound.healthy.noted observation neutral, sound.clean, sound.version, sound.talks.next step⟩

theorem Live.noted (live : Live frame log talk world) (observation : Observation) (neutral : Neutral world.writeBuffer observation)
    {stage : Stage} (step : talk.Step rmqtt frame.version frame.loop frame.script observation ⟨talk.packets, stage⟩) :
    Live frame (log ++ [observation]) ⟨talk.packets, stage⟩ (world.log [observation]) :=
  ⟨⟨live.toSound.noted observation neutral step, live.coherent, live.synced, live.atStart, live.awaiting⟩,
    live.continues⟩

theorem talks_mechanical {version : ProtocolVersion} {loop : LoopConfig} {script : Script}
    (talks : Talks rmqtt version loop script log talk) (mechanical : ∀ observation ∈ more, Mechanical observation)
    (unspent : talk.stage.spent = false) : Talks rmqtt version loop script (log ++ more) talk :=
  talks.append (.stay fun observation member => .mechanical talk (mechanical observation member) unspent)

@[simp] theorem idleLeft_apply (idleTimeout : Nat) (world : World rmqtt sync) :
    idleLeft env idleTimeout world =
      .ok (idleTimeout - ((env world.asked).time - world.lastPacketTime)) world.answered := rfl

/-! ### The ways out of a turn -/

theorem idleClose_ends (sound : Sound frame log ⟨packets, stage⟩ world)
    (interruptible : stage.Interruptible) : Ends env frame count (idleClose world) := by
  have closed := sound.noted .idleClosed (.of_silent rfl _) (.idleClosed packets interruptible)
  exact ⟨_, _, .returned env closed.healthy.safe closed.talks rfl fun _ busy => absurd rfl busy⟩

theorem Live.went {last : Stage} (live : Live frame log ⟨packets, stage⟩ world)
    (went : Went frame.view frame.start frame.base log more world after) (clean : Clean after)
    (talks : Talks rmqtt frame.version frame.loop frame.script (log ++ more) ⟨packets, last⟩) :
    Live frame (log ++ more) ⟨packets, last⟩ after where
  healthy := went.healthy
  clean := clean
  version := went.steady.version.trans live.version
  talks := talks
  coherent := went.steady.coherent live.coherent
  synced := by
    rw [went.steady.decoder]
    exact live.synced
  atStart := by
    rw [went.steady.decoder]
    exact live.atStart
  awaiting := went.steady.awaiting.trans live.awaiting
  continues := by
    rw [Continues, parse_same went.steady.version went.steady.decoder went.steady.readBuffer went.steady.incoming]
    exact live.continues

theorem broke_ends (error : Error) (broke : Broke frame.view frame.start frame.base log more world after)
    (talks : Talks rmqtt frame.version frame.loop frame.script (log ++ more) talk)
    (unspent : talk.stage.spent = false) : Ends env frame count (.error (.error error) after) := by
  have loud : ¬∀ observation ∈ log ++ more, Halting observation = false := by
    intro quiet
    obtain ⟨observation, member, halting⟩ := broke.noted
    rw [quiet observation (List.mem_append_right _ member)] at halting
    cases halting
  exact ⟨_, _, broke.safe, talks, .stopped _ rfl unspent, by rintro ⟨⟩, fun _ quiet => absurd quiet loud,
    fun _ quiet => absurd quiet loud⟩

theorem halted_ends {stop : Stop} (halts : stop.halts = true) (safe : Safe frame.start frame.base log after)
    (talks : Talks rmqtt frame.version frame.loop frame.script log talk)
    (unspent : talk.stage.spent = false) (cause : Suspended env log) : Ends env frame count (.error stop after) :=
  ⟨_, _, safe, talks, .stopped _ rfl unspent, fun _ => .inl cause, by simp [returned, halts], by simp [returned, halts]⟩

section
variable (lawful : sync.Lawful frame.view)
include lawful

variable {packets : List MqttPacket} {violation : Violation} {owed : Option Reply} {publish : CodecPublish} {packet : MqttPacket}

theorem closeWithViolation_ends (sound : Sound frame log ⟨packets, .offended violation⟩ world) (deadline : Nat) :
    Ends env frame count ((do return some (← closeWithViolation env violation deadline frame.loop.maxPacketSize) :
      Session rmqtt sync (Option SessionOutcome)) world) := by
  have closed := closeWithViolation_closed env lawful sound.healthy sound.clean violation deadline frame.loop.maxPacketSize
  rw [sound.version] at closed
  rw [Run.bind_apply]
  generalize closeWithViolation env violation deadline frame.loop.maxPacketSize world = result at closed ⊢
  have told : Talks rmqtt frame.version frame.loop frame.script (log ++ [.violated violation]) ⟨packets, .closing violation⟩ :=
    sound.talks.next (.violated packets violation)
  have said {handed : Bool} {more : List Observation}
      (handing : Handing frame.version (violation.disconnect rmqtt frame.version frame.loop.maxPacketSize) handed more) :
      Talks rmqtt frame.version frame.loop frame.script (log ++ .violated violation :: more)
        ⟨packets, if handed then .parted violation else .closing violation⟩ := by
    have run := handing.run told (fun _ quiet => .mechanical _ quiet rfl) (fun _ quiet => .mechanical _ quiet rfl)
      fun packet fits => .disconnected packets fits
    rw [List.append_cons]
    cases handed <;> exact run
  cases closed with
  | closed after more handed safe handing whole =>
    refine ⟨_, _, .returned env safe (said handing) (by cases handed <;> rfl) fun quiet _ => ?_⟩
    · obtain ⟨all, out⟩ := whole fun observation member => quiet observation (by simp [member])
      refine ⟨all, ?_⟩
      cases handed with
      | true => trivial
      | false =>
        cases offer : violation.disconnect rmqtt frame.version frame.loop.maxPacketSize with
        | none => exact offer
        | some packet => cases out (by rw [offer]; rfl)
  | hung after more handed safe handing cause =>
    obtain ⟨moment, taken, never⟩ := cause
    exact halted_ends env rfl safe (said handing) (by cases handed <;> rfl) (.write moment taken never)

theorem violationClose_ends (sound : Sound frame log ⟨packets, .offended violation⟩ world) :
    Ends env frame count (violationClose env frame.loop violation world) := by
  have ready : Sound frame log ⟨packets, .offended violation⟩ world.answered := sound.same rfl
  simp only [violationClose, Run.bind_apply, idleLeft_apply]
  split
  · exact idleClose_ends env ready (.offended violation)
  · exact closeWithViolation_ends env lawful ready _

theorem replyOwed_ends
    (live : Live frame log ⟨packets, .owing owed⟩ world) : Ends env frame packets.length (replyOwed env frame.loop owed world) := by
  have ready : Live frame log ⟨packets, .owing owed⟩ world.answered := live.same rfl
  simp only [replyOwed, Run.bind_apply, idleLeft_apply]
  split
  · refine idleClose_ends env ready.toSound ?_
    cases owed with
    | none => exact .reading
    | some reply => exact .replying reply
  · cases owed with
    | none => exact ⟨log, packets, rfl, ready⟩
    | some reply =>
      simp only [Run.bind_apply, Run.get_apply]
      rw [ready.version]
      cases gate : replyOverMaxPacketSize rmqtt reply frame.version frame.loop.maxPacketSize with
      | some violation =>
        have stopped := ready.noted .gated (.of_silent rfl _) (.gated packets gate)
        exact closeWithViolation_ends env lawful stopped.toSound _
      | none =>
        dsimp only
        rw [Run.bind_apply]
        have queued := queueReply_queued env lawful ready.healthy ready.clean (reply.render frame.version)
          (frame.loop.idleTimeout - ((env world.asked).time - world.lastPacketTime)) reply.timeoutContext
        generalize queueReply env (reply.render frame.version) _ reply.timeoutContext world.answered = result at queued ⊢
        have told {handed : Bool} {more : List Observation}
            (handing : Handing world.answered.version (some (reply.render frame.version)) handed more) :
            Talks rmqtt frame.version frame.loop frame.script (log ++ more)
              (if handed then ⟨packets, .reading⟩ else ⟨packets, .replying reply⟩) := by
          rw [ready.version] at handing
          refine handing.run ready.talks (fun _ quiet => .mechanical _ quiet rfl) (fun _ quiet => .mechanical _ quiet rfl) ?_
          rintro packet ⟨⟩
          exact .replied packets gate
        cases queued with
        | done after more went handing coming =>
          refine ⟨_, packets, rfl, ready.went went ?_ (told handing)⟩
          intro none
          rw [none] at coming
          cases coming
        | failed error after more handed broke handing =>
          exact broke_ends env error broke (told handing) (by cases handed <;> rfl)
        | hung after more safe mechanical cause =>
          obtain ⟨moment, taken, never⟩ := cause
          exact halted_ends env rfl safe (talks_mechanical ready.talks mechanical rfl) rfl (.write moment taken never)

/-- An offer made now would not wait with replies held back: none are queued, or
the channel has room. -/
def Room (world : World rmqtt sync) : Prop := world.unflushed = none ∨ world.channel.wouldHold = false

omit lawful in
private theorem ingestStep_exhausts (ingestDeadline idleWait : Nat) (admission : Admission) :
    if exhausts ingestDeadline idleWait admission then ingestStep ingestDeadline idleWait admission = .idleTimeout
    else ∃ held, ingestStep ingestDeadline idleWait admission = .continue held := by
  cases admission with
  | dropped => by_cases short : idleWait < ingestDeadline <;> simp [exhausts, ingestStep, short]
  | _ => simp [exhausts, ingestStep]

omit lawful in
private theorem slotWait_talks {idleWait wait : Nat} {waits : List Observation}
    (live : Live frame log ⟨packets, .offering publish owed idleWait⟩ world) (room : Room world)
    (slot : waits = [] ∨ waits = slotWait wait world ∨ waits = slotWait wait world ++ [.slotExpired])
    (quick : world.channel.wouldHold = false → waits = []) :
    (∀ observation ∈ waits, Neutral world.writeBuffer observation) ∧
      Talks rmqtt frame.version frame.loop frame.script (log ++ waits) ⟨packets, .offering publish owed idleWait⟩ := by
  have timed := live.talks.next (.mechanical _ (show Mechanical (.timer wait) from trivial) rfl)
  have waited := timed.next (.awaitSlot packets publish owed idleWait world.unflushed world.writeBuffer)
  have lapsed := waited.next (.slotExpired packets publish owed idleWait)
  rw [List.append_assoc] at waited
  have neutral (some : waits ≠ []) : ∀ observation ∈ slotWait wait world ++ [.slotExpired], Neutral world.writeBuffer observation := by
    obtain ⟨idle, empty⟩ : world.unflushed = none ∧ world.writeBuffer = [] := by
      rcases room with none | free
      · exact ⟨none, live.clean none⟩
      · exact absurd (quick free) some
    simp only [slotWait, List.cons_append, List.nil_append, List.mem_cons, List.not_mem_nil, or_false]
    rintro observation (rfl | rfl | rfl)
    · exact .of_silent rfl _
    · exact ⟨rfl, fun _ => rfl, rfl, idle, empty, empty⟩
    · exact .of_silent rfl _
  rcases slot with rfl | rfl | rfl
  · exact ⟨List.forall_mem_nil _, (List.append_nil log).symm ▸ live.talks⟩
  · exact ⟨fun observation member => neutral (List.cons_ne_nil _ _) observation (List.mem_append_left _ member), waited⟩
  · rw [List.append_assoc, List.append_assoc] at lapsed
    exact ⟨neutral (List.cons_ne_nil _ _), lapsed⟩

omit lawful in
private theorem Live.offered {stage last : Stage} {channel : EventChannel sync Publish}
    (live : Live frame log ⟨packets, stage⟩ world) (asked : Nat) (coherent : ChannelUse.Coherent frame.view channel)
    (neutral : ∀ observation ∈ more, Neutral world.writeBuffer observation)
    (talks : Talks rmqtt frame.version frame.loop frame.script (log ++ more) ⟨packets, last⟩) :
    Live frame (log ++ more) ⟨packets, last⟩ (world.offered asked channel more) where
  healthy := live.healthy.quiet rfl rfl rfl neutral
  clean := live.clean
  version := live.version
  talks := talks
  coherent := coherent
  synced := live.synced
  atStart := live.atStart
  awaiting := live.awaiting
  continues := live.continues

private theorem deliverThen_ends (live : Live frame log ⟨packets, .delivering publish owed⟩ world) (room : Room world) :
    Ends env frame packets.length (deliverThen env frame.loop publish owed world) := by
  simp only [deliverThen, Run.bind_apply, idleLeft_apply]
  set left := frame.loop.idleTimeout - ((env world.asked).time - world.lastPacketTime)
  obtain ⟨waits, admitting, channel, ledger, asked, -, admits, ran⟩ :=
    deliverPublish_admits env publish left frame.loop.ingestDeadline world.answered
  set idleWait := left - ingestReplyReserve
  have ready : Live frame log ⟨packets, .delivering publish owed⟩ world.answered := live.same rfl
  have offers := ready.noted (.offered publish idleWait) (.of_silent rfl _) (.offered packets publish owed idleWait)
  obtain ⟨neutral, talks⟩ := slotWait_talks offers room admits.slot (admits.quick lawful live.coherent)
  have settled := admits.settled lawful live.coherent
  rw [List.append_assoc] at talks
  rw [ran]
  cases admitting with
  | holding | panicked =>
    have calm : ∀ observation ∈ .offered publish idleWait :: waits, Neutral world.writeBuffer observation :=
      List.forall_mem_cons.mpr ⟨.of_silent rfl _, neutral⟩
    have waited := admits.waited lawful live.coherent (by rintro _ ⟨⟩) (List.mem_cons_of_mem _ (List.mem_singleton_self _))
    exact halted_ends env rfl (ready.offered asked settled calm talks).healthy.safe talks rfl
      (.slot _ _ (List.mem_append_right _ (List.mem_cons_of_mem _ waited)))
  | done admission =>
    have calm : ∀ observation ∈ .offered publish idleWait :: (waits ++ [.admitted publish admission ledger]),
        Neutral world.writeBuffer observation :=
      List.forall_mem_cons.mpr ⟨.of_silent rfl _, List.forall_mem_append.mpr ⟨neutral, List.forall_mem_singleton.mpr (.of_silent rfl _)⟩⟩
    have accounted := admits.accounted lawful live.coherent rfl
    have step := ingestStep_exhausts frame.loop.ingestDeadline idleWait admission
    dsimp only
    cases stops : exhausts frame.loop.ingestDeadline idleWait admission with
    | true =>
      have told := talks.next (.exhausted packets publish owed idleWait accounted stops)
      rw [List.append_assoc] at told
      rw [if_pos stops] at step
      rw [step]
      exact idleClose_ends env (ready.offered asked settled calm told).toSound (.starved owed)
    | false =>
      have told := talks.next (.admitted packets publish owed idleWait accounted stops)
      rw [List.append_assoc] at told
      simp only [stops, Bool.false_eq_true, if_false] at step
      obtain ⟨held, step⟩ := step
      rw [step]
      exact replyOwed_ends env lawful ((ready.offered asked settled calm told).same rfl)

private theorem dispatched_ends (fit : Fit frame log ⟨packets, .reading⟩ world)
    (continues : Continues frame (packets ++ [packet]) world) (room : Room world) :
    Ends env frame (packets.length + 1) ((do
      let (disposition, awaiting) := dispatch packet (← get).awaiting
      modify fun world => { world with awaiting }
      match disposition with
      | .deliver publish => deliverThen env frame.loop publish none
      | .deliverThenReply publish reply => deliverThen env frame.loop publish (some reply)
      | .reply reply => replyOwed env frame.loop (some reply)
      | .close =>
        flushReplies env
        return some .served
      | .violation violation => violationClose env frame.loop violation : Session rmqtt sync (Option SessionOutcome))
      (world.log [.decoded packet])) := by
  simp only [Run.bind_apply, Run.get_apply, Run.modify_apply]
  have step : dispatch packet (world.log [.decoded packet]).awaiting =
      (answer packets packet, stateAfter (packets ++ [packet])) := by
    rw [stateAfter_snoc, answer, show (world.log [.decoded packet]).awaiting = _ from fit.awaiting]
  rw [step]
  have noted : Sound frame (log ++ [.decoded packet]) ⟨packets ++ [packet], .decided (answer packets packet)⟩
      (world.log [.decoded packet]) :=
    fit.toSound.noted (.decoded packet) (.of_silent rfl _)
      (.decoded packets packet (by rw [continues]; exact List.prefix_append _ _))
  set next : World rmqtt sync := { world.log [.decoded packet] with awaiting := stateAfter (packets ++ [packet]) }
  have decided : Live frame (log ++ [.decoded packet]) ⟨packets ++ [packet], .decided (answer packets packet)⟩ next :=
    ⟨⟨⟨noted.healthy.same rfl rfl rfl, noted.clean, noted.version, noted.talks⟩, fit.coherent, fit.synced, fit.atStart, rfl⟩,
      continues⟩
  have free : Room next := room
  rw [show packets.length + 1 = (packets ++ [packet]).length by simp]
  dsimp only
  cases owed : answer packets packet with
  | deliver publish =>
    rw [owed] at decided
    exact deliverThen_ends env lawful decided free
  | deliverThenReply publish reply =>
    rw [owed] at decided
    exact deliverThen_ends env lawful decided free
  | reply reply =>
    rw [owed] at decided
    have owes : Live frame _ ⟨packets ++ [packet], .owing (some reply)⟩ next := decided
    exact replyOwed_ends env lawful owes
  | violation violation =>
    rw [owed] at decided
    exact violationClose_ends env lawful decided.toSound
  | close =>
    rw [owed] at decided
    have flushed := flushReplies_flushed env lawful decided.healthy decided.clean
    dsimp only
    rw [Run.bind_apply]
    generalize flushReplies env next = result at flushed ⊢
    cases flushed with
    | done after more went mechanical empty dropped =>
      refine ⟨_, _, .returned env went.healthy.safe (talks_mechanical decided.talks mechanical rfl) rfl fun _ _ => ⟨?_, trivial⟩⟩
      have total := went.healthy.total
      rwa [empty, List.append_nil] at total
    | failed error after more broke mechanical =>
      exact broke_ends env error broke (talks_mechanical decided.talks mechanical rfl) rfl
    | hung after more safe mechanical cause =>
      obtain ⟨moment, taken, never⟩ := cause
      exact halted_ends env rfl safe (talks_mechanical decided.talks mechanical rfl) rfl (.write moment taken never)

private theorem servePacket_ends (fit : Fit frame log ⟨packets, .reading⟩ world)
    (continues : Continues frame (packets ++ [packet]) world) (room : Room world) (readStartsFresh : Bool) :
    Ends env frame (packets.length + 1) (servePacket env frame.loop packet readStartsFresh world) := by
  simp only [servePacket, Run.bind_apply, observe_apply, Run.get_apply]
  split
  · set anchored : World rmqtt sync :=
      { world with asked := world.asked + 1, lastPacketTime := (env world.asked).time, holdDebt := false }
    have same : Fit frame log ⟨packets, .reading⟩ anchored := fit.same rfl
    exact dispatched_ends env lawful same continues room
  · exact dispatched_ends env lawful fit continues room

section
variable (sound : Sound frame log ⟨packets, .reading⟩ world)
include sound

private theorem serveReadError_rejected {error : DecodeError} (finished : frame.script = (packets, .error (.decode error))) :
    Ends env frame count (serveReadError env frame.loop (.decode error) world) := by
  simp only [serveReadError, Run.bind_apply, observe_apply]
  cases classified : classifyReadError (.decode error) with
  | none => cases classified
  | some violation =>
    exact violationClose_ends env lawful
      (sound.noted (.readEnded (some (.decode error))) (.of_silent rfl _)
        (.rejected packets finished classified))

omit lawful in
private theorem serveReadError_broken {error : IoError} (transport : error.decodeError = none) (flushed : world.writeBuffer = [])
    (step : Talk.Step rmqtt frame.version frame.loop frame.script ⟨packets, .reading⟩ (.readEnded (some error))
      ⟨packets, .broken error⟩) : Ends env frame count (serveReadError env frame.loop error world) := by
  have closed := sound.noted (.readEnded (some error)) (.of_silent rfl _) step
  have total := closed.healthy.total
  rw [show (world.log [.readEnded (some error)]).writeBuffer = [] from flushed, List.append_nil] at total
  simp only [serveReadError, Run.bind_apply, observe_apply, classifyReadError, transport, Option.map_none]
  split
  next truncated =>
    have same : error = .truncatedPacket := by
      cases error <;> first | rfl | cases truncated
    subst same
    exact ⟨_, _, .returned env closed.healthy.safe closed.talks rfl fun _ _ => ⟨total, trivial⟩⟩
  next other =>
    refine ⟨_, _, .returned env closed.healthy.safe closed.talks ?_ fun _ _ => ⟨total, trivial⟩⟩
    rw [verdict, if_neg]
    rintro rfl
    exact other rfl

/-- A read made now would not wait with replies held back. -/
def Ready (world : World rmqtt sync) : Prop :=
  world.unflushed = none ∨ Complete world ∧ world.channel.wouldHold = false

omit lawful in
private theorem Sound.waited {more : List Observation} {after : World rmqtt sync}
    (waited : Waited world after more)
    (held : more ≠ [] → world.unflushed = none) : Sound frame (log ++ more) ⟨packets, .reading⟩ after where
  healthy := by
    refine sound.healthy.quiet waited.trace waited.kept.written waited.kept.writeBuffer ?_
    intro observation member
    have none := held (List.ne_nil_of_mem member)
    rw [waited.waits observation member]
    exact ⟨rfl, fun _ => rfl, rfl, none, sound.clean none, sound.clean none⟩
  clean := by
    intro none
    rw [waited.kept.writeBuffer]
    exact sound.clean (waited.kept.unflushed.symm.trans none)
  version := waited.kept.version.trans sound.version
  talks := by
    refine sound.talks.append (.stay ?_)
    intro observation member
    rw [waited.waits observation member]
    exact .awaitRead packets world.unflushed world.writeBuffer

end

variable (framing : rmqtt.LawfulFraming)
include framing

private theorem read_ends (live : Live frame log ⟨packets, .reading⟩ world) (ready : Ready world) (readStartsFresh : Bool) :
    Ends env frame (packets.length + 1) ((do
      match ← nextPacket env with
      | .done (some (.ok (packet, _))) => servePacket env frame.loop packet readStartsFresh
      | .done (some (.error error)) => serveReadError env frame.loop error
      | .done none =>
        observe (.readEnded none)
        return some .served
      | .timedOut => return some .served : Session rmqtt sync (Option SessionOutcome)) world) := by
  rw [Run.bind_apply]
  have synced := live.synced
  rw [← live.version] at synced
  have fetch := nextPacket_fetch env framing world synced
  generalize nextPacket env world = result at fetch ⊢
  -- A read that had to wait found every reply flushed.
  have flushed (incomplete : ¬Complete world) : world.unflushed = none :=
    ready.resolve_right fun whole => incomplete whole.1
  have held {more : List Observation} (quick : Complete world → more = []) (some : more ≠ []) : world.unflushed = none :=
    flushed fun complete => some (quick complete)
  cases fetch with
  | packet item after more waited synced start quick parsed =>
    have sound := live.toSound.waited waited (held fun complete => (quick complete).1)
    obtain ⟨others, channel⟩ := waited.others
    rw [live.version] at synced
    have next : Fit frame (log ++ more) ⟨packets, .reading⟩ after := by
      refine ⟨sound, ?_, synced, start, waited.kept.awaiting.trans live.awaiting⟩
      rw [channel]
      exact live.coherent.others lawful others
    have continues : Continues frame (packets ++ [item.1]) after := by
      rw [Continues, live.continues, parsed, List.map_cons, List.append_assoc, List.singleton_append]
    refine servePacket_ends env lawful next continues ?_ readStartsFresh
    rcases ready with none | ⟨complete, free⟩
    · exact .inl (waited.kept.unflushed.trans none)
    · refine .inr ?_
      rw [(quick complete).2]
      exact free
  | rejected error after more waited quick parsed =>
    refine serveReadError_rejected env lawful (live.toSound.waited waited (held quick)) ?_
    rw [live.continues, parsed, List.map_nil, List.append_nil]
  | truncated after more waited incomplete parsed =>
    have none := flushed incomplete
    refine serveReadError_broken env (live.toSound.waited waited fun _ => none) rfl
      (waited.kept.writeBuffer.trans (live.clean none)) (.truncated packets ?_)
    rw [live.continues, parsed, List.map_nil, List.append_nil]
  | failed kind after more waited incomplete =>
    have none := flushed incomplete
    exact serveReadError_broken env (live.toSound.waited waited fun _ => none) rfl
      (waited.kept.writeBuffer.trans (live.clean none)) (.failed packets kind)
  | ended after more waited incomplete parsed =>
    have none := flushed incomplete
    have finished : frame.script = (packets, .clean) := by
      rw [live.continues, parsed, List.map_nil, List.append_nil]
    have closed := (live.toSound.waited waited fun _ => none).noted (.readEnded .none) (.of_silent rfl _)
      (.ended packets finished)
    refine ⟨_, _, .returned env closed.healthy.safe closed.talks rfl fun _ _ => ⟨?_, trivial⟩⟩
    have total := closed.healthy.total
    rwa [show (after.log [.readEnded .none]).writeBuffer = [] from waited.kept.writeBuffer.trans (live.clean none),
      List.append_nil] at total
  | expired after more waited incomplete =>
    have none := flushed incomplete
    have closed := (live.toSound.waited waited fun _ => none).noted .readExpired (.of_silent rfl _)
      (.readExpired packets)
    refine ⟨_, _, .returned env closed.healthy.safe closed.talks rfl fun _ _ => ⟨?_, trivial⟩⟩
    have total := closed.healthy.total
    rwa [show (after.log [.readExpired]).writeBuffer = [] from waited.kept.writeBuffer.trans (live.clean none),
      List.append_nil] at total
  | pending after more waited quick cause =>
    obtain ⟨moment, never⟩ := cause
    have sound := live.toSound.waited waited (held quick)
    exact halted_ends env rfl sound.healthy.safe sound.talks rfl (.read moment never)

/-- Step: one turn keeps the invariant, or ends the loop. -/
private theorem turn_ends (live : Live frame log ⟨packets, .reading⟩ world) :
    Ends env frame (packets.length + 1) (turn env frame.loop world) := by
  -- Behind the flush, or without one, the turn reads the clock and then the socket.
  have reads {log : List Observation} {world : World rmqtt sync} (live : Live frame log ⟨packets, .reading⟩ world)
      (ready : Ready world) :=
    let left := frame.loop.idleTimeout - ((env world.asked).time - world.lastPacketTime)
    have asked : Live frame log ⟨packets, .reading⟩ world.answered := live.same rfl
    have timed := asked.noted (.timer left) (.of_silent rfl _) (.mechanical _ trivial rfl)
    read_ends env lawful framing timed ready world.readBuffer.isEmpty
  simp only [turn, Run.bind_apply, Run.get_apply]
  split
  · have flushed := flushReplies_flushed env lawful live.healthy live.clean
    rw [Run.bind_apply]
    generalize flushReplies env world = result at flushed ⊢
    cases flushed with
    | done after more went mechanical empty dropped =>
      exact reads (live.went went (fun _ => empty) (talks_mechanical live.talks mechanical rfl)) (.inl dropped)
    | failed error after more broke mechanical =>
      exact broke_ends env error broke (talks_mechanical live.talks mechanical rfl) rfl
    | hung after more safe mechanical cause =>
      obtain ⟨moment, taken, never⟩ := cause
      exact halted_ends env rfl safe (talks_mechanical live.talks mechanical rfl) rfl (.write moment taken never)
  next unneeded =>
    simp only [Bool.or_eq_true, Bool.not_eq_true', not_or, Bool.not_eq_false, Bool.not_eq_true] at unneeded
    exact reads live (.inr ⟨⟨live.atStart, unneeded.1⟩, unneeded.2⟩)

/-- Run: however many turns the loop takes, it keeps to its conversation. A turn
for every packet of the script, and one more, is enough. -/
theorem runPacketLoop_final (turns : Nat) (live : Live frame log ⟨packets, .reading⟩ world) :
    ∃ log talk, Final env frame (packets.length + turns ≤ frame.script.1.length) log talk
      (answerOf (runPacketLoop env frame.loop turns world)) (worldOf (runPacketLoop env frame.loop turns world)) := by
  induction turns generalizing log world packets with
  | zero =>
    have within : packets.length ≤ frame.script.1.length := by
      rw [live.continues, List.length_append]
      exact Nat.le_add_right _ _
    exact ⟨log, _, live.healthy.safe, live.talks, .stopped _ rfl rfl, fun _ => .inr within,
      by rintro ⟨⟩, by rintro ⟨⟩⟩
  | succ turns ih =>
    have ends := turn_ends env lawful framing live
    simp only [runPacketLoop, Run.bind_apply]
    generalize turn env frame.loop world = result at ends ⊢
    rcases result with ⟨_ | outcome, after⟩ | ⟨stop, after⟩
    · obtain ⟨log, packets, counted, next⟩ := ends
      rw [Nat.add_comm turns, ← Nat.add_assoc, ← counted]
      exact ih next
    · obtain ⟨log, talk, final⟩ := ends
      exact ⟨log, talk, final.safe, final.talks, final.reports, by rintro ⟨⟩, final.settled, final.whole⟩
    · obtain ⟨log, talk, final⟩ := ends
      exact ⟨log, talk, final.safe, final.talks, final.reports, fun halted => .inl ((final.halted halted).resolve_right id),
        final.settled, final.whole⟩

end

end
end UringMqtt.Proofs.PacketLoop

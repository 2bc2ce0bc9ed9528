import UringMqtt.Codec.Fixtures
import UringMqtt.Proofs.PacketLoop
import UringMqtt.Proofs.VersionProbe

/-! A whole session keeps to its conversation, from the first byte of the client to
the result. The handshake is followed step by step; the packet loop behind it is
`Proofs.PacketLoop`. -/

namespace UringMqtt.Proofs.Session
open Lib SessionSteps Outbox Conversation PacketLoop VersionProbe

variable {rmqtt : Rmqtt} {sync : LocalSync} (env : Nat → Moment)

def Quiet (log : List Observation) : Prop := ∀ observation ∈ log, Halting observation = false

/-- The result a session that was not stopped by a write returns at the end of its conversation. -/
def outcome : Phase → Option (Except Stop SessionOutcome)
  | .refusing none | .refused => some (.ok .refused)
  | .failed error => some (.error (.error error))
  | .serving _ _ _ talk => verdict talk.stage
  | _ => none

inductive Concludes (result : Except Stop SessionOutcome) (log : List Observation) : Phase → Prop
  | settled {phase : Phase} (fits : outcome phase = some result) (quiet : Quiet log) : Concludes result log phase
  | stopped {phase : Phase} (stop : Stop) (failed : result = .error stop) (unserved : phase.served = false) :
      Concludes result log phase
  | served (version : ProtocolVersion) (loop : LoopConfig) (script : Script) {talk : Talk}
      (reports : Reports result talk.stage) : Concludes result log (.serving version loop script talk)

def Spent (turns : Nat) : Phase → Prop
  | .serving _ _ script _ => turns ≤ script.1.length
  | _ => False

def Idled : Phase → Prop
  | .serving _ _ _ talk => talk.stage = .idled
  | _ => False

def Parted (rmqtt : Rmqtt) : Phase → Prop
  | .serving version loop _ talk => PacketLoop.Parted rmqtt version loop talk.stage
  | _ => True

section
variable (config : Config) (bytes : Bytes)

structure Final (turns : Nat) (log : List Observation) (phase : Phase) (result : Except Stop SessionOutcome)
    (world : World rmqtt sync) : Prop where
  safe : Safe [] [] log world
  converses : Converses rmqtt config bytes log phase
  concludes : Concludes result log phase
  halted : returned result = false → Suspended env log ∨ Spent turns phase
  settled : returned result = true → Quiet log → outcome phase = some result
  whole : returned result = true → Quiet log → ¬Idled phase → wroteBytes log = sentBytes rmqtt log ∧ Parted rmqtt phase

/-- A session during its handshake: nothing is queued, and nothing failed. -/
structure Opening (view : sync.Room → Semaphore Nat) (log : List Observation) (phase : Phase)
    (world : World rmqtt sync) : Prop where
  healthy : Healthy [] [] log world
  empty : world.writeBuffer = []
  unflushed : world.unflushed = none
  coherent : ChannelUse.Coherent view world.channel
  converses : Converses rmqtt config bytes log phase

def Ended (turns : Nat) (result : EStateM.Result Stop (World rmqtt sync) SessionOutcome) : Prop :=
  ∃ log phase, Final env config bytes turns log phase (answerOf result) (worldOf result)

end

section
variable {config : Config} {bytes : Bytes} {view : sync.Room → Semaphore Nat} {turns : Nat} {log : List Observation}
  {phase : Phase} {world : World rmqtt sync}

variable {after : World rmqtt sync} {more : List Observation}

section
variable (opening : Opening config bytes view log phase world)
include opening

theorem Opening.same (trace : after.trace = world.trace) (written : after.written = world.written)
    (writeBuffer : after.writeBuffer = world.writeBuffer) (unflushed : after.unflushed = world.unflushed)
    (channel : after.channel = world.channel) : Opening config bytes view log phase after where
  healthy := opening.healthy.same trace written writeBuffer
  empty := writeBuffer.trans opening.empty
  unflushed := unflushed.trans opening.unflushed
  coherent := by
    rw [channel]
    exact opening.coherent
  converses := opening.converses

theorem Opening.noted (observation : Observation)
    (neutral : Neutral world.writeBuffer observation) {after : Phase}
    (step : Step rmqtt config bytes phase observation after) :
    Opening config bytes view (log ++ [observation]) after (world.log [observation]) :=
  ⟨opening.healthy.noted observation neutral, opening.empty, opening.unflushed, opening.coherent, opening.converses.next step⟩

theorem Opening.timed (unserved : phase.served = false) (duration : Nat) :
    Opening config bytes view (log ++ [.timer duration]) phase (world.log [.timer duration]) :=
  opening.noted (.timer duration) (.of_silent rfl _) (.mechanical phase trivial unserved)

omit opening in
theorem Opening.waited (lawful : sync.Lawful view) (opening : Opening config bytes view log phase world)
    (waiting : phase.Waiting) (waited : Waited world after more) :
    Opening config bytes view (log ++ more) phase after where
  healthy := by
    refine opening.healthy.quiet waited.trace waited.kept.written waited.kept.writeBuffer ?_
    intro observation member
    rw [waited.waits observation member]
    exact ⟨rfl, fun _ => rfl, rfl, opening.unflushed, opening.empty, opening.empty⟩
  empty := waited.kept.writeBuffer.trans opening.empty
  unflushed := waited.kept.unflushed.trans opening.unflushed
  coherent := by
    obtain ⟨others, channel⟩ := waited.others
    rw [channel]
    exact opening.coherent.others lawful others
  converses := by
    refine opening.converses.append (.stay ?_)
    intro observation member
    rw [waited.waits observation member]
    exact .awaitRead waiting _ _

theorem Opening.ended {result : EStateM.Result Stop (World rmqtt sync) SessionOutcome} (same : worldOf result = world)
    (fits : outcome phase = some (answerOf result)) (back : returned (answerOf result) = true)
    (parted : Parted rmqtt phase) : Ended env config bytes turns result := by
  subst same
  have total := opening.healthy.total
  rw [opening.empty, List.append_nil] at total
  exact ⟨log, phase, opening.healthy.safe, opening.converses, .settled fits opening.healthy.healthy,
    fun halted => by simp [back] at halted, fun _ _ => fits, fun _ _ _ => ⟨total, parted⟩⟩

end

theorem Opening.failed {error : Error} (opening : Opening config bytes view log (.failed error) world) :
    Ended env config bytes turns (.error (.error error) world) :=
  opening.ended env rfl rfl rfl trivial

theorem broke_ended (error : Error)
    (broke : Broke view [] [] log more world after) (converses : Converses rmqtt config bytes (log ++ more) phase)
    (unserved : phase.served = false) :
    Ended env config bytes turns (.error (.error error) after) := by
  have loud : ¬Quiet (log ++ more) := by
    intro quiet
    obtain ⟨observation, member, halting⟩ := broke.noted
    rw [quiet observation (List.mem_append_right _ member)] at halting
    cases halting
  exact ⟨_, phase, broke.safe, converses, .stopped _ rfl unserved, by rintro ⟨⟩, fun _ quiet => absurd quiet loud,
    fun _ quiet => absurd quiet loud⟩

theorem hung_ended (safe : Safe [] [] log after) (converses : Converses rmqtt config bytes log phase)
    (unserved : phase.served = false) (cause : Suspended env log) :
    Ended env config bytes turns (.error .pending after) :=
  ⟨log, phase, safe, converses, .stopped _ rfl unserved, fun _ => .inl cause, by rintro ⟨⟩, by rintro ⟨⟩⟩

private theorem remaining_apply (handshakeStart : Nat) (world : World rmqtt sync) :
    remaining env config handshakeStart world =
      .ok (millisOfSecs (min config.connectionTimeoutSecs maxTimeoutSecs) - ((env world.asked).time - handshakeStart))
        world.answered := rfl

private theorem intoPackets_apply (version : ProtocolVersion) (bound : MaxInboundPacketSize) (world : World rmqtt sync) :
    intoPackets version bound world = .ok () { world with version, decoder := .new rmqtt version bound } := rfl

private theorem parse_switched {version : ProtocolVersion} (speaks : world.version = version)
    (atStart : rmqtt.state world.decoder.inner = .frameHeader) (unread : world.unread = bytes) :
    scriptOf rmqtt config bytes version = scriptFrom config.maxInboundPacketSize world := by
  rw [scriptFrom, parse, atStart, speaks, unread]
  rfl

section
variable (lawful : sync.Lawful view)
include lawful

variable {version : ProtocolVersion} {connack : MqttPacket} {loop : LoopConfig}

theorem refusal_ended (opening : Opening config bytes view log (.refusing (some (version, connack))) world)
    (speaks : world.version = version) (deadline : Nat) :
    Ended env config bytes turns ((do
      boundedSend env connack deadline
      return .refused : Session rmqtt sync SessionOutcome) world) := by
  have bounded := boundedSend_bounded env lawful opening.healthy opening.empty connack deadline
  rw [Run.bind_apply]
  generalize boundedSend env connack deadline world = result at bounded ⊢
  have refused {more : List Observation} (handing : Handing world.version (some connack) true more) :
      Converses rmqtt config bytes (log ++ more) .refused := by
    rw [speaks] at handing
    refine handing.run opening.converses (fun _ quiet => .mechanical _ quiet rfl) (fun _ quiet => .mechanical _ quiet rfl) ?_
    rintro packet ⟨⟩
    exact .refused version connack
  cases bounded with
  | done after early late went mechanical flushed empty unflushed =>
    have handing : Handing world.version (some connack) true (early ++ .sent world.version connack :: late) :=
      .handed rfl (fun observation member => mechanical observation (List.mem_append_left _ member))
        fun observation member => mechanical observation (List.mem_append_right _ member)
    have told : Opening config bytes view (log ++ (early ++ .sent world.version connack :: late)) .refused after :=
      ⟨went.healthy, empty, unflushed.trans opening.unflushed, went.steady.coherent opening.coherent, refused handing⟩
    exact told.ended env rfl rfl rfl trivial
  | failed error after more broke handing => exact broke_ended env error broke (refused handing) rfl
  | hung after more safe handing cause =>
    obtain ⟨moment, taken, never⟩ := cause
    exact hung_ended env safe (refused handing) rfl (.write moment taken never)

variable (framing : rmqtt.LawfulFraming)
include framing

private theorem served_ended (opening : Opening config bytes view log
      (.serving version loop (scriptFrom config.maxInboundPacketSize world) ⟨[], .reading⟩) world)
    (entered : Entered view config.maxInboundPacketSize version world) :
    Ended env config bytes turns (runPacketLoop env loop turns world) := by
  obtain ⟨more, talk, final⟩ := runPacketLoop_final env lawful framing turns (entered.live loop)
  set script := scriptFrom config.maxInboundPacketSize world
  have total := opening.healthy.total
  rw [opening.empty, List.append_nil] at total
  have later (quiet : Quiet (log ++ more)) : Quiet more := fun observation member =>
    quiet observation (List.mem_append_right _ member)
  refine ⟨log ++ more, .serving version loop script talk, opening.healthy.before opening.empty final.safe, ?_,
    .served version loop script final.reports, fun halted => ?_, fun back quiet => final.settled back (later quiet),
    fun back quiet busy => ?_⟩
  · exact opening.converses.append (final.talks.lift fun _ _ _ step => .served version loop script step)
  · rcases final.halted halted with suspended | spent
    · exact .inl (suspended.behind log)
    · rw [List.length_nil, Nat.zero_add] at spent
      exact .inr spent
  · obtain ⟨all, parted⟩ := final.whole back (later quiet) busy
    rw [wroteBytes_append, sentBytes_append, total, all]
    exact ⟨rfl, parted⟩

private theorem acceptance_ended (opening : Opening config bytes view log
      (.accepting version connack loop (scriptFrom config.maxInboundPacketSize world)) world)
    (speaks : world.version = version)
    (synced : Framing.Synced rmqtt version config.maxInboundPacketSize world.decoder)
    (atStart : rmqtt.state world.decoder.inner = .frameHeader) (deadline connectReceivedAt : Nat) :
    Ended env config bytes turns ((do
      boundedSend env connack deadline
      modify fun world => { world with
        lastPacketTime := connectReceivedAt, holdDebt := false, unflushed := none, awaiting := {} }
      runPacketLoop env loop turns : Session rmqtt sync SessionOutcome) world) := by
  have bounded := boundedSend_bounded env lawful opening.healthy opening.empty connack deadline
  rw [Run.bind_apply]
  generalize boundedSend env connack deadline world = result at bounded ⊢
  set script := scriptFrom config.maxInboundPacketSize world with unread
  have greets {more : List Observation} (handing : Handing world.version (some connack) true more) :
      Converses rmqtt config bytes (log ++ more) (.greeting version loop script) := by
    rw [speaks] at handing
    refine handing.run opening.converses (fun _ quiet => .mechanical _ quiet rfl) (fun _ quiet => .mechanical _ quiet rfl) ?_
    rintro packet ⟨⟩
    exact .accepted version connack loop script
  cases bounded with
  | failed error after more broke handing => exact broke_ended env error broke (greets handing) rfl
  | hung after more safe handing cause =>
    obtain ⟨moment, taken, never⟩ := cause
    exact hung_ended env safe (greets handing) rfl (.write moment taken never)
  | done after early late went mechanical flushed empty unflushed =>
    have before : ∀ observation ∈ early, Mechanical observation := fun observation member =>
      mechanical observation (List.mem_append_left _ member)
    have behind : ∀ observation ∈ late, Mechanical observation := fun observation member =>
      mechanical observation (List.mem_append_right _ member)
    -- The conversation moves on with the flush.
    obtain ⟨written, rest, rfl⟩ := List.append_of_mem flushed
    have greeted := greets (@Handing.handed _ _ connack early written rfl before fun observation member =>
      behind observation (List.mem_append_left _ member))
    have serves := (greeted.next (.greeted version loop script)).append
      (.stay fun observation member => .served version loop script
        (.mechanical _ (behind observation (List.mem_append_right _ (List.mem_cons_of_mem _ member))) rfl))
    have same : scriptFrom config.maxInboundPacketSize after = script := by
      rw [unread, scriptFrom, parse_same went.steady.version went.steady.decoder went.steady.readBuffer went.steady.incoming]
      rfl
    rw [← same] at serves
    have coherent := went.steady.coherent opening.coherent
    dsimp only
    rw [Run.bind_apply, Run.modify_apply]
    set entry : World rmqtt sync :=
      { after with lastPacketTime := connectReceivedAt, holdDebt := false, unflushed := none, awaiting := {} }
    have opens : Opening config bytes view (log ++ (early ++ .sent world.version connack :: (written ++ .flushed :: rest)))
        (.serving version loop (scriptFrom config.maxInboundPacketSize entry) ⟨[], .reading⟩) entry := by
      refine ⟨went.healthy.same rfl rfl rfl, empty, rfl, coherent, ?_⟩
      simp only [List.append_assoc, List.cons_append, List.nil_append] at serves
      exact serves
    have entered : Entered view config.maxInboundPacketSize version entry := by
      refine ⟨rfl, empty, rfl, ?_, ?_, coherent, went.steady.version.trans speaks⟩
      · rw [show entry.decoder = world.decoder from went.steady.decoder]
        exact synced
      · rw [show entry.decoder = world.decoder from went.steady.decoder]
        exact atStart
    exact served_ended env lawful framing opens entered

private theorem serveDecision_ended {decision : ConnectDecision} (opening : Opening config bytes view log
      (.decided config version (scriptFrom config.maxInboundPacketSize world) decision) world)
    (speaks : world.version = version)
    (synced : Framing.Synced rmqtt version config.maxInboundPacketSize world.decoder)
    (atStart : rmqtt.state world.decoder.inner = .frameHeader) (handshakeStart connectReceivedAt : Nat) :
    Ended env config bytes turns (serveDecision env config turns handshakeStart connectReceivedAt decision world) := by
  cases decision with
  | notConnect => exact opening.failed env
  | refusePersistentSession => exact opening.ended env rfl rfl rfl trivial
  | refuse connack sendable =>
    cases sendable with
    | false => exact opening.ended env rfl rfl rfl trivial
    | true =>
      have ready : Opening config bytes view log (.refusing (some (version, connack))) world.answered :=
        opening.same rfl rfl rfl rfl rfl
      exact refusal_ended env lawful ready speaks _
  | accept connack clientId assigned idleTimeout maxPacketSize =>
    have ready : Opening config bytes view log (.accepting version connack ⟨idleTimeout, maxPacketSize, config.ingestDeadline⟩
        (scriptFrom config.maxInboundPacketSize world.answered)) world.answered :=
      opening.same rfl rfl rfl rfl rfl
    exact acceptance_ended env lawful framing ready speaks synced atStart _ connectReceivedAt

private theorem serveConnect_ended (opening : Opening config bytes view log (.connecting version) world)
    (unread : rmqtt.ProbeLooks → world.unread = bytes) (handshakeStart : Nat) :
    Ended env config bytes turns (serveConnect env config turns handshakeStart version world) := by
  simp only [serveConnect, Run.bind_apply, intoPackets_apply, remaining_apply, observe_apply]
  set switched : World rmqtt sync := World.answered { world with version, decoder := .new rmqtt version config.maxInboundPacketSize }
  have ready : Opening config bytes view log (.connecting version) switched := opening.same rfl rfl rfl rfl rfl
  have timed := ready.timed rfl
    (millisOfSecs (min config.connectionTimeoutSecs maxTimeoutSecs) - ((env world.asked).time - handshakeStart))
  set begun := switched.log [.timer _]
  have synced : Framing.Synced rmqtt begun.version config.maxInboundPacketSize begun.decoder := .new framing
  have script (looks : rmqtt.ProbeLooks) :
      scriptOf rmqtt config bytes version = scriptFrom config.maxInboundPacketSize begun :=
    parse_switched rfl (framing.new_state _ _) (unread looks)
  -- A stream whose CONNECT is missing is told from its parse.
  have empty {ending : Ending} (parsed : parse config.maxInboundPacketSize begun = ([], ending)) (looks : rmqtt.ProbeLooks) :
      scriptOf rmqtt config bytes version = ([], ending) := by
    rw [script looks, scriptFrom, parsed]
    rfl
  have fetch := nextPacket_fetch env framing begun synced
  generalize nextPacket env begun = result at fetch ⊢
  cases fetch with
  | packet item after more waited synced start _ parsed sourced =>
    have read := timed.waited lawful (.connecting version) waited
    have received := read.noted (.received item.1) (.of_silent rfl _)
      (.received version item.1 (scriptFrom config.maxInboundPacketSize after)
        (fun looks => by rw [script looks, scriptFrom, parsed]; rfl) sourced)
    have asked : Opening config bytes view _ _ (World.answered (after.log [.received item.1])) :=
      received.same rfl rfl rfl rfl rfl
    refine serveDecision_ended env lawful framing asked ?_ ?_ ?_ handshakeStart _
    · exact waited.kept.version
    · exact synced
    · exact start
  | rejected error after more waited _ parsed =>
    have read := timed.waited lawful (.connecting version) waited
    by_cases refused : error = .invalidClientId
    · subst refused
      have told := read.noted (.readEnded (some (.decode .invalidClientId))) (.of_silent rfl _)
        (.clientId version (empty parsed))
      have asked : Opening config bytes view _ _ (World.answered (after.log [.readEnded (some (.decode .invalidClientId))])) :=
        told.same rfl rfl rfl rfl rfl
      exact refusal_ended env lawful asked waited.kept.version _
    · have other : (IoError.decode error).decodeError ≠ some .invalidClientId := fun same => refused (Option.some.inj same)
      have told := read.noted (.readEnded (some (.decode error))) (.of_silent rfl _)
        (.unconnected version other (empty parsed))
      simp only [Run.bind_apply, observe_apply, if_neg other]
      exact told.failed env
  | truncated after more waited _ parsed =>
    have read := timed.waited lawful (.connecting version) waited
    exact (read.noted (.readEnded (some .truncatedPacket)) (.of_silent rfl _)
      (.unconnected version (by rintro ⟨⟩) (empty parsed))).failed env
  | failed kind after more waited =>
    have read := timed.waited lawful (.connecting version) waited
    exact (read.noted (.readEnded (some (.transport kind))) (.of_silent rfl _)
      (.readFailed (.connecting version) kind)).failed env
  | ended after more waited _ parsed =>
    have read := timed.waited lawful (.connecting version) waited
    exact (read.noted (.readEnded none) (.of_silent rfl _) (.ended version (empty parsed))).failed env
  | expired after more waited =>
    have read := timed.waited lawful (.connecting version) waited
    exact (read.noted .readExpired (.of_silent rfl _) (.readExpired (.connecting version))).failed env
  | pending after more waited _ cause =>
    obtain ⟨moment, never⟩ := cause
    have read := timed.waited lawful (.connecting version) waited
    exact hung_ended env read.healthy.safe read.converses rfl (.read moment never)

private theorem serveSession_ended (opening : Opening config bytes view log .probing world) (unread : world.unread = bytes) :
    Ended env config bytes turns (serveSession env config turns world) := by
  simp only [serveSession, Run.bind_apply, now_apply, remaining_apply, observe_apply]
  set asked : World rmqtt sync := World.answered (World.answered world)
  have ready : Opening config bytes view log .probing asked := opening.same rfl rfl rfl rfl rfl
  have timed := ready.timed rfl
    (millisOfSecs (min config.connectionTimeoutSecs maxTimeoutSecs) - ((env world.answered.asked).time - (env world.asked).time))
  set begun := asked.log [.timer _]
  have stream : begun.unread = bytes := unread
  have probing := nextVersion_probing env config.maxInboundPacketSize begun
  generalize nextVersion env config.maxInboundPacketSize begun = result at probing ⊢
  cases probing with
  | found version after more waited same probed =>
    rw [stream] at same probed
    have read := timed.waited lawful .probing waited
    have told := read.noted (.probed version) (.of_silent rfl _) (.probed version probed)
    exact serveConnect_ended env lawful framing told same _
  | rejected error after more waited probed =>
    rw [stream] at probed
    have read := timed.waited lawful .probing waited
    by_cases level : error = .unsupportedProtocolLevel
    · subst level
      have told := read.noted (.readEnded (some (.decode .unsupportedProtocolLevel))) (.of_silent rfl _)
        (.unsupported probed)
      set switched : World rmqtt sync :=
        { after.log [.readEnded (some (.decode .unsupportedProtocolLevel))] with
          version := .mqtt3, decoder := .new rmqtt .mqtt3 config.maxInboundPacketSize }
      have refusing : Opening config bytes view _ _ switched.answered := told.same rfl rfl rfl rfl rfl
      exact refusal_ended env lawful refusing rfl _
    · have other : (IoError.decode error).decodeError ≠ some .unsupportedProtocolLevel := fun same =>
        level (Option.some.inj same)
      simp only [Run.bind_apply, observe_apply, if_neg other]
      exact (read.noted (.readEnded (some (.decode error))) (.of_silent rfl _)
        (.unprobed level probed)).failed env
  | unfinished after more waited probed =>
    rw [stream] at probed
    have read := timed.waited lawful .probing waited
    exact (read.noted (.readEnded (some .bytesRemaining)) (.of_silent rfl _) (.unfinished probed)).failed env
  | failed kind after more waited =>
    have read := timed.waited lawful .probing waited
    exact (read.noted (.readEnded (some (.transport kind))) (.of_silent rfl _)
      (.readFailed .probing kind)).failed env
  | ended after more waited probed =>
    rw [stream] at probed
    have read := timed.waited lawful .probing waited
    exact (read.noted (.readEnded none) (.of_silent rfl _) (.unopened probed)).failed env
  | expired after more waited =>
    have read := timed.waited lawful .probing waited
    exact (read.noted .readExpired (.of_silent rfl _) (.readExpired .probing)).failed env
  | pending after more waited cause =>
    obtain ⟨moment, never⟩ := cause
    have read := timed.waited lawful .probing waited
    exact hung_ended env read.healthy.safe read.converses rfl (.read moment never)

end

end

/-- The worker's event channel after whatever its other tasks did with it. -/
def sharedChannel (sync : LocalSync) (dropped : Nat) (history : List Activity) : EventChannel sync Publish :=
  history.foldl EventChannel.act (EventChannel.new sync Publish dropped)

private theorem sharedChannel_coherent {view : sync.Room → Semaphore Nat} (lawful : sync.Lawful view) (dropped : Nat)
    (history : List Activity) : ChannelUse.Coherent view (sharedChannel sync dropped history) := by
  refine ChannelUse.Coherent.others lawful ?_ history
  intro closed
  rw [EventChannel.new, lawful.new] at closed
  cases closed

/-- One run of a session, with its surroundings and the reads its client's bytes arrive in.
-/
structure Scenario where
  env : Nat → Moment
  config : Config
  turns : Nat
  dropped : Nat
  history : List Activity
  incoming : List Chunk

namespace Scenario
variable (rmqtt : Rmqtt) (sync : LocalSync) (scenario : Scenario)

def run : EStateM.Result Stop (World rmqtt sync) SessionOutcome :=
  serveSession scenario.env scenario.config scenario.turns
    (.accepted rmqtt (sharedChannel sync scenario.dropped scenario.history) scenario.incoming)

def answer : Except Stop SessionOutcome := answerOf (scenario.run rmqtt sync)

def log : List Observation := (worldOf (scenario.run rmqtt sync)).trace

def written : Bytes := (worldOf (scenario.run rmqtt sync)).written

def bytes : Bytes := (scenario.incoming.map Subtype.val).flatten

variable {rmqtt} {sync}

/-- Every session is a conversation: whatever the client and the surroundings do, the log is
a run of the automaton, and the result is the one its last phase calls for unless a write or
a suspension stopped it. -/
theorem final {view : sync.Room → Semaphore Nat} (lawful : sync.Lawful view) (framing : rmqtt.LawfulFraming) :
    ∃ phase, Final scenario.env scenario.config scenario.bytes scenario.turns (scenario.log rmqtt sync) phase
      (scenario.answer rmqtt sync) (worldOf (scenario.run rmqtt sync)) := by
  have coherent := sharedChannel_coherent lawful scenario.dropped scenario.history
  have opening : Opening scenario.config scenario.bytes view [] .probing
      (World.accepted rmqtt (sharedChannel sync scenario.dropped scenario.history) scenario.incoming) :=
    ⟨⟨rfl, rfl, rfl, by simp [CleanLog], by simp⟩, rfl, rfl, coherent, .start⟩
  obtain ⟨log, phase, final⟩ := @serveSession_ended _ _ scenario.env _ _ _ scenario.turns _ _ lawful framing opening rfl
  have whole : scenario.log rmqtt sync = log := final.safe.trace
  rw [whole]
  exact ⟨phase, final⟩

end Scenario

def Scenario.prompt (incoming : List Chunk) : Scenario :=
  ⟨SessionSteps.prompt, ⟨10, 300, .default, 100, "peer"⟩, 4, 0, [], incoming⟩

end UringMqtt.Proofs.Session

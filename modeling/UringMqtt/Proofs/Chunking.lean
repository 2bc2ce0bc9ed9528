import UringMqtt.Proofs.Session

/-! How the client's bytes are cut into reads makes no difference. A session that is
left alone is a function of the bytes: `serve` computes from the whole stream what
the session returns, delivers and writes, and every run agrees with it. -/

namespace UringMqtt.Proofs.Chunking
open Lib ExactlyOnce Outbox Conversation VersionProbe Session

/-! ### A session as a function of the bytes -/

/-- How a session ended, as the fuzz replay tells results apart (`observed`), and the
two errors it does not expect. -/
inductive Kind where
  | served
  | refused
  | violation
  | clientClosed
  | io
  | timeout
  | protocol
deriving DecidableEq, Repr

def kindOf : Error → Kind
  | .io _ => .io
  | .timeout => .timeout
  | .clientClosed => .clientClosed
  | .protocol _ => .protocol

def observed : Except Stop SessionOutcome → Option Kind
  | .ok .served => some .served
  | .ok .refused => some .refused
  | .ok .violation => some .violation
  | .error (.error error) => some (kindOf error)
  | .error .pending | .error .panicked => none

structure Exchange where
  kind : Kind
  delivered : List Publish := []
  written : Bytes := []
deriving DecidableEq

namespace Exchange

def deliver (publish : Publish) (rest : Exchange) : Exchange := { rest with delivered := publish :: rest.delivered }

def write (bytes : Bytes) (rest : Exchange) : Exchange := { rest with written := bytes ++ rest.written }

end Exchange

section
variable (rmqtt : Rmqtt) (version : ProtocolVersion) (loop : LoopConfig)

def parting (violation : Violation) : Exchange :=
  match violation.disconnect rmqtt version loop.maxPacketSize with
  | some packet => .write (encoding rmqtt version packet) ⟨.violation, [], []⟩
  | none => ⟨.violation, [], []⟩

/-- A reply goes out if the client takes a packet of its size. -/
def replying (reply : Reply) (rest : Exchange) : Exchange :=
  match replyOverMaxPacketSize rmqtt reply version loop.maxPacketSize with
  | some violation => parting rmqtt version loop violation
  | none => .write (encoding rmqtt version (reply.render version)) rest

/-- What is left to do at a stage, with `rest` behind the packet in hand. -/
def remaining (rest : Exchange) : Stage → Exchange
  | .reading => rest
  | .delivering publish owed | .offering publish owed _ =>
    .deliver (.fromCodec publish) (owed.elim rest fun reply => replying rmqtt version loop reply rest)
  | .replying reply => replying rmqtt version loop reply rest
  | .offended violation | .closing violation => parting rmqtt version loop violation
  | .parted _ => ⟨.violation, [], []⟩
  | .starved _ | .idled | .closed => ⟨.served, [], []⟩
  | .broken error => ⟨if error = .truncatedPacket then .io else .served, [], []⟩

def ending : Ending → Exchange
  | .error error =>
    match classifyReadError error with
    | some violation => parting rmqtt version loop violation
    | none => remaining rmqtt version loop ⟨.served, [], []⟩ (.broken error)
  | .clean | .unfinished => ⟨.served, [], []⟩

def serveFrom (last : Ending) : List MqttPacket → List MqttPacket → Exchange
  | _, [] => ending rmqtt version loop last
  | past, packet :: packets =>
    remaining rmqtt version loop (serveFrom last (past ++ [packet]) packets) (.decided (answer past packet))

def serveTalk (script : Script) (talk : Talk) : Exchange :=
  remaining rmqtt version loop (serveFrom rmqtt version loop script.2 talk.packets (script.1.drop talk.packets.length))
    talk.stage

end

section
variable (rmqtt : Rmqtt) (config : Config)

/-- A refused CONNECT, with the CONNACK that says so if one may be sent. -/
def refusal : Option (ProtocolVersion × MqttPacket) → Exchange
  | some (version, connack) => .write (encoding rmqtt version connack) ⟨.refused, [], []⟩
  | none => ⟨.refused, [], []⟩

def serveDecision (version : ProtocolVersion) (script : Script) : ConnectDecision → Exchange
  | .notConnect => ⟨.protocol, [], []⟩
  | .refuse connack sendable => refusal rmqtt (if sendable then some (version, connack) else none)
  | .refusePersistentSession => refusal rmqtt none
  | .accept connack _ _ idleTimeout maxPacketSize =>
    .write (encoding rmqtt version connack)
      (serveTalk rmqtt version ⟨idleTimeout, maxPacketSize, config.ingestDeadline⟩ script ⟨[], .reading⟩)

def serveScript (version : ProtocolVersion) : Script → Exchange
  | (packet :: packets, last) =>
    serveDecision rmqtt config version (packets, last)
      (evaluateConnect rmqtt packet config.idleTimeoutSecs config.peerAddr config.maxInboundPacketSize)
  | ([], .error error) =>
    if error.decodeError = some .invalidClientId then refusal rmqtt (some (version, refusedClientId config version))
    else ⟨.io, [], []⟩
  | ([], .clean) | ([], .unfinished) => ⟨.clientClosed, [], []⟩

/-- What a session makes of a client that sends `bytes`, whatever it reads at a time. -/
def serve (bytes : Bytes) : Exchange :=
  match probe rmqtt config bytes with
  | .ok (some version) => serveScript rmqtt config version (scriptOf rmqtt config bytes version)
  | .ok none => if bytes = [] then ⟨.clientClosed, [], []⟩ else ⟨.io, [], []⟩
  | .error error =>
    if error.decodeError = some .unsupportedProtocolLevel then
      refusal rmqtt (some (.mqtt3, .v3 (.connectAck ⟨.unacceptableProtocolVersion, false⟩)))
    else ⟨.io, [], []⟩

def servePhase (bytes : Bytes) : Phase → Exchange
  | .probing => serve rmqtt config bytes
  | .connecting version => serveScript rmqtt config version (scriptOf rmqtt config bytes version)
  | .refusing connack => refusal rmqtt connack
  | .refused => ⟨.refused, [], []⟩
  | .accepting version connack loop script =>
    .write (encoding rmqtt version connack) (serveTalk rmqtt version loop script ⟨[], .reading⟩)
  | .greeting version loop script => serveTalk rmqtt version loop script ⟨[], .reading⟩
  | .serving version loop script talk => serveTalk rmqtt version loop script talk
  | .failed error => ⟨kindOf error, [], []⟩

end

/-! ### Every run agrees with it -/

/-- The publishes a session put into the event channel, in order. -/
def deliveredIn (log : List Observation) : List Publish :=
  log.flatMap fun
    | .admitted _ _ ledger => ledger.queued
    | _ => []

/-- Nothing went wrong around the session: no read or write failed, no timer expired,
and the event channel had room at once. -/
def Calm : Observation → Bool
  | .readEnded (some (.transport _)) | .writeFailed => false
  | .readExpired | .writeExpired | .slotExpired | .idleClosed => false
  | .awaitSlot _ _ => false
  | .admitted _ admission _ => admission = .enqueued
  | _ => true

/-- What a log did, in front of what is left to do. -/
def Exchange.after (rmqtt : Rmqtt) (log : List Observation) (rest : Exchange) : Exchange where
  kind := rest.kind
  delivered := deliveredIn log ++ rest.delivered
  written := sentBytes rmqtt log ++ rest.written

@[simp] theorem deliveredIn_append (first second : List Observation) :
    deliveredIn (first ++ second) = deliveredIn first ++ deliveredIn second := by
  simp [deliveredIn]

private theorem Exchange.after_append {rmqtt : Rmqtt} (first second : List Observation) (rest : Exchange) :
    rest.after rmqtt (first ++ second) = (rest.after rmqtt second).after rmqtt first := by
  simp [Exchange.after]

section
variable {rmqtt : Rmqtt} {config : Config} {bytes : Bytes} {version : ProtocolVersion} {loop : LoopConfig} {script : Script}
  {log : List Observation}

variable {observation : Observation} {phase : Phase}

theorem after_mechanical (mechanical : Mechanical observation) (rest : Exchange) :
    rest.after rmqtt [observation] = rest := by
  cases observation <;> first | rfl | exact mechanical.elim

theorem after_sent (packet : MqttPacket) (rest : Exchange) :
    rest.after rmqtt [.sent version packet] = rest.write (encoding rmqtt version packet) := by
  simp [Exchange.after, Exchange.write, deliveredIn, sentBytes]

private theorem after_admitted {publish : CodecPublish} {ledger : Ledger}
    (accounted : ChannelUse.Accounted (.fromCodec publish) .enqueued ledger) (rest : Exchange) :
    rest.after rmqtt [.admitted publish .enqueued ledger] = rest.deliver (.fromCodec publish) := by
  simp [Exchange.after, Exchange.deliver, deliveredIn, sentBytes, accounted.1]

private theorem serveFrom_next {packets : List MqttPacket} {packet : MqttPacket} (next : packets ++ [packet] <+: script.1) :
    serveFrom rmqtt version loop script.2 packets (script.1.drop packets.length) =
      remaining rmqtt version loop
        (serveFrom rmqtt version loop script.2 (packets ++ [packet]) (script.1.drop (packets ++ [packet]).length))
        (.decided (answer packets packet)) := by
  obtain ⟨rest, whole⟩ := next
  rw [← whole, List.drop_left, List.append_assoc, List.drop_left]
  rfl

/-- Step: a calm observation of the packet loop is the part of the exchange it stands for. -/
private theorem serveTalk_step {talk after : Talk}
    (step : talk.Step rmqtt version loop script observation after) (calm : Calm observation = true) :
    serveTalk rmqtt version loop script talk =
      (serveTalk rmqtt version loop script after).after rmqtt [observation] := by
  cases step with
  | mechanical talk mechanical => rw [after_mechanical mechanical]
  | ended packets finished =>
    subst finished
    simp [serveTalk, remaining, serveFrom, ending]
    rfl
  | rejected packets finished classified =>
    subst finished
    simp [serveTalk, remaining, serveFrom, ending, classified]
    rfl
  | truncated packets finished =>
    subst finished
    simp [serveTalk, remaining, serveFrom, ending]
    rfl
  | decoded packets packet next =>
    exact serveFrom_next next
  | admitted packets publish owed idleWait accounted =>
    obtain rfl : _ = Admission.enqueued := of_decide_eq_true calm
    rw [after_admitted accounted]
    cases owed <;> rfl
  | exhausted packets publish owed idleWait accounted stops =>
    obtain rfl : _ = Admission.enqueued := of_decide_eq_true calm
    cases stops
  | gated packets exceeds =>
    simp only [serveTalk, remaining, replying, exceeds]
    rfl
  | replied packets fits =>
    simp only [serveTalk, remaining, replying, fits, after_sent]
  | disconnected packets fits =>
    simp only [serveTalk, remaining, parting, fits, after_sent]
  | awaitRead | offered | violated => rfl
  | awaitSlot | slotExpired | idleClosed | readExpired | failed => cases calm

private theorem servePhase_decided (decision : ConnectDecision) :
    servePhase rmqtt config bytes (.decided config version script decision) =
      serveDecision rmqtt config version script decision := by
  cases decision <;> rfl

/-- The probe answers the same on the whole stream, unless the header turns out to be over the bound. -/
inductive Probed (rmqtt : Rmqtt) (config : Config) (bytes : Bytes) (answer : Except IoError (Option ProtocolVersion)) : Prop
  | same (same : probe rmqtt config bytes = answer)
  | oversized (exceeds : config.maxInboundPacketSize.rejectsFixedHeader bytes = true)
      (other : answer ≠ .error (.decode .unsupportedProtocolLevel))

private theorem probe_probed (lawful : rmqtt.LawfulProbe) {seen : Bytes} (part : seen <+: bytes)
    {answer : Except IoError (Option ProtocolVersion)} (answered : probe rmqtt config seen = answer)
    (decided : answer ≠ .ok none) : Probed rmqtt config bytes answer := by
  obtain ⟨more, rfl⟩ := part
  subst answered
  cases exceeds : config.maxInboundPacketSize.rejectsFixedHeader (seen ++ more) with
  | false => exact .same (decode_append lawful config.maxInboundPacketSize more exceeds decided)
  | true => exact .oversized exceeds (decode_over lawful config.maxInboundPacketSize more exceeds)

private theorem serve_over (exceeds : config.maxInboundPacketSize.rejectsFixedHeader bytes = true) :
    serve rmqtt config bytes = ⟨.io, [], []⟩ := by
  have answered : probe rmqtt config bytes = .error (.decode .maxSizeExceeded) := by
    simp only [probe, VersionDecoder.decode, exceeds, if_true]
  simp only [serve, answered]
  rfl

private theorem serveScript_over (exceeds : config.maxInboundPacketSize.rejectsFixedHeader bytes = true) (version : ProtocolVersion) :
    serveScript rmqtt config version (scriptOf rmqtt config bytes version) = ⟨.io, [], []⟩ := by
  rw [scriptOf, Framing.parse_over exceeds]
  rfl

/-- Step: a calm observation of the session is the part of the exchange it stands for. -/
private theorem servePhase_step (lawful : rmqtt.LawfulProbe) {after : Phase}
    (step : Step rmqtt config bytes phase observation after) (calm : Calm observation = true) :
    servePhase rmqtt config bytes phase = (servePhase rmqtt config bytes after).after rmqtt [observation] := by
  cases step with
  | mechanical phase mechanical => rw [after_mechanical mechanical]
  | awaitRead => rfl
  | readExpired | readFailed => cases calm
  | probed version probed =>
    obtain ⟨seen, part, answer⟩ := probed lawful.looks
    change serve rmqtt config bytes = serveScript rmqtt config version (scriptOf rmqtt config bytes version)
    cases probe_probed lawful part answer (by simp) with
    | same same => simp only [serve, same]
    | oversized exceeds => rw [serve_over exceeds, serveScript_over exceeds]
  | unsupported probed =>
    obtain ⟨seen, part, answer⟩ := probed lawful.looks
    cases probe_probed lawful part answer (by simp) with
    | same same =>
      simp only [servePhase, serve, same]
      rfl
    | oversized _ other => exact absurd rfl other
  | unprobed other probed =>
    obtain ⟨seen, part, answer⟩ := probed lawful.looks
    change serve rmqtt config bytes = ⟨.io, [], []⟩
    cases probe_probed lawful part answer (by simp) with
    | same same =>
      simp only [serve, same]
      exact if_neg fun level => other (Option.some.inj level)
    | oversized exceeds => exact serve_over exceeds
  | unfinished probed =>
    obtain ⟨answer, nonempty⟩ := probed lawful.looks
    simp only [servePhase, serve, answer, if_neg nonempty]
    rfl
  | unopened probed =>
    obtain ⟨answer, empty⟩ := probed lawful.looks
    simp only [servePhase, serve, answer, if_pos empty]
    rfl
  | clientId version parsed =>
    simp only [servePhase, parsed lawful.looks, serveScript]
    rfl
  | unconnected version other parsed =>
    simp only [servePhase, parsed lawful.looks, serveScript, if_neg other]
    rfl
  | ended version parsed =>
    simp only [servePhase, parsed lawful.looks, serveScript]
    rfl
  | received version packet script parsed =>
    rw [servePhase_decided]
    simp only [servePhase, parsed lawful.looks]
    rfl
  | refused version connack => rw [after_sent]; rfl
  | accepted version connack loop script => rw [after_sent]; rfl
  | greeted => rfl
  | served version loop script step => exact serveTalk_step step calm

def Alert : Phase → Prop
  | .serving _ _ _ talk => talk.stage.spent = false
  | _ => True

private theorem alert_step {after : Phase} (alert : Alert phase)
    (step : Step rmqtt config bytes phase observation after) (calm : Calm observation = true) : Alert after := by
  cases step with
  | mechanical | awaitRead => exact alert
  | received => cases evaluateConnect _ _ _ _ _ <;> trivial
  | served version loop script step =>
    cases step with
    | mechanical => exact alert
    | decoded packets packet => cases answered : answer packets packet <;> rfl
    | admitted packets publish owed => cases owed <;> rfl
    | exhausted packets publish owed idleWait accounted stops =>
      obtain rfl : _ = Admission.enqueued := of_decide_eq_true calm
      cases stops
    | idleClosed => cases calm
    | _ => rfl
  | greeted => rfl
  | _ => trivial

/-- The packets a session has still to serve are in the client's bytes. -/
def Contained (bytes : Bytes) : Phase → Prop
  | .accepting _ _ _ script | .greeting _ _ script | .serving _ _ script _ => script.1.length < bytes.length
  | _ => True

private theorem contained_step (looks : rmqtt.ProbeLooks) {after : Phase}
    (contained : Contained bytes phase) (step : Step rmqtt config bytes phase observation after) :
    Contained bytes after := by
  cases step with
  | mechanical | awaitRead | accepted | greeted | served => exact contained
  | received version packet script parsed =>
    have short := @Framing.parse_length_le rmqtt version config.maxInboundPacketSize bytes
    have length := congrArg (fun script => script.1.length) (parsed looks)
    simp only [scriptOf, List.length_map, List.length_cons] at length
    cases evaluateConnect _ _ _ _ _ with
    | accept =>
      change script.1.length < bytes.length
      omega
    | _ => trivial
  | _ => trivial

/-- Run: a calm conversation did what the bytes call for, up to what is left to do. -/
private theorem converses_serves (lawful : rmqtt.LawfulProbe) (converses : Converses rmqtt config bytes log phase)
    (calm : ∀ observation ∈ log, Calm observation = true) :
    (servePhase rmqtt config bytes phase).after rmqtt log = serve rmqtt config bytes ∧ Alert phase := by
  refine converses.invariant
    (fun log phase => (∀ observation ∈ log, Calm observation = true) →
      (servePhase rmqtt config bytes phase).after rmqtt log = serve rmqtt config bytes ∧ Alert phase)
    (show _ → _ ∧ Alert .probing from fun _ => ⟨rfl, trivial⟩) ?_ calm
  intro seen phase observation after held step calm
  obtain ⟨total, alert⟩ := held fun earlier member => calm earlier (List.mem_append_left _ member)
  have now := calm observation (List.mem_append_right _ List.mem_cons_self)
  rw [Exchange.after_append, ← servePhase_step lawful step now]
  exact ⟨total, alert_step alert step now⟩

private theorem converses_contained (looks : rmqtt.ProbeLooks) (converses : Converses rmqtt config bytes log phase) :
    Contained bytes phase := by
  refine converses.invariant (fun _ phase => Contained bytes phase) (show Contained bytes .probing from trivial) ?_
  intro seen phase observation after contained step
  exact contained_step looks contained step

private theorem servePhase_over {phase : Phase} {result : Except Stop SessionOutcome} (fits : outcome phase = some result)
    (alert : Alert phase) (parted : Parted rmqtt phase) :
    ∃ kind, observed result = some kind ∧ servePhase rmqtt config bytes phase = ⟨kind, [], []⟩ := by
  cases phase with
  | refusing connack =>
    cases connack with
    | none =>
      cases fits
      exact ⟨_, rfl, rfl⟩
    | some connack => cases fits
  | refused =>
    cases fits
    exact ⟨_, rfl, rfl⟩
  | failed error =>
    cases fits
    exact ⟨_, rfl, rfl⟩
  | serving version loop script talk =>
    obtain ⟨packets, stage⟩ := talk
    cases stage with
    | closed | parted =>
      cases fits
      exact ⟨_, rfl, rfl⟩
    | broken error =>
      obtain rfl := Option.some.inj fits
      by_cases truncated : error = .truncatedPacket <;> simp [truncated, observed, kindOf, servePhase, serveTalk, remaining]
    | closing violation =>
      cases fits
      have silent : violation.disconnect rmqtt version loop.maxPacketSize = none := parted
      exact ⟨_, rfl, by simp only [servePhase, serveTalk, remaining, parting, silent]⟩
    | idled => cases alert
    | _ => cases fits
  | _ => cases fits

end

/-! ### Any two cuts of one stream -/

/-- A session left alone by its surroundings: nothing fails, no timer expires, and the event
channel always has room. -/
structure Undisturbed (rmqtt : Rmqtt) (sync : LocalSync) (scenario : Scenario) : Prop where
  reads : ∀ moment, (scenario.env moment).arrival ≠ .never
  writes : ∀ moment taken, (scenario.env moment).writing ≠ .never taken
  turns : scenario.bytes.length ≤ scenario.turns
  calm : ∀ observation ∈ scenario.log rmqtt sync, Calm observation = true

section
variable {rmqtt : Rmqtt} {sync : LocalSync} {view : sync.Room → Semaphore Nat}

variable {scenario : Scenario}

theorem Undisturbed.returns (undisturbed : Undisturbed rmqtt sync scenario) (looks : rmqtt.ProbeLooks)
    {phase : Phase} {result : Except Stop SessionOutcome} {world : World rmqtt sync}
    (final : Final scenario.env scenario.config scenario.bytes scenario.turns (scenario.log rmqtt sync) phase result world) :
    returned result = true := by
  refine Bool.eq_true_of_not_eq_false fun halted => ?_
  rcases final.halted halted with suspended | spent
  · cases suspended with
    | read moment never => exact undisturbed.reads moment never
    | write moment taken never => exact undisturbed.writes moment taken never
    | slot unflushed writeBuffer waits => cases undisturbed.calm _ waits
  · have contained := converses_contained looks final.converses
    have turns := undisturbed.turns
    cases phase with
    | serving version loop script talk =>
      have short : script.1.length < scenario.bytes.length := contained
      have used : scenario.turns ≤ script.1.length := spent
      omega
    | _ => exact spent

theorem calm_quiet {log : List Observation} (calm : ∀ observation ∈ log, Calm observation = true) : Quiet log := by
  intro observation member
  have calm := calm observation member
  cases observation <;> first | rfl | cases calm

theorem Undisturbed.serves (undisturbed : Undisturbed rmqtt sync scenario)
    (framing : rmqtt.LawfulFraming) (lawful : rmqtt.LawfulProbe) (channel : sync.Lawful view) :
    observed (scenario.answer rmqtt sync) = some (serve rmqtt scenario.config scenario.bytes).kind ∧
      deliveredIn (scenario.log rmqtt sync) = (serve rmqtt scenario.config scenario.bytes).delivered ∧
      scenario.written rmqtt sync = (serve rmqtt scenario.config scenario.bytes).written := by
  obtain ⟨phase, final⟩ := scenario.final channel framing
  have back := undisturbed.returns lawful.looks final
  have quiet := calm_quiet undisturbed.calm
  obtain ⟨total, alert⟩ := converses_serves lawful final.converses undisturbed.calm
  have awake : ¬Idled phase := by
    intro idled
    cases phase with
    | serving version loop script talk =>
      have spent : talk.stage.spent = false := alert
      rw [show talk.stage = .idled from idled] at spent
      cases spent
    | _ => exact idled
  obtain ⟨whole, parted⟩ := final.whole back quiet awake
  obtain ⟨kind, same, nothing⟩ := @servePhase_over rmqtt scenario.config scenario.bytes _ _
    (final.settled back quiet) alert parted
  have written : scenario.written rmqtt sync = wroteBytes (scenario.log rmqtt sync) := final.safe.written
  rw [← total, nothing, written, whole, same]
  simp [Exchange.after]

/-- How a client's bytes are cut into reads makes no difference: two sessions left
alone with the same bytes return, with the same kind of result, deliver the same
publishes in the same order and write the same bytes. -/
theorem chunking_independent (framing : rmqtt.LawfulFraming) (lawful : rmqtt.LawfulProbe) (channel : sync.Lawful view)
    {one two : Scenario} (config : one.config = two.config) (bytes : one.bytes = two.bytes)
    (first : Undisturbed rmqtt sync one) (second : Undisturbed rmqtt sync two) :
    ∃ kind, observed (one.answer rmqtt sync) = some kind ∧ observed (two.answer rmqtt sync) = some kind ∧
      deliveredIn (one.log rmqtt sync) = deliveredIn (two.log rmqtt sync) ∧
      one.written rmqtt sync = two.written rmqtt sync := by
  obtain ⟨oneKind, oneDelivered, oneWritten⟩ := first.serves framing lawful channel
  obtain ⟨twoKind, twoDelivered, twoWritten⟩ := second.serves framing lawful channel
  rw [config, bytes] at oneKind oneDelivered oneWritten
  exact ⟨_, oneKind, twoKind, oneDelivered.trans twoDelivered.symm, oneWritten.trans twoWritten.symm⟩

open Fixtures

def publisher (incoming : List Chunk) : Scenario := { Scenario.prompt incoming with turns := 32 }

def firstBytes : Bytes := v3ConnectTest ++ publishQos1T ++ pingreq

def inOneRead : Scenario := publisher [⟨firstBytes, List.cons_ne_nil _ _⟩]

def byteByByte : Scenario := publisher (firstBytes.map fun byte => ⟨[byte], List.cons_ne_nil byte []⟩)

theorem chunking_independent_publisher :
    inOneRead.written codec .fifo = [0x20, 0x02, 0x00, 0x00, 0x40, 0x02, 0x00, 0x01, 0xD0, 0x00] ∧
    ∃ kind, observed (inOneRead.answer codec .fifo) = some kind ∧
      observed (byteByByte.answer codec .fifo) = some kind ∧
      deliveredIn (inOneRead.log codec .fifo) = deliveredIn (byteByByte.log codec .fifo) ∧
      inOneRead.written codec .fifo = byteByByte.written codec .fifo := by
  have whole : Undisturbed codec .fifo inOneRead :=
    ⟨by rintro _ ⟨⟩, by rintro _ _ ⟨⟩, by decide, by decide +kernel⟩
  have pieces : Undisturbed codec .fifo byteByByte :=
    ⟨by rintro _ ⟨⟩, by rintro _ _ ⟨⟩, by decide, by decide +kernel⟩
  refine ⟨by decide +kernel, ?_⟩
  exact chunking_independent codec_lawful codec_lawfulProbe LocalSync.fifo_lawful rfl rfl whole pieces

end

end UringMqtt.Proofs.Chunking

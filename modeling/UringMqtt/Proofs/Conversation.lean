import UringMqtt.Broker.Handler
import UringMqtt.Lib.Runs
import UringMqtt.Proofs.ChannelUse
import UringMqtt.Proofs.ExactlyOnce

/-! What a session is for, as an onlooker sees it: a conversation with its client in which
every packet is answered before the next one is decoded. The packet loop and the handshake
are each an automaton over the observations. -/

namespace UringMqtt.Proofs.Conversation
open Lib ExactlyOnce

/-- Timers, and the bytes on their way out. They belong to every stage but those that
give up on the client. -/
def Mechanical : Observation → Prop
  | .timer _ | .wrote _ | .flushed | .writeFailed | .writeExpired => True
  | _ => False

/-! ### The packet loop -/

inductive Stage where
  | reading
  /-- The packet is a PUBLISH to be offered, and maybe acknowledged afterwards. -/
  | delivering (publish : CodecPublish) (owed : Option Reply)
  | offering (publish : CodecPublish) (owed : Option Reply) (idleWait : Nat)
  | replying (reply : Reply)
  | starved (owed : Option Reply)
  | offended (violation : Violation)
  | closing (violation : Violation)
  | parted (violation : Violation)
  | idled
  | closed
  | broken (error : IoError)

def Stage.owing : Option Reply → Stage
  | some reply => .replying reply
  | none => .reading

def Stage.spent : Stage → Bool
  | .starved _ | .idled => true
  | _ => false

def Stage.decided : Disposition → Stage
  | .deliver publish => .delivering publish none
  | .deliverThenReply publish reply => .delivering publish (some reply)
  | .reply reply => .replying reply
  | .close => .closed
  | .violation violation => .offended violation

/-- Whether an admission ends the session: nobody is left to read the reply, or
the wait was cut short by the idle budget. -/
def exhausts (ingestDeadline idleWait : Nat) : Admission → Bool
  | .noReplyTime => true
  | .dropped => decide (idleWait < ingestDeadline)
  | .enqueued | .enqueuedAfterHold | .receiverClosed => false

structure Talk where
  packets : List MqttPacket
  stage : Stage

abbrev Script := List MqttPacket × Ending

section
variable (rmqtt : Rmqtt) (version : ProtocolVersion) (loop : LoopConfig) (script : Script)

inductive Stage.Interruptible : Stage → Prop
  | reading : Interruptible .reading
  | replying (reply : Reply) : Interruptible (.replying reply)
  | starved (owed : Option Reply) : Interruptible (.starved owed)
  | offended (violation : Violation) : Interruptible (.offended violation)

inductive Talk.Step : Talk → Observation → Talk → Prop
  | mechanical (talk : Talk) {observation : Observation} (mechanical : Mechanical observation)
      (unspent : talk.stage.spent = false) : Step talk observation talk
  | awaitRead (packets : List MqttPacket) (unflushed : Option UnflushedReplies) (writeBuffer : Bytes) :
      Step ⟨packets, .reading⟩ (.awaitRead unflushed writeBuffer) ⟨packets, .reading⟩
  | readExpired (packets : List MqttPacket) : Step ⟨packets, .reading⟩ .readExpired ⟨packets, .closed⟩
  | ended (packets : List MqttPacket) (finished : script = (packets, .clean)) :
      Step ⟨packets, .reading⟩ (.readEnded none) ⟨packets, .closed⟩
  | rejected (packets : List MqttPacket) {error : DecodeError} {violation : Violation}
      (finished : script = (packets, .error (.decode error)))
      (classified : classifyReadError (.decode error) = some violation) :
      Step ⟨packets, .reading⟩ (.readEnded (some (.decode error))) ⟨packets, .offended violation⟩
  | truncated (packets : List MqttPacket) (finished : script = (packets, .error .truncatedPacket)) :
      Step ⟨packets, .reading⟩ (.readEnded (some .truncatedPacket)) ⟨packets, .broken .truncatedPacket⟩
  | failed (packets : List MqttPacket) (kind : Nat) :
      Step ⟨packets, .reading⟩ (.readEnded (some (.transport kind))) ⟨packets, .broken (.transport kind)⟩
  | decoded (packets : List MqttPacket) (packet : MqttPacket) (next : packets ++ [packet] <+: script.1) :
      Step ⟨packets, .reading⟩ (.decoded packet) ⟨packets ++ [packet], .decided (answer packets packet)⟩
  | offered (packets : List MqttPacket) (publish : CodecPublish) (owed : Option Reply) (idleWait : Nat) :
      Step ⟨packets, .delivering publish owed⟩ (.offered publish idleWait) ⟨packets, .offering publish owed idleWait⟩
  | awaitSlot (packets : List MqttPacket) (publish : CodecPublish) (owed : Option Reply) (idleWait : Nat)
      (unflushed : Option UnflushedReplies) (writeBuffer : Bytes) :
      Step ⟨packets, .offering publish owed idleWait⟩ (.awaitSlot unflushed writeBuffer)
        ⟨packets, .offering publish owed idleWait⟩
  | slotExpired (packets : List MqttPacket) (publish : CodecPublish) (owed : Option Reply) (idleWait : Nat) :
      Step ⟨packets, .offering publish owed idleWait⟩ .slotExpired ⟨packets, .offering publish owed idleWait⟩
  | admitted (packets : List MqttPacket) (publish : CodecPublish) (owed : Option Reply) (idleWait : Nat)
      {admission : Admission} {ledger : Ledger} (accounted : ChannelUse.Accounted (.fromCodec publish) admission ledger)
      (goesOn : exhausts loop.ingestDeadline idleWait admission = false) :
      Step ⟨packets, .offering publish owed idleWait⟩ (.admitted publish admission ledger) ⟨packets, .owing owed⟩
  | exhausted (packets : List MqttPacket) (publish : CodecPublish) (owed : Option Reply) (idleWait : Nat)
      {admission : Admission} {ledger : Ledger} (accounted : ChannelUse.Accounted (.fromCodec publish) admission ledger)
      (stops : exhausts loop.ingestDeadline idleWait admission = true) :
      Step ⟨packets, .offering publish owed idleWait⟩ (.admitted publish admission ledger) ⟨packets, .starved owed⟩
  | idleClosed (packets : List MqttPacket) {stage : Stage} (interruptible : stage.Interruptible) :
      Step ⟨packets, stage⟩ .idleClosed ⟨packets, .idled⟩
  | gated (packets : List MqttPacket) {reply : Reply} {violation : Violation}
      (exceeds : replyOverMaxPacketSize rmqtt reply version loop.maxPacketSize = some violation) :
      Step ⟨packets, .replying reply⟩ .gated ⟨packets, .offended violation⟩
  | replied (packets : List MqttPacket) {reply : Reply}
      (fits : replyOverMaxPacketSize rmqtt reply version loop.maxPacketSize = none) :
      Step ⟨packets, .replying reply⟩ (.sent version (reply.render version)) ⟨packets, .reading⟩
  | violated (packets : List MqttPacket) (violation : Violation) :
      Step ⟨packets, .offended violation⟩ (.violated violation) ⟨packets, .closing violation⟩
  | disconnected (packets : List MqttPacket) {violation : Violation} {packet : MqttPacket}
      (fits : violation.disconnect rmqtt version loop.maxPacketSize = some packet) :
      Step ⟨packets, .closing violation⟩ (.sent version packet) ⟨packets, .parted violation⟩

abbrev Talks (log : List Observation) (talk : Talk) : Prop :=
  Runs (Talk.Step rmqtt version loop script) ⟨[], .reading⟩ log talk

end

/-! ### The session around it -/

inductive Phase where
  | probing
  | connecting (version : ProtocolVersion)
  /-- The CONNECT is refused, with the CONNACK that says so if one may be sent. -/
  | refusing (connack : Option (ProtocolVersion × MqttPacket))
  | refused
  | accepting (version : ProtocolVersion) (connack : MqttPacket) (loop : LoopConfig) (script : Script)
  | greeting (version : ProtocolVersion) (loop : LoopConfig) (script : Script)
  | serving (version : ProtocolVersion) (loop : LoopConfig) (script : Script) (talk : Talk)
  | failed (error : Error)

def Phase.decided (config : Config) (version : ProtocolVersion) (script : Script) : ConnectDecision → Phase
  | .notConnect => .failed (.protocol "first packet was not CONNECT")
  | .refuse connack sendable => .refusing (if sendable then some (version, connack) else none)
  | .refusePersistentSession => .refusing none
  | .accept connack _ _ idleTimeout maxPacketSize =>
    .accepting version connack ⟨idleTimeout, maxPacketSize, config.ingestDeadline⟩ script

def Phase.served : Phase → Bool
  | .serving .. => true
  | _ => false

inductive Phase.Waiting : Phase → Prop
  | probing : Waiting .probing
  | connecting (version : ProtocolVersion) : Waiting (.connecting version)

section
variable (rmqtt : Rmqtt) (config : Config) (bytes : Bytes)

def probe (seen : Bytes) : Except IoError (Option ProtocolVersion) :=
  ((VersionDecoder.mk config.maxInboundPacketSize).decode rmqtt seen).1

def scriptOf (version : ProtocolVersion) : Script :=
  ((Reference.parse rmqtt version config.maxInboundPacketSize bytes).1.map Prod.fst,
    (Reference.parse rmqtt version config.maxInboundPacketSize bytes).2)

/-- A session with a client that sends `bytes`. What it makes of them is only known
of a version probe that takes none. -/
inductive Step : Phase → Observation → Phase → Prop
  | mechanical (phase : Phase) {observation : Observation} (mechanical : Mechanical observation)
      (unserved : phase.served = false) : Step phase observation phase
  | awaitRead {phase : Phase} (waiting : phase.Waiting) (unflushed : Option UnflushedReplies) (writeBuffer : Bytes) :
      Step phase (.awaitRead unflushed writeBuffer) phase
  | readExpired {phase : Phase} (waiting : phase.Waiting) : Step phase .readExpired (.failed .timeout)
  | readFailed {phase : Phase} (waiting : phase.Waiting) (kind : Nat) :
      Step phase (.readEnded (some (.transport kind))) (.failed (.io (.transport kind)))
  | probed (version : ProtocolVersion)
      (probed : rmqtt.ProbeLooks → ∃ seen, seen <+: bytes ∧ probe rmqtt config seen = .ok (some version)) :
      Step .probing (.probed version) (.connecting version)
  | unsupported
      (probed : rmqtt.ProbeLooks →
        ∃ seen, seen <+: bytes ∧ probe rmqtt config seen = .error (.decode .unsupportedProtocolLevel)) :
      Step .probing (.readEnded (some (.decode .unsupportedProtocolLevel)))
        (.refusing (some (.mqtt3, .v3 (.connectAck ⟨.unacceptableProtocolVersion, false⟩))))
  | unprobed {error : DecodeError} (other : error ≠ .unsupportedProtocolLevel)
      (probed : rmqtt.ProbeLooks → ∃ seen, seen <+: bytes ∧ probe rmqtt config seen = .error (.decode error)) :
      Step .probing (.readEnded (some (.decode error))) (.failed (.io (.decode error)))
  | unfinished (probed : rmqtt.ProbeLooks → probe rmqtt config bytes = .ok none ∧ bytes ≠ []) :
      Step .probing (.readEnded (some .bytesRemaining)) (.failed (.io .bytesRemaining))
  | unopened (probed : rmqtt.ProbeLooks → probe rmqtt config bytes = .ok none ∧ bytes = []) :
      Step .probing (.readEnded none) (.failed .clientClosed)
  | clientId (version : ProtocolVersion)
      (parsed : rmqtt.ProbeLooks → scriptOf rmqtt config bytes version = ([], .error (.decode .invalidClientId))) :
      Step (.connecting version) (.readEnded (some (.decode .invalidClientId)))
        (.refusing (some (version, refusedClientId config version)))
  | unconnected (version : ProtocolVersion) {error : IoError} (other : error.decodeError ≠ some .invalidClientId)
      (parsed : rmqtt.ProbeLooks → scriptOf rmqtt config bytes version = ([], .error error)) :
      Step (.connecting version) (.readEnded (some error)) (.failed (.io error))
  | ended (version : ProtocolVersion) (parsed : rmqtt.ProbeLooks → scriptOf rmqtt config bytes version = ([], .clean)) :
      Step (.connecting version) (.readEnded none) (.failed .clientClosed)
  | received (version : ProtocolVersion) (packet : MqttPacket) (script : Script)
      (parsed : rmqtt.ProbeLooks → scriptOf rmqtt config bytes version = (packet :: script.1, script.2))
      (sourced : ∃ first body, rmqtt.decodePacket version first body = .ok packet) :
      Step (.connecting version) (.received packet) (.decided config version script
        (evaluateConnect rmqtt packet config.idleTimeoutSecs config.peerAddr config.maxInboundPacketSize))
  | refused (version : ProtocolVersion) (connack : MqttPacket) :
      Step (.refusing (some (version, connack))) (.sent version connack) .refused
  | accepted (version : ProtocolVersion) (connack : MqttPacket) (loop : LoopConfig) (script : Script) :
      Step (.accepting version connack loop script) (.sent version connack) (.greeting version loop script)
  | greeted (version : ProtocolVersion) (loop : LoopConfig) (script : Script) :
      Step (.greeting version loop script) .flushed (.serving version loop script ⟨[], .reading⟩)
  | served (version : ProtocolVersion) (loop : LoopConfig) (script : Script) {talk after : Talk} {observation : Observation}
      (step : talk.Step rmqtt version loop script observation after) :
      Step (.serving version loop script talk) observation (.serving version loop script after)

abbrev Converses (log : List Observation) (phase : Phase) : Prop := Runs (Step rmqtt config bytes) .probing log phase

theorem serving_talks {rmqtt : Rmqtt} {config : Config} {bytes : Bytes} {version : ProtocolVersion} {loop : LoopConfig}
    {script : Script} {talk : Talk} {log : List Observation} {phase : Phase}
    (run : Runs (Step rmqtt config bytes) (.serving version loop script talk) log phase) :
    ∃ last, phase = .serving version loop script last ∧ Runs (Talk.Step rmqtt version loop script) talk log last := by
  induction run with
  | start => exact ⟨talk, rfl, .start⟩
  | next _ moved ih =>
    obtain ⟨last, rfl, run⟩ := ih
    cases moved with
    | mechanical _ _ unserved => cases unserved
    | awaitRead waiting | readExpired waiting | readFailed waiting => cases waiting
    | served _ _ _ step => exact ⟨_, rfl, run.next step⟩

end

end UringMqtt.Proofs.Conversation

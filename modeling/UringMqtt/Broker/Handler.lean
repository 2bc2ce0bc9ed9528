import UringMqtt.Broker.Handshake
import UringMqtt.Broker.Runtime

/-! One client session, `src/broker/handler.rs`: the handshake, the packet loop
and the replies it queues and flushes. Instants and durations are in
milliseconds; `a.saturating_sub(b)` is subtraction of naturals. -/

namespace UringMqtt

inductive SessionOutcome where
  | served
  | refused
  | violation
deriving DecidableEq, Repr

structure Config where
  connectionTimeoutSecs : Nat
  idleTimeoutSecs : Nat
  maxInboundPacketSize : MaxInboundPacketSize
  ingestDeadline : Nat
  peerAddr : String

def ingestReplyReserve : Nat := 1000

inductive IngestStep where
  | continue (held : Bool)
  | idleTimeout
deriving DecidableEq

section
variable {rmqtt : Rmqtt} {sync : LocalSync} (env : Nat → Moment)

def fail {α : Type} (error : Error) : Session rmqtt sync α := throw (.error error)

/-- Run to a `Result`; a suspended task stays suspended, and a panic goes on. -/
def attempt {α : Type} (run : Session rmqtt sync α) : Session rmqtt sync (Except Error α) := fun world =>
  match run world with
  | .ok value world => .ok (.ok value) world
  | .error (.error error) world => .ok (.error error) world
  | .error .pending world => .error .pending world
  | .error .panicked world => .error .panicked world

def boundedSend (packet : MqttPacket) (deadline : Nat) : Session rmqtt sync Unit := do
  observe (.timer deadline)
  match ← send env packet with
  | .timedOut => fail .timeout
  | .done (.error error) => fail (.io error)
  | .done (.ok ()) =>
    match ← flush env with
    | .timedOut => fail .timeout
    | .done (.error error) => fail (.io error)
    | .done (.ok ()) => return ()

def flushReplies : Session rmqtt sync Unit := do
  match (← get).unflushed with
  | none => return ()
  | some queued =>
    modify fun world => { world with unflushed := none }
    let left := queued.flushBy - (← now env)
    if left = 0 then
      observe .writeExpired
      fail .timeout
    else
      observe (.timer left)
      match ← flush env with
      | .done (.ok ()) => return ()
      | .done (.error error) => fail (.io error)
      | .timedOut => fail .timeout

def encodeReply (packet : MqttPacket) (flushBy : Nat) (timeoutContext : TimeoutContext) : Session rmqtt sync Unit := do
  let moment ← ask env
  observe (.timer (flushBy - moment.time))
  if moment.sendExpires then
    observe .writeExpired
    modify fun world => { world with unflushed := none }
    fail .timeout
  else
    match ← send env packet with
    | .done (.ok ()) =>
      modify fun world => { world with unflushed := some (world.unflushed.getD ⟨flushBy, timeoutContext⟩) }
    | .done (.error error) =>
      modify fun world => { world with unflushed := none }
      fail (.io error)
    | .timedOut =>
      modify fun world => { world with unflushed := none }
      fail .timeout

def queueReply (packet : MqttPacket) (deadline : Nat) (timeoutContext : TimeoutContext) : Session rmqtt sync Unit := do
  let flushBy := (← now env) + deadline
  if (← get).writeBuffer.length ≥ writeBackpressureBoundary then flushReplies env
  encodeReply env packet flushBy timeoutContext

def closeWithViolation (violation : Violation) (deadline : Nat) (maxPacketSize : Option NonZeroU32) :
    Session rmqtt sync SessionOutcome := do
  observe (.violated violation)
  let _queued ← match violation.disconnect rmqtt (← get).version maxPacketSize with
    | some packet => attempt (queueReply env packet deadline .disconnectFlush)
    | none => pure (.ok ())
  let _flushed ← attempt (flushReplies env)
  return .violation

/-- Offer the PUBLISH to the event channel, waiting while it is full for at most
the ingest deadline or the idle budget left after the reserve. -/
def deliverPublish (publish : CodecPublish) (idleLeft ingestDeadline : Nat) : Session rmqtt sync IngestStep := do
  let replyBy := (← now env) + idleLeft
  let idleWait := idleLeft - ingestReplyReserve
  let wait := min ingestDeadline idleWait
  observe (.offered publish idleWait)
  match ← admitPublish env publish wait replyBy with
  | .noReplyTime => return .idleTimeout
  | .dropped => if idleWait < ingestDeadline then return .idleTimeout else return .continue (decide (wait ≠ 0))
  | .enqueuedAfterHold => return .continue true
  | .enqueued | .receiverClosed => return .continue false

/-- `idle_timeout.saturating_sub(state.last_packet_time.elapsed())`. -/
def idleLeft (idleTimeout : Nat) : Session rmqtt sync Nat := do
  let elapsed := (← now env) - (← get).lastPacketTime
  return idleTimeout - elapsed

def idleClose : Session rmqtt sync (Option SessionOutcome) := do
  observe .idleClosed
  return some .served

structure LoopConfig where
  idleTimeout : Nat
  maxPacketSize : Option NonZeroU32
  ingestDeadline : Nat

variable (loop : LoopConfig)

def violationClose (violation : Violation) : Session rmqtt sync (Option SessionOutcome) := do
  let replyDeadline ← idleLeft env loop.idleTimeout
  if replyDeadline = 0 then idleClose
  else return some (← closeWithViolation env violation replyDeadline loop.maxPacketSize)

def replyOwed (owed : Option Reply) : Session rmqtt sync (Option SessionOutcome) := do
  let replyDeadline ← idleLeft env loop.idleTimeout
  if replyDeadline = 0 then idleClose
  else match owed with
    | none => return none
    | some reply =>
      let version := (← get).version
      match replyOverMaxPacketSize rmqtt reply version loop.maxPacketSize with
      | some violation =>
        observe .gated
        return some (← closeWithViolation env violation replyDeadline loop.maxPacketSize)
      | none =>
        queueReply env (reply.render version) replyDeadline reply.timeoutContext
        return none

/-- Deliver, then go on with the reply; an ingest wait that used up the idle
budget closes the session without one. -/
def deliverThen (publish : CodecPublish) (owed : Option Reply) : Session rmqtt sync (Option SessionOutcome) := do
  let left ← idleLeft env loop.idleTimeout
  match ← deliverPublish env publish left loop.ingestDeadline with
  | .continue held =>
    modify fun world => { world with holdDebt := world.holdDebt || held }
    replyOwed env loop owed
  | .idleTimeout => idleClose

def servePacket (packet : MqttPacket) (readStartsFresh : Bool) : Session rmqtt sync (Option SessionOutcome) := do
  observe (.decoded packet)
  if !(← get).holdDebt || readStartsFresh then
    let time ← now env
    modify fun world => { world with lastPacketTime := time, holdDebt := false }
  let (disposition, awaiting) := dispatch packet (← get).awaiting
  modify fun world => { world with awaiting }
  match disposition with
  | .deliver publish => deliverThen env loop publish none
  | .deliverThenReply publish reply => deliverThen env loop publish (some reply)
  | .reply reply => replyOwed env loop (some reply)
  | .close =>
    flushReplies env
    return some .served
  | .violation violation => violationClose env loop violation

def serveReadError (error : IoError) : Session rmqtt sync (Option SessionOutcome) := do
  observe (.readEnded (some error))
  match classifyReadError error with
  | some violation => violationClose env loop violation
  | none => if (Error.io error).isTruncatedPacket then fail (.io error) else return some .served

def turn : Session rmqtt sync (Option SessionOutcome) := do
  let world ← get
  if !holdsCompletePacket world.readBuffer || world.channel.wouldHold then flushReplies env
  let readStartsFresh := (← get).readBuffer.isEmpty
  let remainingIdle ← idleLeft env loop.idleTimeout
  observe (.timer remainingIdle)
  match ← nextPacket env with
  | .done (some (.ok (packet, _))) => servePacket env loop packet readStartsFresh
  | .done (some (.error error)) => serveReadError env loop error
  | .done none =>
    observe (.readEnded none)
    return some .served
  | .timedOut => return some .served

/-- The packet loop. A session that is still going when the turns run out is
reported as pending; every turn that goes on consumed a packet. -/
def runPacketLoop : Nat → Session rmqtt sync SessionOutcome
  | 0 => throw .pending
  | turns + 1 => do
    match ← turn env loop with
    | some outcome => return outcome
    | none => runPacketLoop turns

end

section
variable {rmqtt : Rmqtt} {sync : LocalSync} (env : Nat → Moment) (config : Config)

def refusedClientId (version : ProtocolVersion) : MqttPacket :=
  match version with
  | .mqtt3 => .v3 (.connectAck ⟨.identifierRejected, false⟩)
  | .mqtt5 => .v5 (.connectAck (honestV5Connack .clientIdentifierNotValid config.maxInboundPacketSize))

def remaining (handshakeStart : Nat) : Session rmqtt sync Nat := do
  let elapsed := (← now env) - handshakeStart
  return millisOfSecs (min config.connectionTimeoutSecs maxTimeoutSecs) - elapsed

def serveDecision (turns handshakeStart connectReceivedAt : Nat) (decision : ConnectDecision) :
    Session rmqtt sync SessionOutcome := do
  match decision with
  | .notConnect => fail (.protocol "first packet was not CONNECT")
  | .refuse connack sendable =>
    if sendable then boundedSend env connack (← remaining env config handshakeStart)
    return .refused
  | .refusePersistentSession => return .refused
  | .accept connack _ _ idleTimeout maxPacketSize =>
    boundedSend env connack (← remaining env config handshakeStart)
    modify fun world => { world with
      lastPacketTime := connectReceivedAt, holdDebt := false, unflushed := none, awaiting := {} }
    runPacketLoop env ⟨idleTimeout, maxPacketSize, config.ingestDeadline⟩ turns

def serveConnect (turns handshakeStart : Nat) (version : ProtocolVersion) : Session rmqtt sync SessionOutcome := do
  intoPackets version config.maxInboundPacketSize
  observe (.timer (← remaining env config handshakeStart))
  match ← nextPacket env with
  | .done (some (.ok (packet, _))) =>
    observe (.received packet)
    let connectReceivedAt ← now env
    serveDecision env config turns handshakeStart connectReceivedAt
      (evaluateConnect rmqtt packet config.idleTimeoutSecs config.peerAddr config.maxInboundPacketSize)
  | .done (some (.error error)) =>
    observe (.readEnded (some error))
    if error.decodeError = some .invalidClientId then
      boundedSend env (refusedClientId config version) (← remaining env config handshakeStart)
      return .refused
    else fail (.io error)
  | .done none =>
    observe (.readEnded none)
    fail .clientClosed
  | .timedOut => fail .timeout

def serveSession (turns : Nat) : Session rmqtt sync SessionOutcome := do
  let handshakeStart ← now env
  observe (.timer (← remaining env config handshakeStart))
  match ← nextVersion env config.maxInboundPacketSize with
  | .done (some (.ok version)) =>
    observe (.probed version)
    serveConnect env config turns handshakeStart version
  | .done (some (.error error)) =>
    observe (.readEnded (some error))
    if error.decodeError = some .unsupportedProtocolLevel then
      -- No version was negotiated, so the refusal is the MQTT 3.1.1 CONNACK.
      intoPackets .mqtt3 config.maxInboundPacketSize
      boundedSend env (.v3 (.connectAck ⟨.unacceptableProtocolVersion, false⟩)) (← remaining env config handshakeStart)
      return .refused
    else fail (.io error)
  | .done none =>
    observe (.readEnded none)
    fail .clientClosed
  | .timedOut => fail .timeout

end
end UringMqtt

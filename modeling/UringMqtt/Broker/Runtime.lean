import UringMqtt.Broker.Packet
import UringMqtt.Broker.Worker
import UringMqtt.Codec.Version

/-! The IO and timer seam of a session, `src/broker/runtime.rs`. Whatever the
session cannot decide itself is asked of its surroundings: the clock, the socket,
the timers, and what the other tasks of the worker did to the event channel while
this one was suspended. -/

namespace UringMqtt

structure Publish where
  inner : CodecPublish
deriving DecidableEq

def Publish.fromCodec (publish : CodecPublish) : Publish := ⟨{ publish with properties := none }⟩

inductive Activity where
  | offer (ticket : Nat) (publish : Publish) (wait replyBy now later : Nat)
  | resume (ticket : Nat) (publish : Publish) (replyBy now : Nat)
  | abandon (ticket : Nat)
  | recv
  | closeReceiver

def EventChannel.act {sync : LocalSync} (channel : EventChannel sync Publish) : Activity → EventChannel sync Publish
  | .offer ticket publish wait replyBy now later => (channel.admitWith ticket publish wait replyBy now later).2
  | .resume ticket publish replyBy now => (channel.admitPoll ticket publish replyBy now).2
  | .abandon ticket => (channel.abandon ticket).2
  | .recv => channel.recv.2
  | .closeReceiver => channel.closeReceiver

/-- What the session's own steps did to the channel: the events they queued, the
drops they counted, and whether the receiver is gone. -/
structure Ledger where
  queued : List Publish
  counted : Nat
  receiverGone : Bool
deriving DecidableEq

def Ledger.between {sync : LocalSync} (before after : EventChannel sync Publish) : Ledger where
  queued := after.queue.drop before.queue.length
  counted := after.dropped - before.dropped
  receiverGone := after.txClosed

def Ledger.add (first second : Ledger) : Ledger where
  queued := first.queued ++ second.queued
  counted := first.counted + second.counted
  receiverGone := second.receiverGone

/-- How a wait for bytes ends. `never` is a task that is not polled again. -/
inductive Arrival where
  | ready
  | failed (kind : Nat)
  | expired
  | never

/-- How a write of the queued bytes ends, with the bytes the socket took. -/
inductive Writing where
  | done
  | failed (kind : Nat) (taken : Nat)
  | expired (taken : Nat)
  | never (taken : Nat)

inductive Waking where
  | resumed
  | expired
  | never

structure Moment where
  time : Nat
  arrival : Arrival
  writing : Writing
  sendExpires : Bool
  waking : Waking
  others : List Activity

/-- A read from the socket: a read of no bytes is the end of the stream. -/
abbrev Chunk := { bytes : Bytes // bytes ≠ [] }

structure UnflushedReplies where
  flushBy : Nat
  timeoutContext : TimeoutContext
deriving DecidableEq

inductive Error where
  | io (error : IoError)
  | timeout
  | clientClosed
  | protocol (message : String)
deriving DecidableEq

def Error.isTruncatedPacket : Error → Bool
  | .io .truncatedPacket => true
  | _ => false

/-- How a session stops without an outcome: with an error, in a suspension it is not
woken from, or in a panic. -/
inductive Stop where
  | error (error : Error)
  | pending
  | panicked
deriving DecidableEq

/-- Whether the session's future does not come back. -/
def Stop.halts : Stop → Bool
  | .error _ => false
  | .pending | .panicked => true

def returned {α : Type} : Except Stop α → Bool
  | .ok _ => true
  | .error stop => !stop.halts

inductive Observation where
  | timer (duration : Nat)
  | awaitRead (unflushed : Option UnflushedReplies) (writeBuffer : Bytes)
  | awaitSlot (unflushed : Option UnflushedReplies) (writeBuffer : Bytes)
  | probed (version : ProtocolVersion)
  | received (packet : MqttPacket)
  | decoded (packet : MqttPacket)
  | readEnded (error : Option IoError)
  | offered (publish : CodecPublish) (idleWait : Nat)
  | admitted (publish : CodecPublish) (admission : Admission) (ledger : Ledger)
  | sent (version : ProtocolVersion) (packet : MqttPacket)
  | wrote (bytes : Bytes)
  | flushed
  | writeFailed
  | writeExpired
  | readExpired
  | slotExpired
  | idleClosed
  | gated
  | violated (violation : Violation)
deriving DecidableEq

structure World (rmqtt : Rmqtt) (sync : LocalSync) where
  asked : Nat
  incoming : List Chunk
  readBuffer : Bytes
  writeBuffer : Bytes
  written : Bytes
  version : ProtocolVersion
  decoder : MqttDecoder rmqtt
  channel : EventChannel sync Publish
  nextTicket : Nat
  unflushed : Option UnflushedReplies
  lastPacketTime : Nat
  holdDebt : Bool
  awaiting : AwaitingRelease
  trace : List Observation

/-- A session before its first read. Its packet decoder is replaced as soon as the
protocol version is known. -/
def World.accepted (rmqtt : Rmqtt) {sync : LocalSync} (channel : EventChannel sync Publish) (incoming : List Chunk) :
    World rmqtt sync where
  asked := 0
  incoming
  readBuffer := []
  writeBuffer := []
  written := []
  version := .mqtt3
  decoder := .new rmqtt .mqtt3 .default
  channel
  nextTicket := 0
  unflushed := none
  lastPacketTime := 0
  holdDebt := false
  awaiting := {}
  trace := []

abbrev Session (rmqtt : Rmqtt) (sync : LocalSync) := EStateM Stop (World rmqtt sync)

inductive Timed (α : Type) where
  | done (value : α)
  | timedOut

section
variable {rmqtt : Rmqtt} {sync : LocalSync} (env : Nat → Moment)

def observe (observation : Observation) : Session rmqtt sync Unit :=
  modify fun world => { world with trace := world.trace ++ [observation] }

def ask : Session rmqtt sync Moment := do
  let world ← get
  set { world with asked := world.asked + 1 }
  return env world.asked

def now : Session rmqtt sync Nat := do
  return (← ask env).time

/-- A suspension: the other tasks run, then the answer is there. -/
def suspend : Session rmqtt sync Moment := do
  let moment ← ask env
  modify fun world => { world with channel := moment.others.foldl EventChannel.act world.channel }
  return moment

def take (count : Nat) : Session rmqtt sync Unit :=
  modify fun world => { world with
    written := world.written ++ world.writeBuffer.take count
    writeBuffer := world.writeBuffer.drop count
    trace := world.trace ++ [.wrote (world.writeBuffer.take count)] }

def flush : Session rmqtt sync (Timed (Except IoError Unit)) := do
  let moment ← suspend env
  match moment.writing with
  | .done =>
    take (← get).writeBuffer.length
    observe .flushed
    return .done (.ok ())
  | .failed kind taken =>
    take taken
    observe .writeFailed
    return .done (.error (.transport kind))
  | .expired taken =>
    take taken
    observe .writeExpired
    return .timedOut
  | .never taken =>
    take taken
    throw .pending

/-- The write-buffer length at which the codec writes before it encodes. -/
def writeBackpressureBoundary : Nat := 8 * 1024

def encode (packet : MqttPacket) : Session rmqtt sync (Timed (Except IoError Unit)) := do
  let world ← get
  observe (.sent world.version packet)
  match rmqtt.encode world.version packet with
  | some bytes =>
    modify fun world => { world with writeBuffer := world.writeBuffer ++ bytes }
    return .done (.ok ())
  | none =>
    observe .writeFailed
    return .done (.error .encode)

/-- `PacketIo::send`: at the boundary every queued byte is written first. -/
def send (packet : MqttPacket) : Session rmqtt sync (Timed (Except IoError Unit)) := do
  if (← get).writeBuffer.length ≥ writeBackpressureBoundary then
    match ← flush env with
    | .done (.ok ()) => encode packet
    | other => return other
  else encode packet

abbrev Next (α : Type) := Timed (Option (Except IoError α))

/-- `Framed::next` under a timer, for a decoder that works on the read buffer: decode, and
read until there is something to decode or the stream ends. -/
def next {α : Type} (decode decodeEof : Session rmqtt sync (Except IoError (Option α))) :
    Nat → Session rmqtt sync (Next α)
  | 0 => throw .pending
  | calls + 1 => do
    match ← decode with
    | .ok (some item) => return .done (some (.ok item))
    | .error error => return .done (some (.error error))
    | .ok none =>
      let world ← get
      observe (.awaitRead world.unflushed world.writeBuffer)
      let moment ← suspend env
      match moment.arrival with
      | .failed kind => return .done (some (.error (.transport kind)))
      | .expired =>
        observe .readExpired
        return .timedOut
      | .never => throw .pending
      | .ready =>
        match world.incoming with
        | chunk :: incoming =>
          modify fun world => { world with incoming, readBuffer := world.readBuffer ++ chunk.val }
          next decode decodeEof calls
        | [] =>
          match ← decodeEof with
          | .ok (some item) => return .done (some (.ok item))
          | .error error => return .done (some (.error error))
          | .ok none => return .done none

def decodeVersion (bound : MaxInboundPacketSize) : Session rmqtt sync (Except IoError (Option ProtocolVersion)) := do
  let world ← get
  let (answer, rest) := (VersionDecoder.mk bound).decode rmqtt world.readBuffer
  set { world with readBuffer := rest }
  return answer

def decodeVersionEof (bound : MaxInboundPacketSize) : Session rmqtt sync (Except IoError (Option ProtocolVersion)) := do
  let world ← get
  let (answer, rest) := (VersionDecoder.mk bound).decodeEof rmqtt world.readBuffer
  set { world with readBuffer := rest }
  return answer

def decodePacket : Session rmqtt sync (Except IoError (Option Item)) := do
  let world ← get
  let (answer, decoder, rest) := world.decoder.decode world.readBuffer
  set { world with decoder, readBuffer := rest }
  return answer

def decodePacketEof : Session rmqtt sync (Except IoError (Option Item)) := do
  let world ← get
  let (answer, decoder, rest) := world.decoder.decodeEof world.readBuffer
  set { world with decoder, readBuffer := rest }
  return answer

def nextVersion (bound : MaxInboundPacketSize) : Session rmqtt sync (Next ProtocolVersion) := do
  next env (decodeVersion bound) (decodeVersionEof bound) ((← get).incoming.length + 1)

def nextPacket : Session rmqtt sync (Next Item) := do
  next env decodePacket decodePacketEof ((← get).incoming.length + 1)

/-- `HandshakeIo::into_packets`: the buffered bytes survive the codec switch. -/
def intoPackets (version : ProtocolVersion) (bound : MaxInboundPacketSize) : Session rmqtt sync Unit :=
  modify fun world => { world with version, decoder := .new rmqtt version bound }

/-- What a poll of `admit_with` comes to for the session. -/
def admitted (publish : CodecPublish) (ledger : Ledger) : Admitting → Session rmqtt sync Admission
  | .done admission => do
    observe (.admitted publish admission ledger)
    return admission
  | .holding => throw .pending
  | .panicked => throw .panicked

/-- The part of `admit_with` behind its suspension on a slot. `offer` is what its
first segment did. -/
def holdForSlot (publish : CodecPublish) (ticket wait replyBy : Nat) (offer : Ledger) :
    Session rmqtt sync Admission := do
  let world ← get
  observe (.timer wait)
  observe (.awaitSlot world.unflushed world.writeBuffer)
  let moment ← suspend env
  match moment.waking with
  | .never => throw .pending
  | .expired =>
    let world ← get
    let (admitting, channel) := world.channel.admitExpire ticket
    set { world with channel }
    observe .slotExpired
    admitted publish (offer.add (.between world.channel channel)) admitting
  | .resumed =>
    let resumed ← now env
    let world ← get
    let (admitting, channel) := world.channel.admitPoll ticket (.fromCodec publish) replyBy resumed
    set { world with channel }
    admitted publish (offer.add (.between world.channel channel)) admitting

/-- `EventSender::admit_with` from its first poll to its end. -/
def admitPublish (publish : CodecPublish) (wait replyBy : Nat) : Session rmqtt sync Admission := do
  let begun ← now env
  let polled ← now env
  let world ← get
  let ticket := world.nextTicket
  let (admitting, channel) := world.channel.admitWith ticket (.fromCodec publish) wait replyBy begun polled
  let offer := Ledger.between world.channel channel
  set { world with channel, nextTicket := ticket + 1 }
  match admitting with
  | .holding => holdForSlot env publish ticket wait replyBy offer
  | ended => admitted publish offer ended

end
end UringMqtt

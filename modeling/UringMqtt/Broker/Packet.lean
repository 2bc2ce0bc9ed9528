import UringMqtt.Codec.Decoder
import UringMqtt.Lib.Bitset

/-! The packet-decision seam, `src/broker/packet.rs`: what the loop owes for one
decoded packet, the replies and violations it answers with, and the QoS 2 ids
that wait for their release. -/

namespace UringMqtt
open Lib

inductive ReleaseOutcome where
  | released
  | unknownPacketId
deriving DecidableEq, Repr

inductive Reply where
  | pingResponse
  | publishAck (packetId : NonZeroU16)
  | subscribeRefusal (packetId : NonZeroU16) (filters : NonZeroUsize)
  | unsubscribeAck (packetId : NonZeroU16) (filters : NonZeroUsize)
  | publishReceived (packetId : NonZeroU16)
  | publishComplete (packetId : NonZeroU16) (outcome : ReleaseOutcome)
deriving DecidableEq

inductive TimeoutContext where
  | connackFlush
  | pingrespFlush
  | pubackFlush
  | subackFlush
  | unsubackFlush
  | pubrecFlush
  | pubcompFlush
  | disconnectFlush
deriving DecidableEq, Repr

namespace Reply

def timeoutContext : Reply → TimeoutContext
  | .pingResponse => .pingrespFlush
  | .publishAck _ => .pubackFlush
  | .subscribeRefusal _ _ => .subackFlush
  | .unsubscribeAck _ _ => .unsubackFlush
  | .publishReceived _ => .pubrecFlush
  | .publishComplete _ _ => .pubcompFlush

def render (reply : Reply) (version : ProtocolVersion) : MqttPacket :=
  match reply, version with
  | .pingResponse, .mqtt3 => .v3 .pingResponse
  | .pingResponse, .mqtt5 => .v5 .pingResponse
  | .publishAck packetId, .mqtt3 => .v3 (.publishAck packetId)
  | .publishAck packetId, .mqtt5 => .v5 (.publishAck ⟨packetId, .success, [], none⟩)
  | .subscribeRefusal packetId filters, .mqtt3 =>
    .v3 (.subscribeAck packetId (List.replicate filters.get .failure))
  | .subscribeRefusal packetId filters, .mqtt5 =>
    .v5 (.subscribeAck ⟨packetId, [], none, List.replicate filters.get .implementationSpecificError⟩)
  | .unsubscribeAck packetId _, .mqtt3 => .v3 (.unsubscribeAck packetId)
  | .unsubscribeAck packetId filters, .mqtt5 =>
    .v5 (.unsubscribeAck ⟨packetId, [], none, List.replicate filters.get .noSubscriptionExisted⟩)
  | .publishReceived packetId, .mqtt3 => .v3 (.publishReceived packetId)
  | .publishReceived packetId, .mqtt5 => .v5 (.publishReceived ⟨packetId, .success, [], none⟩)
  | .publishComplete packetId _, .mqtt3 => .v3 (.publishComplete packetId)
  | .publishComplete packetId .released, .mqtt5 => .v5 (.publishComplete ⟨packetId, .success, [], none⟩)
  | .publishComplete packetId .unknownPacketId, .mqtt5 =>
    .v5 (.publishComplete ⟨packetId, .packetIdNotFound, [], none⟩)

end Reply

inductive Violation where
  | duplicateConnect
  | publishMissingPacketId
  | emptyTopicFilterList
  | emptyTopicFilter
  | replyOverMaxPacketSize
  | inboundOverMaxPacketSize
  | serverOnlyPacket
  | publishAckFromClient
  | authNotNegotiated
  | publishQosAboveMaximum
  | invalidTopicName
  | topicAliasInvalid
  | malformedPacket
  | versionProbe
deriving DecidableEq, Repr

/-- Wire size of a packet under the codec that will send it; `none` when it
cannot be encoded at all. -/
def encodedLen (rmqtt : Rmqtt) (packet : MqttPacket) (version : ProtocolVersion) : Option Nat :=
  (rmqtt.encode version packet).map List.length

/-- Whether a packet of the measured size may go to a client that declared the
limit. No limit is never gated; an unmeasurable packet never fits under one. -/
def fitsWithin (len : Unit → Option Nat) (maxPacketSize : Option NonZeroU32) : Bool :=
  match maxPacketSize with
  | none => true
  | some limit => (len ()).any fun len => decide (len ≤ limit.get.toNat)

def fitsMaxPacketSize (rmqtt : Rmqtt) (packet : MqttPacket) (version : ProtocolVersion)
    (maxPacketSize : Option NonZeroU32) : Bool :=
  fitsWithin (fun _ => encodedLen rmqtt packet version) maxPacketSize

def Reply.encodedLen (rmqtt : Rmqtt) (reply : Reply) (version : ProtocolVersion) : Option Nat :=
  UringMqtt.encodedLen rmqtt (reply.render version) version

def replyOverMaxPacketSize (rmqtt : Rmqtt) (reply : Reply) (version : ProtocolVersion)
    (maxPacketSize : Option NonZeroU32) : Option Violation :=
  if fitsWithin (fun _ => reply.encodedLen rmqtt version) maxPacketSize then none
  else some .replyOverMaxPacketSize

namespace Violation

def disconnectReasonCode (violation : Violation) (version : ProtocolVersion) : Option V5.DisconnectReasonCode :=
  match version with
  | .mqtt3 => none
  | .mqtt5 => some <| match violation with
    | .duplicateConnect | .publishMissingPacketId | .emptyTopicFilterList | .emptyTopicFilter
    | .serverOnlyPacket | .publishAckFromClient | .authNotNegotiated | .versionProbe
    | .invalidTopicName => .protocolError
    | .malformedPacket => .malformedPacket
    | .replyOverMaxPacketSize | .inboundOverMaxPacketSize => .packetTooLarge
    | .publishQosAboveMaximum => .qosNotSupported
    | .topicAliasInvalid => .topicAliasInvalid

def disconnect (rmqtt : Rmqtt) (violation : Violation) (version : ProtocolVersion)
    (maxPacketSize : Option NonZeroU32) : Option MqttPacket :=
  match violation.disconnectReasonCode version with
  | none => none
  | some reasonCode =>
    let packet : MqttPacket := .v5 (.disconnect ⟨reasonCode⟩)
    if fitsWithin (fun _ => encodedLen rmqtt packet version) maxPacketSize then some packet else none

end Violation

def classifyReadError (error : IoError) : Option Violation :=
  error.decodeError.map fun
    | .maxSizeExceeded => .inboundOverMaxPacketSize
    | _ => .malformedPacket

/-! ### QoS 2 ids awaiting release -/

def idBitsPerWord : Nat := 64
def packetIdWords : Nat := (1 <<< 16) / idBitsPerWord

/-- The QoS 2 packet ids received and not yet released, one bit each, allocated
on the first QoS 2 PUBLISH. -/
structure AwaitingRelease where
  words : Option (Vector (BitVec idBitsPerWord) packetIdWords) := none

namespace AwaitingRelease

def position (packetId : NonZeroU16) : Fin packetIdWords × BitVec idBitsPerWord :=
  let index := packetId.get.toNat
  (⟨index / idBitsPerWord, by
    have bound := packetId.get.toNat_lt
    simp only [index, packetIdWords, idBitsPerWord]
    omega⟩, BitVec.ofNat idBitsPerWord 1 <<< (index % idBitsPerWord))

def record (self : AwaitingRelease) (packetId : NonZeroU16) : Bool × AwaitingRelease :=
  let (word, bit) := position packetId
  let words := self.words.getD (Vector.replicate packetIdWords (BitVec.ofNat idBitsPerWord 0))
  let fresh := words[word] &&& bit == BitVec.ofNat idBitsPerWord 0
  (fresh, ⟨some (words.set word (words[word] ||| bit))⟩)

def release (self : AwaitingRelease) (packetId : NonZeroU16) : ReleaseOutcome × AwaitingRelease :=
  let (word, bit) := position packetId
  match self.words with
  | none => (.unknownPacketId, self)
  | some words =>
    if words[word] &&& bit == BitVec.ofNat idBitsPerWord 0 then (.unknownPacketId, self)
    else (.released, ⟨some (words.set word (words[word] &&& ~~~bit))⟩)

end AwaitingRelease

inductive Disposition where
  | deliver (publish : CodecPublish)
  | deliverThenReply (publish : CodecPublish) (reply : Reply)
  | reply (reply : Reply)
  | close
  | violation (violation : Violation)
deriving DecidableEq

def maxQos : QoS := .exactlyOnce

def topicNameViolation (topic : String) : Option Violation :=
  if topic.toList.contains '\x00' then some .malformedPacket
  else if topic.toList.isEmpty || topic.toList.contains '+' || topic.toList.contains '#' then some .invalidTopicName
  else none

def dispatchPublish (publish : CodecPublish) (awaiting : AwaitingRelease) : Disposition × AwaitingRelease :=
  if publish.qos.level > maxQos.level then (.violation .publishQosAboveMaximum, awaiting)
  else if publish.properties.any (fun properties => properties.topicAlias.isSome) then
    (.violation .topicAliasInvalid, awaiting)
  else match topicNameViolation publish.topic with
    | some violation => (.violation violation, awaiting)
    | none =>
      match publish.qos, publish.packetId with
      | .atMostOnce, _ => (.deliver publish, awaiting)
      | .atLeastOnce, some id => (.deliverThenReply publish (.publishAck id), awaiting)
      | .atLeastOnce, none | .exactlyOnce, none => (.violation .publishMissingPacketId, awaiting)
      | .exactlyOnce, some id =>
        match awaiting.record id with
        | (true, awaiting) => (.deliverThenReply publish (.publishReceived id), awaiting)
        | (false, awaiting) => (.reply (.publishReceived id), awaiting)

/-- The arms of `dispatch` that refuse a SUBSCRIBE or acknowledge an UNSUBSCRIBE:
the filters must be some and none of them empty. -/
def dispatchFilters (filters : List String) (reply : NonZeroUsize → Reply) : Disposition :=
  match NonZeroUsize.new filters.length with
  | none => .violation .emptyTopicFilterList
  | some count =>
    if filters.any (fun filter => filter.toList.isEmpty) then .violation .emptyTopicFilter
    else .reply (reply count)

def dispatch (packet : MqttPacket) (awaiting : AwaitingRelease) : Disposition × AwaitingRelease :=
  match packet with
  | .v3 (.connect _) | .v5 (.connect _) => (.violation .duplicateConnect, awaiting)
  | .v3 (.publish publish) | .v5 (.publish publish) => dispatchPublish publish awaiting
  | .v3 .pingRequest | .v5 .pingRequest => (.reply .pingResponse, awaiting)
  | .v3 .disconnect | .v5 (.disconnect _) => (.close, awaiting)
  | .v3 (.subscribe packetId topicFilters) =>
    (dispatchFilters (topicFilters.map Prod.fst) (.subscribeRefusal packetId), awaiting)
  | .v5 (.subscribe subscribe) =>
    (dispatchFilters (subscribe.topicFilters.map Prod.fst) (.subscribeRefusal subscribe.packetId), awaiting)
  | .v3 (.unsubscribe packetId topicFilters) =>
    (dispatchFilters topicFilters (.unsubscribeAck packetId), awaiting)
  | .v5 (.unsubscribe unsubscribe) =>
    (dispatchFilters unsubscribe.topicFilters (.unsubscribeAck unsubscribe.packetId), awaiting)
  | .v3 (.connectAck _) | .v3 (.subscribeAck _ _) | .v3 (.unsubscribeAck _) | .v3 .pingResponse
  | .v5 (.connectAck _) | .v5 (.subscribeAck _) | .v5 (.unsubscribeAck _) | .v5 .pingResponse =>
    (.violation .serverOnlyPacket, awaiting)
  | .v3 (.publishRelease packetId) =>
    let (outcome, awaiting) := awaiting.release packetId
    (.reply (.publishComplete packetId outcome), awaiting)
  | .v5 (.publishRelease release) =>
    let (outcome, awaiting) := awaiting.release release.packetId
    (.reply (.publishComplete release.packetId outcome), awaiting)
  | .v3 (.publishAck _) | .v3 (.publishReceived _) | .v3 (.publishComplete _)
  | .v5 (.publishAck _) | .v5 (.publishReceived _) | .v5 (.publishComplete _) =>
    (.violation .publishAckFromClient, awaiting)
  | .v5 .auth => (.violation .authNotNegotiated, awaiting)
  | .version _ => (.violation .versionProbe, awaiting)

end UringMqtt

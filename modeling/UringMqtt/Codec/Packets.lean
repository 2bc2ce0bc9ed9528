import Mathlib.Data.Finset.Basic

/-! The values rmqtt-codec hands to the broker and takes back from it. Only the
fields that some function of the broker reads or writes are kept; a packet the
broker merely recognises keeps its kind and nothing else. -/

namespace UringMqtt

abbrev Bytes := List UInt8

/-- `std::num::NonZeroU16`, the type of a packet id. -/
structure NonZeroU16 where
  get : UInt16
  nonzero : get ≠ 0
deriving DecidableEq

def NonZeroU16.new (value : UInt16) : Option NonZeroU16 :=
  if nonzero : value ≠ 0 then some ⟨value, nonzero⟩ else none

/-- `std::num::NonZeroU32`, the type of a Maximum Packet Size. -/
structure NonZeroU32 where
  get : UInt32
  nonzero : get ≠ 0
deriving DecidableEq

/-- `std::num::NonZeroUsize`, the type of a filter count. -/
structure NonZeroUsize where
  get : Nat
  nonzero : 0 < get
deriving DecidableEq

def NonZeroUsize.new (count : Nat) : Option NonZeroUsize :=
  if positive : 0 < count then some ⟨count, positive⟩ else none

inductive ProtocolVersion where
  | mqtt3
  | mqtt5
deriving DecidableEq, Repr

inductive QoS where
  | atMostOnce
  | atLeastOnce
  | exactlyOnce
deriving DecidableEq, Repr

def QoS.level : QoS → Nat
  | .atMostOnce => 0
  | .atLeastOnce => 1
  | .exactlyOnce => 2

structure PublishProperties where
  topicAlias : Option NonZeroU16
deriving DecidableEq

/-- `rmqtt_codec::types::Publish`, shared by both protocol versions. -/
structure CodecPublish where
  dup : Bool
  retain : Bool
  qos : QoS
  topic : String
  packetId : Option NonZeroU16
  payload : Bytes
  properties : Option PublishProperties
deriving DecidableEq

namespace V3

structure Connect where
  clientId : String
  cleanSession : Bool
  keepAlive : UInt16
deriving DecidableEq

inductive ConnectAckReason where
  | connectionAccepted
  | unacceptableProtocolVersion
  | identifierRejected
deriving DecidableEq, Repr

structure ConnectAck where
  returnCode : ConnectAckReason
  sessionPresent : Bool
deriving DecidableEq

inductive SubscribeReturnCode where
  | success (qos : QoS)
  | failure
deriving DecidableEq

inductive Packet where
  | connect (connect : Connect)
  | connectAck (ack : ConnectAck)
  | publish (publish : CodecPublish)
  | publishAck (packetId : NonZeroU16)
  | publishReceived (packetId : NonZeroU16)
  | publishRelease (packetId : NonZeroU16)
  | publishComplete (packetId : NonZeroU16)
  | subscribe (packetId : NonZeroU16) (topicFilters : List (String × QoS))
  | subscribeAck (packetId : NonZeroU16) (status : List SubscribeReturnCode)
  | unsubscribe (packetId : NonZeroU16) (topicFilters : List String)
  | unsubscribeAck (packetId : NonZeroU16)
  | pingRequest
  | pingResponse
  | disconnect
deriving DecidableEq

end V3

namespace V5

structure Connect where
  clientId : String
  keepAlive : UInt16
  authMethod : Option String
  maxPacketSize : Option NonZeroU32
deriving DecidableEq

inductive ConnectAckReason where
  | success
  | clientIdentifierNotValid
  | badAuthenticationMethod
  | implementationSpecificError
deriving DecidableEq, Repr

structure ConnectAck where
  reasonCode : ConnectAckReason
  maxQos : QoS
  retainAvailable : Bool
  wildcardSubscriptionAvailable : Bool
  subscriptionIdentifiersAvailable : Bool
  sharedSubscriptionAvailable : Bool
  sessionExpiryIntervalSecs : Option Nat
  maxPacketSize : Option Nat
  assignedClientId : Option String
  serverKeepaliveSec : Option Nat
deriving DecidableEq

inductive PublishAckReason where
  | success
  | other (code : UInt8)
deriving DecidableEq

structure PublishAck where
  packetId : NonZeroU16
  reasonCode : PublishAckReason
  properties : List (String × String)
  reasonString : Option String
deriving DecidableEq

inductive PublishAck2Reason where
  | success
  | packetIdNotFound
deriving DecidableEq, Repr

structure PublishAck2 where
  packetId : NonZeroU16
  reasonCode : PublishAck2Reason
  properties : List (String × String)
  reasonString : Option String
deriving DecidableEq

structure Subscribe where
  packetId : NonZeroU16
  topicFilters : List (String × QoS)
deriving DecidableEq

inductive SubscribeAckReason where
  | implementationSpecificError
  | other (code : UInt8)
deriving DecidableEq

structure SubscribeAck where
  packetId : NonZeroU16
  properties : List (String × String)
  reasonString : Option String
  status : List SubscribeAckReason
deriving DecidableEq

structure Unsubscribe where
  packetId : NonZeroU16
  topicFilters : List String
deriving DecidableEq

inductive UnsubscribeAckReason where
  | noSubscriptionExisted
  | other (code : UInt8)
deriving DecidableEq

structure UnsubscribeAck where
  packetId : NonZeroU16
  properties : List (String × String)
  reasonString : Option String
  status : List UnsubscribeAckReason
deriving DecidableEq

/-- The reason codes the broker closes with, and any other a client may send. -/
inductive DisconnectReasonCode where
  | malformedPacket
  | protocolError
  | packetTooLarge
  | qosNotSupported
  | topicAliasInvalid
  | other (code : UInt8)
deriving DecidableEq

structure Disconnect where
  reasonCode : DisconnectReasonCode
deriving DecidableEq

inductive Packet where
  | connect (connect : Connect)
  | connectAck (ack : ConnectAck)
  | publish (publish : CodecPublish)
  | publishAck (ack : PublishAck)
  | publishReceived (ack : PublishAck)
  | publishRelease (ack : PublishAck2)
  | publishComplete (ack : PublishAck2)
  | subscribe (subscribe : Subscribe)
  | subscribeAck (ack : SubscribeAck)
  | unsubscribe (unsubscribe : Unsubscribe)
  | unsubscribeAck (ack : UnsubscribeAck)
  | pingRequest
  | pingResponse
  | disconnect (disconnect : Disconnect)
  | auth
deriving DecidableEq

end V5

/-- `rmqtt_codec::MqttPacket`. -/
inductive MqttPacket where
  | v3 (packet : V3.Packet)
  | v5 (packet : V5.Packet)
  | version (version : ProtocolVersion)
deriving DecidableEq

def MqttPacket.variant : MqttPacket → Option ProtocolVersion
  | .v3 _ => some .mqtt3
  | .v5 _ => some .mqtt5
  | .version _ => none

/-- `rmqtt_codec::error::DecodeError`: the rejections the broker tells apart,
and every other one under `other`. -/
inductive DecodeError where
  | maxSizeExceeded
  | malformedPacket
  | invalidLength
  | invalidProtocol
  | unsupportedProtocolLevel
  | unsupportedPacketType
  | invalidClientId
  | other (code : Nat)
deriving DecidableEq, Repr

end UringMqtt

import UringMqtt.Broker.Packet
import UringMqtt.Lib.Checked

/-! The decision on the first packet of a connection, `src/broker/handshake.rs`.
Durations are in milliseconds. -/

namespace UringMqtt

def keepAliveGraceMillisPerSec : Nat := 1500

def maxTimeoutSecs : Nat := 31536000

def millisOfSecs (secs : Nat) : Nat := secs * 1000

inductive ConnectDecision where
  | accept (connack : MqttPacket) (clientId : Option String) (keepAliveSecs : Nat) (idleTimeout : Nat)
      (maxPacketSize : Option NonZeroU32)
  | refuse (connack : MqttPacket) (sendable : Bool)
  | refusePersistentSession
  | notConnect
deriving DecidableEq

def honestV5Connack (reason : V5.ConnectAckReason) (maxInboundPacketSize : MaxInboundPacketSize) : V5.ConnectAck where
  reasonCode := reason
  maxQos := maxQos
  retainAvailable := true
  wildcardSubscriptionAvailable := true
  subscriptionIdentifiersAvailable := true
  sharedSubscriptionAvailable := true
  sessionExpiryIntervalSecs := some 0
  maxPacketSize := some maxInboundPacketSize.get
  assignedClientId := none
  serverKeepaliveSec := none

def refuseV5 (rmqtt : Rmqtt) (reason : V5.ConnectAckReason) (maxPacketSize : Option NonZeroU32)
    (maxInboundPacketSize : MaxInboundPacketSize) : ConnectDecision :=
  let connack : MqttPacket := .v5 (.connectAck (honestV5Connack reason maxInboundPacketSize))
  .refuse connack (fitsMaxPacketSize rmqtt connack .mqtt5 maxPacketSize)

def negotiateKeepAlive (keepAlive cfg : Nat) : Nat × Nat × Option Nat :=
  if keepAlive = 0 then (0, millisOfSecs cfg, none)
  else
    let kaMs := keepAlive * keepAliveGraceMillisPerSec
    if kaMs ≤ millisOfSecs cfg then (keepAlive, kaMs, none)
    else
      let announced := min (max (cfg * 2 / 3) 1) 65535
      (announced, announced * keepAliveGraceMillisPerSec, some announced)

/-! The same on `u64`, where an overflow is a panic and `none`; `as u16` cuts. -/

def graceChecked (keepAlive : Nat) : Option Nat := Lib.Checked.mul 64 keepAlive keepAliveGraceMillisPerSec

def negotiateKeepAliveChecked (keepAlive cfg : Nat) : Option (Nat × Nat × Option Nat) :=
  if keepAlive = 0 then some (0, millisOfSecs cfg, none)
  else
    (graceChecked keepAlive).bind fun kaMs =>
      if kaMs ≤ millisOfSecs cfg then some (keepAlive, kaMs, none)
      else
        (Lib.Checked.mul 64 cfg 2).bind fun doubled =>
          let announced := min (max (doubled / 3) 1) 65535 % 2 ^ 16
          (graceChecked announced).map fun idle => (announced, idle, some announced)

def evaluateConnect (rmqtt : Rmqtt) (packet : MqttPacket) (configIdleTimeoutSecs : Nat) (peerAddr : String)
    (maxInboundPacketSize : MaxInboundPacketSize) : ConnectDecision :=
  let cfg := min configIdleTimeoutSecs maxTimeoutSecs
  match packet with
  | .v3 (.connect c) =>
    if c.clientId.toList.isEmpty && !c.cleanSession then
      .refuse (.v3 (.connectAck ⟨.identifierRejected, false⟩)) true
    else if !c.cleanSession then .refusePersistentSession
    else
      let clientId := if c.clientId.toList.isEmpty then none else some c.clientId
      let idleTimeout :=
        if c.keepAlive = 0 then millisOfSecs cfg
        else min (c.keepAlive.toNat * keepAliveGraceMillisPerSec) (millisOfSecs cfg)
      .accept (.v3 (.connectAck ⟨.connectionAccepted, false⟩)) clientId c.keepAlive.toNat idleTimeout none
  | .v5 (.connect c) =>
    if c.authMethod.isSome then refuseV5 rmqtt .badAuthenticationMethod c.maxPacketSize maxInboundPacketSize
    else
      let assigned := if c.clientId.toList.isEmpty then some ("auto-" ++ peerAddr) else none
      let (negotiated, idle, announce) := negotiateKeepAlive c.keepAlive.toNat cfg
      let connack : MqttPacket := .v5 (.connectAck
        { honestV5Connack .success maxInboundPacketSize with assignedClientId := assigned, serverKeepaliveSec := announce })
      if !fitsMaxPacketSize rmqtt connack .mqtt5 c.maxPacketSize then
        refuseV5 rmqtt .implementationSpecificError c.maxPacketSize maxInboundPacketSize
      else .accept connack (some (assigned.getD c.clientId)) negotiated idle c.maxPacketSize
  | _ => .notConnect

end UringMqtt

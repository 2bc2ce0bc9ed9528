import UringMqtt.Broker.Handler

/-! The packets the server builds. There are five places that build one: the CONNACK
that accepts, the two kinds of CONNACK that refuse, the replies of the packet loop
and the DISCONNECT of a violation. -/

namespace UringMqtt.Proofs.Outgoing

inductive Role where
  | accept
  | refuse
  | reply
  | disconnect
  | foreign
deriving DecidableEq, Repr

def roleOf : MqttPacket → Role
  | .v3 (.connectAck ack) => if ack.returnCode = .connectionAccepted then .accept else .refuse
  | .v5 (.connectAck ack) => if ack.reasonCode = .success then .accept else .refuse
  | .v3 .pingResponse | .v3 (.publishAck _) | .v3 (.publishReceived _) | .v3 (.publishComplete _)
  | .v3 (.subscribeAck _ _) | .v3 (.unsubscribeAck _)
  | .v5 .pingResponse | .v5 (.publishAck _) | .v5 (.publishReceived _) | .v5 (.publishComplete _)
  | .v5 (.subscribeAck _) | .v5 (.unsubscribeAck _) => .reply
  | .v3 .disconnect | .v5 (.disconnect _) => .disconnect
  | _ => .foreign

/-- A packet of the version's own variant that is no longer than the client allows. -/
structure Sendable (rmqtt : Rmqtt) (version : ProtocolVersion) (maxPacketSize : Option NonZeroU32) (packet : MqttPacket) :
    Prop where
  variant : packet.variant = some version
  fits : ∀ limit, maxPacketSize = some limit →
    ∃ bytes, rmqtt.encode version packet = some bytes ∧ bytes.length ≤ limit.get.toNat

variable {rmqtt : Rmqtt} {version : ProtocolVersion} {maxPacketSize : Option NonZeroU32}

variable {packet : MqttPacket} {connect : V5.Connect}

theorem fitsWithin_encodedLen (within : fitsWithin (fun _ => encodedLen rmqtt packet version) maxPacketSize = true) :
    ∀ limit, maxPacketSize = some limit →
      ∃ bytes, rmqtt.encode version packet = some bytes ∧ bytes.length ≤ limit.get.toNat := by
  rintro limit rfl
  simp only [fitsWithin, encodedLen, Option.any_map, Option.any_eq_true, decide_eq_true_eq] at within
  exact within

theorem Sendable.unlimited (variant : packet.variant = some version) :
    Sendable rmqtt version none packet := ⟨variant, by rintro _ ⟨⟩⟩

/-! ### Replies and the DISCONNECT -/

theorem render_role (reply : Reply) (version : ProtocolVersion) : roleOf (reply.render version) = .reply := by
  cases version <;> rcases reply with _ | _ | _ | _ | _ | ⟨_, _ | _⟩ <;> rfl

private theorem render_variant (reply : Reply) (version : ProtocolVersion) : (reply.render version).variant = some version := by
  cases version <;> rcases reply with _ | _ | _ | _ | _ | ⟨_, _ | _⟩ <;> rfl

theorem render_sendable {reply : Reply} (passes : replyOverMaxPacketSize rmqtt reply version maxPacketSize = none) :
    Sendable rmqtt version maxPacketSize (reply.render version) := by
  refine ⟨render_variant reply version, fitsWithin_encodedLen ?_⟩
  unfold replyOverMaxPacketSize at passes
  split at passes
  next within => exact within
  next => cases passes

theorem disconnect_sendable {violation : Violation} (built : violation.disconnect rmqtt version maxPacketSize = some packet) :
    roleOf packet = .disconnect ∧ Sendable rmqtt version maxPacketSize packet := by
  unfold Violation.disconnect at built
  split at built
  · cases built
  next reasonCode found =>
    have v5 : version = .mqtt5 := by
      cases version with
      | mqtt3 => cases found
      | mqtt5 => rfl
    subst v5
    dsimp only at built
    split at built
    next within =>
      cases built
      exact ⟨rfl, rfl, fitsWithin_encodedLen within⟩
    next => cases built

/-! ### The CONNACK -/

def declared : MqttPacket → Option NonZeroU32
  | .v5 (.connect connect) => connect.maxPacketSize
  | _ => none

inductive Evaluates (rmqtt : Rmqtt) (packet : MqttPacket) : ConnectDecision → Prop
  | accept {version : ProtocolVersion} {connack : MqttPacket} (clientId : Option String) (keepAliveSecs idleTimeout : Nat)
      (speaks : packet.variant = some version) (role : roleOf connack = .accept)
      (sendable : Sendable rmqtt version (declared packet) connack) :
      Evaluates rmqtt packet (.accept connack clientId keepAliveSecs idleTimeout (declared packet))
  | refuse {version : ProtocolVersion} {connack : MqttPacket} {sendable : Bool} (speaks : packet.variant = some version)
      (role : roleOf connack = .refuse) (fits : sendable = true → Sendable rmqtt version (declared packet) connack) :
      Evaluates rmqtt packet (.refuse connack sendable)
  | refusePersistentSession : Evaluates rmqtt packet .refusePersistentSession
  | notConnect : Evaluates rmqtt packet .notConnect

private theorem refuseV5_evaluates {reason : V5.ConnectAckReason} (refusal : reason ≠ .success) (bound : MaxInboundPacketSize) :
    Evaluates rmqtt (.v5 (.connect connect)) (refuseV5 rmqtt reason connect.maxPacketSize bound) := by
  refine .refuse rfl ?_ fun fits => ⟨rfl, fitsWithin_encodedLen fits⟩
  rw [roleOf, if_neg]
  exact refusal

private theorem gated_evaluates {ack : V5.ConnectAck} (success : ack.reasonCode = .success)
    (bound : MaxInboundPacketSize) (clientId : Option String) (keepAliveSecs idleTimeout : Nat) :
    Evaluates rmqtt (.v5 (.connect connect))
      (if !fitsMaxPacketSize rmqtt (.v5 (.connectAck ack)) .mqtt5 connect.maxPacketSize then
        refuseV5 rmqtt .implementationSpecificError connect.maxPacketSize bound
      else .accept (.v5 (.connectAck ack)) clientId keepAliveSecs idleTimeout connect.maxPacketSize) := by
  split
  · exact refuseV5_evaluates (by decide) bound
  next within =>
    rw [Bool.not_eq_true', Bool.not_eq_false] at within
    exact .accept clientId keepAliveSecs idleTimeout rfl (by rw [roleOf, if_pos success]) ⟨rfl, fitsWithin_encodedLen within⟩

theorem evaluateConnect_evaluates (packet : MqttPacket) (idleTimeoutSecs : Nat) (peerAddr : String)
    (bound : MaxInboundPacketSize) :
    Evaluates rmqtt packet (evaluateConnect rmqtt packet idleTimeoutSecs peerAddr bound) := by
  unfold evaluateConnect
  split
  next connect =>
    split
    · exact .refuse rfl rfl fun _ => .unlimited rfl
    · split
      · exact .refusePersistentSession
      · exact .accept _ _ _ rfl rfl (.unlimited rfl)
  next connect =>
    split
    · exact refuseV5_evaluates (by decide) bound
    · exact gated_evaluates rfl bound _ _ _
  next => exact .notConnect

theorem refusedClientId_role (config : Config) (version : ProtocolVersion) :
    roleOf (refusedClientId config version) = .refuse := by
  cases version <;> rfl

theorem refusedClientId_variant (config : Config) (version : ProtocolVersion) :
    (refusedClientId config version).variant = some version := by
  cases version <;> rfl

end UringMqtt.Proofs.Outgoing

import UringMqtt.Proofs.SessionGrammar

/-! Every packet a session hands to its encoder is one of the version it negotiated, and
none is longer than the Maximum Packet Size its client declared. -/

namespace UringMqtt.Proofs.PacketSize
open Lib Outbox Outgoing Conversation Session SessionGrammar

/-! ### What was agreed -/

def probes (log : List Observation) : List ProtocolVersion :=
  log.filterMap fun
    | .probed version => some version
    | _ => none

def connects (log : List Observation) : List MqttPacket :=
  log.filterMap fun
    | .received packet => some packet
    | _ => none

/-- The packet may be sent: it is of the version negotiated and within the limit declared.
-/
structure Allowed (rmqtt : Rmqtt) (probes : List ProtocolVersion) (connects : List MqttPacket) (version : ProtocolVersion)
    (packet : MqttPacket) : Prop where
  variant : packet.variant = some version
  negotiated : ∀ probed ∈ probes, version = probed
  within : ∀ connect ∈ connects, ∀ limit, declared connect = some limit →
    ∃ bytes, rmqtt.encode version packet = some bytes ∧ bytes.length ≤ limit.get.toNat

def Agreed (rmqtt : Rmqtt) (probes : List ProtocolVersion) (connects : List MqttPacket) : Phase → Prop
  | .probing => probes = [] ∧ connects = []
  | .connecting version => probes = [version] ∧ connects = []
  | .refusing offer => ∀ version connack, offer = some (version, connack) → Allowed rmqtt probes connects version connack
  | .accepting version connack loop _ =>
    probes = [version] ∧ (∀ connect ∈ connects, declared connect = loop.maxPacketSize) ∧
      Allowed rmqtt probes connects version connack
  | .greeting version loop _ | .serving version loop _ _ =>
    probes = [version] ∧ ∀ connect ∈ connects, declared connect = loop.maxPacketSize
  | .refused | .failed _ => True

variable {rmqtt : Rmqtt} {config : Config} {bytes : Bytes} {version : ProtocolVersion} {loop : LoopConfig} {script : Script}

variable {packet : MqttPacket} {talk after : Talk} {observation : Observation}

theorem sendable_allowed {probes : List ProtocolVersion} {connects : List MqttPacket}
    {maxPacketSize : Option NonZeroU32} (sendable : Sendable rmqtt version maxPacketSize packet) (speaks : probes = [version])
    (limit : ∀ connect ∈ connects, declared connect = maxPacketSize) : Allowed rmqtt probes connects version packet where
  variant := sendable.variant
  negotiated := by
    intro probed member
    rw [speaks] at member
    exact (List.mem_singleton.mp member).symm
  within := by
    intro connect member bound declares
    exact sendable.fits bound ((limit connect member).symm.trans declares)

private theorem talk_sends {sent : ProtocolVersion} (step : talk.Step rmqtt version loop script (.sent sent packet) after) :
    sent = version ∧ Sendable rmqtt version loop.maxPacketSize packet := by
  cases step with
  | mechanical talk mechanical => exact mechanical.elim
  | replied packets fits => exact ⟨rfl, render_sendable fits⟩
  | disconnected packets fits => exact ⟨rfl, (disconnect_sendable fits).2⟩

/-! ### The invariant -/

@[simp] theorem probes_append (first second : List Observation) : probes (first ++ second) = probes first ++ probes second := by
  simp [probes]

@[simp] theorem connects_append (first second : List Observation) :
    connects (first ++ second) = connects first ++ connects second := by
  simp [connects]

def Immaterial (observation : Observation) : Prop := probes [observation] = [] ∧ connects [observation] = []

theorem immaterial_mechanical (mechanical : Mechanical observation) : Immaterial observation := by
  cases observation <;> first | exact ⟨rfl, rfl⟩ | exact mechanical.elim

private theorem immaterial_talk (step : talk.Step rmqtt version loop script observation after) : Immaterial observation := by
  cases step with
  | mechanical talk mechanical => exact immaterial_mechanical mechanical
  | _ => exact ⟨rfl, rfl⟩

structure Measured (rmqtt : Rmqtt) (log : List Observation) (phase : Phase) : Prop where
  spoken : Spoken (rolesOf log) phase
  agreed : Agreed rmqtt (probes log) (connects log) phase
  allowed : ∀ version packet, .sent version packet ∈ log → Allowed rmqtt (probes log) (connects log) version packet

private theorem not_sent_of_silent {log : List Observation} (silent : rolesOf log = []) (version : ProtocolVersion)
    (packet : MqttPacket) : .sent version packet ∉ log := by
  intro member
  have role : roleOf packet ∈ rolesOf log := List.mem_filterMap.mpr ⟨.sent version packet, member, rfl⟩
  rw [silent] at role
  cases role

section
variable {log : List Observation} {phase after : Phase} {observation : Observation}

private theorem Measured.kept (measured : Measured rmqtt log phase) (step : Step rmqtt config bytes phase observation after)
    (immaterial : Immaterial observation) (agreed : Agreed rmqtt (probes log) (connects log) after)
    (sends : ∀ version packet, observation = .sent version packet →
      Allowed rmqtt (probes log) (connects log) version packet) : Measured rmqtt (log ++ [observation]) after where
  spoken := by
    rw [rolesOf_append]
    exact measured.spoken.step step
  agreed := by
    rw [probes_append, connects_append, immaterial.1, immaterial.2, List.append_nil, List.append_nil]
    exact agreed
  allowed := by
    intro version packet member
    rw [probes_append, connects_append, immaterial.1, immaterial.2, List.append_nil, List.append_nil]
    rcases List.mem_append.mp member with early | late
    · exact measured.allowed version packet early
    · exact sends version packet (List.mem_singleton.mp late).symm

theorem Measured.settled (measured : Measured rmqtt log phase) (step : Step rmqtt config bytes phase observation after)
    (silent : rolesOf (log ++ [observation]) = [])
    (agreed : Agreed rmqtt (probes (log ++ [observation])) (connects (log ++ [observation])) after) :
    Measured rmqtt (log ++ [observation]) after where
  spoken := by
    rw [rolesOf_append]
    exact measured.spoken.step step
  agreed := agreed
  allowed version packet member := absurd member (not_sent_of_silent silent version packet)

private theorem decided_agreed (decodes : rmqtt.DecodesOwnVariant) {packet : MqttPacket}
    (sourced : ∃ first body, rmqtt.decodePacket version first body = .ok packet) :
    Agreed rmqtt [version] [packet] (.decided config version script
      (evaluateConnect rmqtt packet config.idleTimeoutSecs config.peerAddr config.maxInboundPacketSize)) := by
  obtain ⟨first, body, decoded⟩ := sourced
  have own := decodes version first body packet decoded
  have limit : ∀ connect ∈ [packet], declared connect = declared packet := by
    intro connect member
    rw [List.mem_singleton.mp member]
  have evaluates := @evaluateConnect_evaluates rmqtt packet config.idleTimeoutSecs config.peerAddr config.maxInboundPacketSize
  generalize evaluateConnect rmqtt packet config.idleTimeoutSecs config.peerAddr config.maxInboundPacketSize = decision
    at evaluates ⊢
  cases evaluates with
  | accept clientId keepAliveSecs idleTimeout speaks role sendable =>
    obtain rfl := Option.some.inj (own.symm.trans speaks)
    exact ⟨rfl, limit, sendable_allowed sendable rfl limit⟩
  | refuse speaks role fits =>
    obtain rfl := Option.some.inj (own.symm.trans speaks)
    intro other connack offer
    split at offer
    next sendable =>
      cases offer
      exact sendable_allowed (fits sendable) rfl limit
    next => cases offer
  | refusePersistentSession => rintro _ _ ⟨⟩
  | notConnect => trivial

/-- Step: whatever a session does next, it sends only what it may send. -/
theorem Measured.step (decodes : rmqtt.DecodesOwnVariant) (measured : Measured rmqtt log phase)
    (step : Step rmqtt config bytes phase observation after) : Measured rmqtt (log ++ [observation]) after := by
  have moved := step
  have agreed := measured.agreed
  have spoken := measured.spoken
  cases step with
  | mechanical phase mechanical =>
    refine measured.kept moved (immaterial_mechanical mechanical) agreed ?_
    rintro version packet rfl
    exact mechanical.elim
  | probed version =>
    refine measured.settled moved ?_ ?_
    · rw [rolesOf_append, show rolesOf log = [] from spoken]
      rfl
    · rw [probes_append, connects_append, agreed.1, agreed.2]
      exact ⟨rfl, rfl⟩
  | received version packet script parsed sourced =>
    refine measured.settled moved ?_ ?_
    · rw [rolesOf_append, show rolesOf log = [] from spoken]
      rfl
    · rw [probes_append, connects_append, agreed.1, agreed.2]
      exact decided_agreed decodes sourced
  | unsupported =>
    refine measured.kept moved ⟨rfl, rfl⟩ ?_ (by rintro _ _ ⟨⟩)
    rw [agreed.1, agreed.2]
    rintro version connack ⟨⟩
    exact ⟨rfl, by simp, by simp⟩
  | clientId version =>
    refine measured.kept moved ⟨rfl, rfl⟩ ?_ (by rintro _ _ ⟨⟩)
    rw [agreed.1, agreed.2]
    rintro version connack ⟨⟩
    exact ⟨refusedClientId_variant config version, by simp, by simp⟩
  | refused version connack =>
    refine measured.kept moved ⟨rfl, rfl⟩ trivial ?_
    rintro version packet ⟨⟩
    exact agreed version connack rfl
  | accepted version connack loop script =>
    refine measured.kept moved ⟨rfl, rfl⟩ ⟨agreed.1, agreed.2.1⟩ ?_
    rintro version packet ⟨⟩
    exact agreed.2.2
  | served version loop script step =>
    refine measured.kept moved (immaterial_talk step) agreed ?_
    rintro sent packet rfl
    obtain ⟨rfl, sendable⟩ := talk_sends step
    exact sendable_allowed sendable agreed.1 agreed.2
  | awaitRead | greeted => exact measured.kept moved ⟨rfl, rfl⟩ agreed (by rintro _ _ ⟨⟩)
  | _ => exact measured.kept moved ⟨rfl, rfl⟩ trivial (by rintro _ _ ⟨⟩)

/-- Run: a session never sends anything else. -/
private theorem converses_measured (decodes : rmqtt.DecodesOwnVariant) (converses : Converses rmqtt config bytes log phase) :
    Measured rmqtt log phase := by
  have start : Measured rmqtt [] .probing := ⟨rfl, ⟨rfl, rfl⟩, by simp⟩
  refine converses.invariant (Measured rmqtt) start ?_
  intro seen state observation after measured step
  exact measured.step decodes step

end

variable {sync : LocalSync} {view : sync.Room → Semaphore Nat}

/-- Every packet handed to the encoder, in whatever way the session goes and ends, is of
the variant its encoder takes, which is that of the version negotiated. If the CONNECT
declared a Maximum Packet Size, the packet can be encoded and is no longer than that. -/
theorem packets_within_limit (framing : rmqtt.LawfulFraming) (lawful : sync.Lawful view) (decodes : rmqtt.DecodesOwnVariant)
    (scenario : Scenario) (version : ProtocolVersion) (packet : MqttPacket)
    (sent : .sent version packet ∈ scenario.log rmqtt sync) :
    packet.variant = some version ∧
    (∀ negotiated, .probed negotiated ∈ scenario.log rmqtt sync → version = negotiated) ∧
    ∀ connect limit, .received connect ∈ scenario.log rmqtt sync → declared connect = some limit →
      ∃ bytes, rmqtt.encode version packet = some bytes ∧ bytes.length ≤ limit.get.toNat := by
  obtain ⟨phase, final⟩ := scenario.final lawful framing
  have allowed := (converses_measured decodes final.converses).allowed version packet sent
  refine ⟨allowed.variant, fun negotiated probed => ?_, fun connect limit received => ?_⟩
  · exact allowed.negotiated negotiated (List.mem_filterMap.mpr ⟨_, probed, rfl⟩)
  · exact allowed.within connect (List.mem_filterMap.mpr ⟨_, received, rfl⟩) limit

open Fixtures

def tightClient : Scenario := .prompt [⟨v5ConnectTight ++ pingreq, List.cons_ne_nil _ _⟩]

theorem packets_within_limit_tight :
    .sent .mqtt5 (.v5 .pingResponse) ∈ tightClient.log codec .fifo ∧
    ∃ bytes, codec.encode .mqtt5 (.v5 .pingResponse) = some bytes ∧ bytes.length ≤ 15 := by
  have sent : .sent .mqtt5 (.v5 .pingResponse) ∈ tightClient.log codec .fifo := by decide +kernel
  obtain ⟨_, _, within⟩ := packets_within_limit codec_lawful LocalSync.fifo_lawful codec_decodesOwnVariant tightClient
    .mqtt5 (.v5 .pingResponse) sent
  exact ⟨sent, within connectTight limit15 (by decide +kernel) rfl⟩

end UringMqtt.Proofs.PacketSize

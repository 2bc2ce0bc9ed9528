import UringMqtt.Proofs.Chunking
import UringMqtt.Proofs.FrameCuts
import UringMqtt.Proofs.Outgoing

/-! The CONNACK that refuses a protocol level answers a CONNECT whose level lies inside
the frame it declares, and nothing behind that frame decides whether it is sent. -/

namespace UringMqtt.Proofs.LevelRefusal
open Lib FrameCuts VersionProbe

/-! ### What the probe asks of the bytes -/

/-- `rejects_malformed_fixed_header` with `src[0]` indexed as the source does: `none` is the
panic of an index out of range. -/
def rejectsMalformedFixedHeaderIndexed (src : Bytes) : Option Bool :=
  match fixedHeader src with
  | none => some false
  | some (headerLen, remainingLength) =>
    src[0]?.map fun first =>
      let pingreqWithBody := first == pingreqFirstByte && remainingLength != 0
      let nonMinimal := decide (headerLen - 1 > varintLen remainingLength)
      pingreqWithBody || nonMinimal

/-- The front of a CONNECT up to its level, with a protocol name the version codec knows. -/
structure Names (head : Bytes) (r : Nat) : Prop where
  layout : ∃ first hi lo name, head = first :: (Varint.encode r ++ ([hi, lo] ++ name)) ∧
    hi.toNat * 256 + lo.toNat = name.length ∧ (name = protocolNameMqtt ∨ name = protocolNameMqisdp) ∧
    ¬ (first = 0xC0 ∧ r ≠ 0) ∧ name.length + 2 < r
  encodable : r ≤ maxRemainingLength

def NamesLevel (src : Bytes) : Prop := ∃ head r, Names head r ∧ head <+: src

private theorem rejectsMalformedFixedHeaderIndexed_eq (src : Bytes) :
    rejectsMalformedFixedHeaderIndexed src = some (rejectsMalformedFixedHeader src) := by
  unfold rejectsMalformedFixedHeaderIndexed rejectsMalformedFixedHeader
  cases complete : fixedHeader src with
  | none => rfl
  | some header =>
    obtain ⟨first, rest, _, rfl, _, _⟩ := fixedHeader_eq_some.mp complete
    rfl

variable {src head other behind : Bytes} {r headerLen : Nat}

theorem Names.header (names : Names head r) (more : Bytes) :
    fixedHeader (head ++ more) = some (1 + varintLen r, r) ∧ rejectsMalformedFixedHeader (head ++ more) = false := by
  obtain ⟨first, hi, lo, name, rfl, _, _, other, inside⟩ := names.layout
  rw [List.cons_append, List.append_assoc]
  refine ⟨fixedHeader_encode names.encodable first _, encode_not_malformed names.encodable ?_ _⟩
  rintro rfl
  exact other ⟨rfl, by omega⟩

theorem Names.measured (names : Names head r) (more : Bytes) :
    ∃ hi lo, slice (head ++ more) (1 + varintLen r) (1 + varintLen r + protocolNameLenBytes) = some [hi, lo] ∧
      1 + varintLen r + protocolNameLenBytes + (hi.toNat * 256 + lo.toNat) = head.length := by
  obtain ⟨first, hi, lo, name, rfl, counted, _, _, _⟩ := names.layout
  refine ⟨hi, lo, slice_eq_some.mpr ⟨first :: Varint.encode r, name ++ more, by simp, ?_, rfl⟩, ?_⟩
  · rw [List.length_cons, Varint.length_encode, varintLen_eq, Nat.add_comm]
  · simp only [counted, List.length_cons, List.length_append, Varint.length_encode, varintLen_eq, List.length_nil,
      protocolNameLenBytes]
    omega

theorem namesAKnownProtocol_iff (src : Bytes) : namesAKnownProtocol src = true ↔ NamesLevel src := by
  constructor
  · intro known
    unfold namesAKnownProtocol at known
    cases complete : fixedHeader src with
    | none => simp [complete] at known
    | some header =>
      obtain ⟨headerLen, r⟩ := header
      simp only [complete] at known
      split at known
      · cases known
      next wellFormed =>
        split at known
        next hi lo measured =>
          simp only [Bool.and_eq_true, decide_eq_true_eq, Option.any_eq_true, Bool.or_eq_true, beq_iff_eq] at known
          obtain ⟨inside, name, found, same⟩ := known
          have wellFormed : rejectsMalformedFixedHeader src = false := by simpa using wellFormed
          obtain ⟨before, after, cut, start, _⟩ := slice_eq_some.mp measured
          obtain ⟨before', after', cut', start', counted⟩ := slice_eq_some.mp found
          -- both cuts agree on what stands in front of the name
          have both : before ++ [hi, lo] ++ after = before' ++ (name ++ after') := by
            rw [List.append_assoc, ← cut, cut']
          obtain ⟨rfl, _⟩ := List.append_inj both (by simp [start, start', protocolNameLenBytes])
          have front : (before.take headerLen).drop 1 = Varint.encode r := by
            have minimal := minimal_of_not_malformed complete wellFormed
            rwa [cut, List.take_append_of_le_length (Nat.le_of_eq start.symm)] at minimal
          obtain ⟨_, _, _, encodable, _⟩ := fixedHeader_bounds complete
          cases before with
          | nil =>
            have wide := (fixedHeader_bounds complete).1
            simp only [List.length_nil] at start
            omega
          | cons first len =>
            obtain rfl : len = Varint.encode r := by simpa [← start] using front
            refine ⟨first :: (Varint.encode r ++ ([hi, lo] ++ name)), r, ⟨⟨first, hi, lo, name, rfl, ?_, same, ?_, ?_⟩,
              encodable⟩, after', by simp [cut']⟩
            · omega
            · rintro ⟨rfl, body⟩
              have ping : src.head? = some pingreqFirstByte := by
                rw [cut]
                rfl
              simp [rejectsMalformedFixedHeader, complete, ping, body] at wellFormed
            · simp only [protocolNameLenBytes] at counted inside
              omega
        next => cases known
  · rintro ⟨head, r, names, more, rfl⟩
    obtain ⟨complete, wellFormed⟩ := names.header more
    obtain ⟨first, hi, lo, name, rfl, counted, known, _, inside⟩ := names.layout
    have measured : slice (first :: (Varint.encode r ++ ([hi, lo] ++ name)) ++ more) (1 + varintLen r)
        (1 + varintLen r + protocolNameLenBytes) = some [hi, lo] :=
      slice_eq_some.mpr ⟨first :: Varint.encode r, name ++ more, by simp,
        by rw [List.length_cons, Varint.length_encode, varintLen_eq, Nat.add_comm], rfl⟩
    have found : slice (first :: (Varint.encode r ++ ([hi, lo] ++ name)) ++ more) (1 + varintLen r + protocolNameLenBytes)
        (1 + varintLen r + protocolNameLenBytes + name.length) = some name :=
      slice_eq_some.mpr ⟨first :: (Varint.encode r ++ [hi, lo]), more, by simp,
        by simp [Varint.length_encode, varintLen_eq, protocolNameLenBytes]; omega, rfl⟩
    rw [namesAKnownProtocol, complete]
    simp only [wellFormed, Bool.false_eq_true, if_false, measured, counted, found, Option.any_some, Bool.and_eq_true,
      decide_eq_true_eq, Bool.or_eq_true, beq_iff_eq]
    exact ⟨by simp only [protocolNameLenBytes]; omega, known⟩

theorem NamesLevel.append (names : NamesLevel src) (more : Bytes) : NamesLevel (src ++ more) := by
  obtain ⟨head, r, front, part⟩ := names
  exact ⟨head, r, front, part.trans (List.prefix_append src more)⟩

theorem Names.length_lt (names : Names head r) : head.length < 1 + varintLen r + r := by
  obtain ⟨first, hi, lo, name, rfl, _, _, _, inside⟩ := names.layout
  simp only [List.length_cons, List.length_append, Varint.length_encode, varintLen_eq, List.length_nil]
  omega

private theorem fixedHeader_take {frame : Nat} (complete : fixedHeader src = some (headerLen, r))
    (long : headerLen ≤ frame) : fixedHeader (src.take frame) = some (headerLen, r) := by
  obtain ⟨first, rest, width, rfl, rfl, found⟩ := fixedHeader_eq_some.mp complete
  obtain ⟨more, rfl⟩ := Nat.exists_eq_add_of_le long
  have front : rest.take (width + more) = rest.take width ++ (rest.drop width).take more := List.take_add
  refine fixedHeader_eq_some.mpr ⟨first, rest.take (width + more), width, ?_, rfl, ?_⟩
  · rw [show 1 + width + more = width + more + 1 by omega, List.take_succ_cons]
  · rw [front]
    exact Varint.read_number_append _ (Varint.read_take found)

/-- Two buffers that hold the same bytes of the frame the first of them declares. -/
structure SameFrame (src other : Bytes) (headerLen r : Nat) : Prop where
  complete : fixedHeader src = some (headerLen, r)
  same : src.take (headerLen + r) = other.take (headerLen + r)

theorem SameFrame.symm (frame : SameFrame src other headerLen r) :
    SameFrame other src headerLen r := by
  refine ⟨?_, frame.same.symm⟩
  rw [← List.take_append_drop (headerLen + r) other, ← frame.same]
  exact fixedHeader_append _ (fixedHeader_take frame.complete (Nat.le_add_right _ _))

theorem SameFrame.names (frame : SameFrame src other headerLen r)
    (names : NamesLevel src) : ∃ head, Names head r ∧ head <+: src.take (headerLen + r) ∧ headerLen = 1 + varintLen r := by
  obtain ⟨head, r', front, more, rfl⟩ := names
  have header := (front.header more).1
  rw [frame.complete] at header
  cases header
  exact ⟨head, front, List.prefix_take_iff.mpr ⟨List.prefix_append head more, Nat.le_of_lt front.length_lt⟩, rfl⟩

/-! ### What the probe answers -/

/-- How `VersionCodec` refuses a level: with the error of an unknown name, and behind a
name it knows as soon as the level byte is buffered. -/
structure RefusesLevels (rmqtt : Rmqtt) : Prop where
  alike : ∀ src, (rmqtt.decodeVersion src).1 ≠ .error .unsupportedProtocolLevel
  prompt : ∀ head r level rest, Names head r → (rmqtt.decodeVersion (head ++ level :: rest)).1 ≠ .ok none

section
variable {rmqtt : Rmqtt} {bound : MaxInboundPacketSize}

def ReportsLevel (rmqtt : Rmqtt) (bound : MaxInboundPacketSize) (src : Bytes) : Prop :=
  ((VersionDecoder.mk bound).decode rmqtt src).1 = .error (.decode .unsupportedProtocolLevel)

/-- The CONNECT fits the bound, names a protocol and puts a level inside its frame, and the
codec does not take it. -/
structure Refusable (rmqtt : Rmqtt) (bound : MaxInboundPacketSize) (src : Bytes) : Prop where
  fits : bound.rejectsFixedHeader src = false
  refused : (rmqtt.decodeVersion src).1 = .error .invalidProtocol
  names : NamesLevel src

theorem reports_iff (lawful : rmqtt.LawfulProbe) (levels : RefusesLevels rmqtt) (src : Bytes) :
    ReportsLevel rmqtt bound src ↔ Refusable rmqtt bound src := by
  have whole := lawful.looks src
  have alike := levels.alike src
  unfold ReportsLevel VersionDecoder.decode
  constructor
  · intro reported
    split at reported
    · cases reported
    next fits =>
      rcases found : rmqtt.decodeVersion src with ⟨answer, rest⟩
      rw [found] at reported whole alike
      obtain rfl : rest = src := whole
      rcases answer with error | version
      · cases error with
        | invalidProtocol =>
          simp only at reported
          split at reported
          next known =>
            exact ⟨by simpa using fits, by rw [found], (namesAKnownProtocol_iff rest).mp known⟩
          next => cases reported
        | unsupportedProtocolLevel => exact absurd rfl alike
        | _ => cases reported
      · cases reported
  · rintro ⟨fits, refused, names⟩
    rcases found : rmqtt.decodeVersion src with ⟨answer, rest⟩
    rw [found] at refused whole
    obtain rfl : rest = src := whole
    obtain rfl : answer = .error .invalidProtocol := refused
    simp [fits, (namesAKnownProtocol_iff rest).mpr names]

variable {head src : Bytes} {r : Nat}

theorem Names.judged (levels : RefusesLevels rmqtt) (names : Names head r)
    (part : head <+: src) (level : head.length < src.length) : (rmqtt.decodeVersion src).1 ≠ .ok none := by
  obtain ⟨more, rfl⟩ := part
  cases more with
  | nil => simp at level
  | cons byte rest => exact levels.prompt head r byte rest names

theorem Names.level {hi lo : UInt8} (front : Names head r) (part : head <+: src.take (1 + varintLen r + r))
    (measured : slice src (1 + varintLen r) (1 + varintLen r + protocolNameLenBytes) = some [hi, lo])
    (buffered : 1 + varintLen r + protocolNameLenBytes + (hi.toNat * 256 + lo.toNat) < src.length) :
    head.length < (src.take (1 + varintLen r + r)).length := by
  obtain ⟨more, rfl⟩ := part.trans (List.take_prefix _ src)
  obtain ⟨hi', lo', same, counted⟩ := front.measured more
  rw [same] at measured
  cases measured
  rw [List.length_take]
  have inside := front.length_lt
  omega

private theorem Refusable.sameFrame (lawful : rmqtt.LawfulProbe) (levels : RefusesLevels rmqtt) {other : Bytes}
    {headerLen : Nat} (refusable : Refusable rmqtt bound src) (frame : SameFrame src other headerLen r) :
    Refusable rmqtt bound other := by
  obtain ⟨fits, refused, names⟩ := refusable
  obtain ⟨head, front, part, rfl⟩ := frame.names names
  have cutSrc := List.take_append_drop (1 + varintLen r + r) src
  have cutOther := List.take_append_drop (1 + varintLen r + r) other
  rw [← frame.same] at cutOther
  refine ⟨?_, ?_, head, r, front, ?_⟩
  · simpa [MaxInboundPacketSize.rejectsFixedHeader, packetLen, frame.complete, frame.symm.complete] using fits
  · -- the level byte is buffered and inside the frame, so the common part is judged already
    obtain ⟨_, _, hi, lo, complete, measured, buffered⟩ := lawful.level src _ refused (.inl rfl)
    rw [frame.complete] at complete
    cases complete
    have judged := front.judged levels part (front.level part measured buffered)
    rw [← cutOther, lawful.stable _ _ judged, ← lawful.stable _ _ judged, cutSrc, refused]
  · rw [← cutOther]
    exact part.trans (List.prefix_append _ _)

private theorem Refusable.append (lawful : rmqtt.LawfulProbe) (refusable : Refusable rmqtt bound src) (more : Bytes) :
    Refusable rmqtt bound (src ++ more) := by
  obtain ⟨fits, refused, names⟩ := refusable
  refine ⟨?_, ?_, names.append more⟩
  · obtain ⟨head, r, front, rest, rfl⟩ := names
    rw [rejectsFixedHeader_append bound (front.header rest).1 more, fits]
  · rw [lawful.stable src more (by rw [refused]; simp), refused]

end

/-! ### The session around the probe -/

section
open Conversation Session Chunking Outgoing

def levelConnack : MqttPacket := .v3 (.connectAck ⟨.unacceptableProtocolVersion, false⟩)

variable {rmqtt : Rmqtt} {config : Config} {bytes : Bytes}

private theorem refusedClientId_other (version : ProtocolVersion) : refusedClientId config version ≠ levelConnack := by
  cases version <;> simp [refusedClientId, levelConnack]

private theorem evaluateConnect_other (packet : MqttPacket) (idleTimeoutSecs : Nat) (peerAddr : String) (bound : MaxInboundPacketSize)
    {connack : MqttPacket} {sendable : Bool}
    (refused : evaluateConnect rmqtt packet idleTimeoutSecs peerAddr bound = .refuse connack sendable) :
    connack ≠ levelConnack := by
  unfold evaluateConnect refuseV5 at refused
  dsimp only at refused
  repeat' split at refused
  all_goals cases refused
  all_goals simp [levelConnack]

variable {version : ProtocolVersion} {phase after : Phase} {observation : Observation} {log : List Observation}

private theorem talk_sent {sent : ProtocolVersion} {loop : LoopConfig} {script : Script} {talk after : Talk}
    {packet : MqttPacket} (step : talk.Step rmqtt version loop script (.sent sent packet) after) :
    roleOf packet = .reply ∨ roleOf packet = .disconnect := by
  cases step with
  | mechanical _ mechanical _ => exact mechanical.elim
  | replied _ _ => exact .inl (render_role _ version)
  | disconnected _ fits => exact .inr (disconnect_sendable fits).1

/-- A CONNACK about the level is only under way where the probe reported one. -/
def Guarded (rmqtt : Rmqtt) (config : Config) (bytes : Bytes) : Phase → Prop
  | .refusing (some (_, connack)) =>
    connack = levelConnack → ∃ seen, seen <+: bytes ∧ ReportsLevel rmqtt config.maxInboundPacketSize seen
  | .accepting _ connack _ _ => connack ≠ levelConnack
  | _ => True

theorem Guarded.step (looks : rmqtt.ProbeLooks)
    (guarded : Guarded rmqtt config bytes phase) (step : Step rmqtt config bytes phase observation after) :
    Guarded rmqtt config bytes after ∧ ∀ version, observation = .sent version levelConnack →
      ∃ seen, seen <+: bytes ∧ ReportsLevel rmqtt config.maxInboundPacketSize seen := by
  cases step with
  | mechanical _ mechanical _ =>
    refine ⟨guarded, ?_⟩
    rintro version rfl
    exact mechanical.elim
  | unsupported probed => exact ⟨fun _ => probed looks, fun _ same => by cases same⟩
  | clientId version _ => exact ⟨fun same => absurd same (refusedClientId_other version), fun _ same => by cases same⟩
  | received version packet script _ _ =>
    refine ⟨?_, fun _ same => by cases same⟩
    have evaluates := @evaluateConnect_evaluates rmqtt packet config.idleTimeoutSecs config.peerAddr
      config.maxInboundPacketSize
    have other := @evaluateConnect_other rmqtt packet config.idleTimeoutSecs config.peerAddr config.maxInboundPacketSize
    generalize evaluateConnect rmqtt packet config.idleTimeoutSecs config.peerAddr config.maxInboundPacketSize = decision
      at evaluates other
    cases evaluates with
    | accept _ _ _ _ role _ =>
      intro same
      rw [same] at role
      cases role
    | @refuse _ connack sendable _ _ _ =>
      cases sendable with
      | false => trivial
      | true => exact fun same => absurd same (other rfl)
    | refusePersistentSession => trivial
    | notConnect => trivial
  | refused version connack =>
    refine ⟨trivial, ?_⟩
    rintro _ ⟨⟩
    exact guarded rfl
  | accepted version connack _ _ =>
    refine ⟨trivial, ?_⟩
    rintro _ ⟨⟩
    exact absurd rfl guarded
  | served version loop script step =>
    refine ⟨trivial, ?_⟩
    rintro other rfl
    rcases talk_sent step with reply | disconnect
    · cases reply
    · cases disconnect
  | awaitRead waiting | readExpired waiting | readFailed waiting =>
    cases waiting <;> exact ⟨trivial, fun _ same => by cases same⟩
  | _ => exact ⟨trivial, fun _ same => by cases same⟩

/-- Run: whoever sent the CONNACK about the level had it reported. -/
private theorem converses_guarded (looks : rmqtt.ProbeLooks) (converses : Converses rmqtt config bytes log phase)
    (sent : .sent version levelConnack ∈ log) :
    ∃ seen, seen <+: bytes ∧ ReportsLevel rmqtt config.maxInboundPacketSize seen := by
  suffices both : Guarded rmqtt config bytes phase ∧ ∀ version, .sent version levelConnack ∈ log →
      ∃ seen, seen <+: bytes ∧ ReportsLevel rmqtt config.maxInboundPacketSize seen from both.2 version sent
  refine converses.invariant
    (fun log phase => Guarded rmqtt config bytes phase ∧ ∀ version, .sent version levelConnack ∈ log →
      ∃ seen, seen <+: bytes ∧ ReportsLevel rmqtt config.maxInboundPacketSize seen)
    (show Guarded rmqtt config bytes .probing ∧ _ from ⟨trivial, fun _ member => absurd member List.not_mem_nil⟩) ?_
  intro seen phase observation after ⟨guarded, earlier⟩ step
  obtain ⟨kept, now⟩ := guarded.step looks step
  refine ⟨kept, fun version member => ?_⟩
  rcases List.mem_append.mp member with before | last
  · exact earlier version before
  · exact now version (List.mem_singleton.mp last).symm

def Heading (log : List Observation) : Phase → Prop
  | .probing => True
  | .refusing connack => connack = some (.mqtt3, levelConnack)
  | .refused => .sent .mqtt3 levelConnack ∈ log
  | _ => False

private theorem probe_stable (lawful : rmqtt.LawfulProbe) (fits : config.maxInboundPacketSize.rejectsFixedHeader bytes = false)
    {seen : Bytes} (part : seen <+: bytes) (answered : probe rmqtt config seen ≠ .ok none) :
    probe rmqtt config bytes = probe rmqtt config seen := by
  obtain ⟨more, rfl⟩ := part
  exact decode_append lawful config.maxInboundPacketSize more fits answered

theorem Heading.step (lawful : rmqtt.LawfulProbe) (levels : RefusesLevels rmqtt)
    (refusable : Refusable rmqtt config.maxInboundPacketSize bytes)
    (heading : Heading log phase) (step : Step rmqtt config bytes phase observation after)
    (calm : Calm observation = true) : Heading (log ++ [observation]) after := by
  have reported : probe rmqtt config bytes = .error (.decode .unsupportedProtocolLevel) :=
    (reports_iff lawful levels bytes).mpr refusable
  -- an answer of the probe on a part of the bytes is this one
  have answers {seen : Bytes} {answer : Except IoError (Option ProtocolVersion)} (part : seen <+: bytes)
      (found : probe rmqtt config seen = answer) (decided : answer ≠ .ok none) :
      answer = .error (.decode .unsupportedProtocolLevel) := by
    rw [← found, ← probe_stable lawful refusable.fits part (found ▸ decided), reported]
  cases step with
  | mechanical _ _ _ =>
    cases phase with
    | refused => exact List.mem_append_left _ heading
    | _ => exact heading
  | awaitRead waiting =>
    cases waiting with
    | probing => trivial
    | connecting => exact heading
  | readExpired | readFailed => cases calm
  | probed version probed =>
    obtain ⟨seen, part, found⟩ := probed lawful.looks
    cases answers part found (by simp)
  | unsupported => rfl
  | unprobed other probed =>
    obtain ⟨seen, part, found⟩ := probed lawful.looks
    cases answers part found (by simp)
    exact absurd rfl other
  | unfinished probed | unopened probed =>
    rw [(probed lawful.looks).1] at reported
    cases reported
  | refused version connack =>
    cases heading
    exact List.mem_append_right _ List.mem_cons_self
  | _ => exact heading.elim

theorem Undisturbed.sends {sync : LocalSync} {view : sync.Room → Semaphore Nat} (framing : rmqtt.LawfulFraming)
    (lawful : rmqtt.LawfulProbe) (levels : RefusesLevels rmqtt) (channel : sync.Lawful view) {scenario : Scenario}
    (undisturbed : Undisturbed rmqtt sync scenario)
    (refusable : Refusable rmqtt scenario.config.maxInboundPacketSize scenario.bytes) :
    .sent .mqtt3 levelConnack ∈ scenario.log rmqtt sync := by
  obtain ⟨phase, final⟩ := scenario.final channel framing
  have returned := undisturbed.returns lawful.looks final
  have calm := undisturbed.calm
  have heading : Heading (scenario.log rmqtt sync) phase := by
    refine final.converses.invariant
      (fun log phase => (∀ observation ∈ log, Calm observation = true) → Heading log phase)
      (show _ → Heading [] .probing from fun _ => trivial) ?_ calm
    intro seen phase observation after held step calm
    exact (held fun earlier member => calm earlier (List.mem_append_left _ member)).step lawful levels refusable step
      (calm observation (List.mem_append_right _ List.mem_cons_self))
  have settled := final.settled returned (calm_quiet calm)
  cases phase with
  | refused => exact heading
  | probing => cases settled
  | refusing connack =>
    cases heading
    cases settled
  | _ => exact heading.elim

end

/-! ### The test codec -/

open Fixtures in
private theorem codec_refusesLevels : RefusesLevels codec where
  alike src answered := by
    change (Fixtures.decodeVersion src).1 = _ at answered
    unfold Fixtures.decodeVersion at answered
    repeat' split at answered
    all_goals first | cases answered | cases (judgeLevel_error answered).1
  prompt head r level rest names := by
    obtain ⟨first, hi, lo, name, rfl, counted, known, _, _⟩ := names.layout
    change (Fixtures.decodeVersion _).1 ≠ _
    have found := Varint.read_encode (width_le_four names.encodable) ([hi, lo] ++ name ++ level :: rest)
    have drop : (Varint.encode r ++ ([hi, lo] ++ name ++ level :: rest)).drop (Varint.width r) =
        hi :: lo :: (name ++ level :: rest) := by
      rw [← Varint.length_encode, List.drop_left]
      rfl
    rw [List.cons_append, List.append_assoc, Fixtures.decodeVersion]
    simp only [found, drop]
    split
    · simp only [judgeLevel, counted, List.drop_left, List.take_left]
      repeat' split
      all_goals simp
    · simp

/-! ### The refusal of a level -/

/-- The probe looks inside the frame a CONNECT declares: it reports an unsupported level
exactly for a name with a level in its frame that the codec refuses, and the CONNACK
about the level is sent for such a CONNECT and for no other. -/
theorem level_refused_exactly {rmqtt : Rmqtt} {sync : LocalSync} {view : sync.Room → Semaphore Nat}
    (framing : rmqtt.LawfulFraming) (lawful : rmqtt.LawfulProbe) (levels : RefusesLevels rmqtt)
    (channel : sync.Lawful view) :
    (∀ src, rejectsMalformedFixedHeaderIndexed src = some (rejectsMalformedFixedHeader src) ∧
      (namesAKnownProtocol src = true ↔ NamesLevel src) ∧
      ∀ more, namesAKnownProtocol src = true → namesAKnownProtocol (src ++ more) = true) ∧
    (∀ bound src, ReportsLevel rmqtt bound src ↔ Refusable rmqtt bound src) ∧
    (∀ bound src other headerLen r, SameFrame src other headerLen r →
      (ReportsLevel rmqtt bound src ↔ ReportsLevel rmqtt bound other)) ∧
    (∀ scenario : Session.Scenario,
      (∀ version, .sent version levelConnack ∈ scenario.log rmqtt sync →
        Refusable rmqtt scenario.config.maxInboundPacketSize scenario.bytes) ∧
      (Chunking.Undisturbed rmqtt sync scenario →
        Refusable rmqtt scenario.config.maxInboundPacketSize scenario.bytes →
        .sent .mqtt3 levelConnack ∈ scenario.log rmqtt sync ∧
          scenario.written rmqtt sync = Outbox.encoding rmqtt .mqtt3 levelConnack)) ∧
    (∀ (one two : Session.Scenario) headerLen r, Chunking.Undisturbed rmqtt sync one →
      Chunking.Undisturbed rmqtt sync two → one.config = two.config → SameFrame one.bytes two.bytes headerLen r →
      (.sent .mqtt3 levelConnack ∈ one.log rmqtt sync ↔ .sent .mqtt3 levelConnack ∈ two.log rmqtt sync)) := by
  have sends (scenario : Session.Scenario) (version : ProtocolVersion)
      (sent : .sent version levelConnack ∈ scenario.log rmqtt sync) :
      Refusable rmqtt scenario.config.maxInboundPacketSize scenario.bytes := by
    obtain ⟨phase, final⟩ := scenario.final channel framing
    obtain ⟨seen, ⟨more, whole⟩, reported⟩ := converses_guarded lawful.looks final.converses sent
    rw [← whole]
    exact ((reports_iff lawful levels seen).mp reported).append lawful more
  have within {bound : MaxInboundPacketSize} {src other : Bytes} {headerLen r : Nat} (frame : SameFrame src other headerLen r) :
      Refusable rmqtt bound src ↔ Refusable rmqtt bound other :=
    ⟨fun refusable => refusable.sameFrame lawful levels frame, fun refusable => refusable.sameFrame lawful levels frame.symm⟩
  refine ⟨fun src => ⟨rejectsMalformedFixedHeaderIndexed_eq src, namesAKnownProtocol_iff src, fun more known => ?_⟩,
    fun bound src => reports_iff lawful levels src, fun bound src other headerLen r frame => ?_,
    fun scenario => ⟨sends scenario, fun undisturbed refusable => ⟨?_, ?_⟩⟩,
    fun one two headerLen r first second same frame => ⟨fun sent => ?_, fun sent => ?_⟩⟩
  · exact (namesAKnownProtocol_iff _).mpr (((namesAKnownProtocol_iff src).mp known).append more)
  · rw [reports_iff lawful levels, reports_iff lawful levels, within frame]
  · exact Undisturbed.sends framing lawful levels channel undisturbed refusable
  · have reported : Conversation.probe rmqtt scenario.config scenario.bytes = .error (.decode .unsupportedProtocolLevel) :=
      (reports_iff lawful levels _).mpr refusable
    rw [(undisturbed.serves framing lawful channel).2.2, Chunking.serve, reported]
    simp [IoError.decodeError, Chunking.refusal, Chunking.Exchange.write, levelConnack]
  · refine Undisturbed.sends framing lawful levels channel second ((within frame).mp ?_)
    rw [← same]
    exact sends one _ sent
  · refine Undisturbed.sends framing lawful levels channel first ((within frame).mpr ?_)
    rw [same]
    exact sends two _ sent

open Fixtures in
def levelSix : Session.Scenario := .prompt [⟨v3ConnectLevel6, List.cons_ne_nil _ _⟩]

open Fixtures in
theorem level_refused_exactly_six :
    .sent .mqtt3 levelConnack ∈ levelSix.log codec .fifo ∧
      Refusable codec .default levelSix.bytes := by
  obtain ⟨_, _, _, session, _⟩ := level_refused_exactly codec_lawful codec_lawfulProbe codec_refusesLevels
    LocalSync.fifo_lawful
  have sent : .sent .mqtt3 levelConnack ∈ levelSix.log codec .fifo := by decide +kernel
  exact ⟨sent, (session levelSix).1 .mqtt3 sent⟩

end UringMqtt.Proofs.LevelRefusal

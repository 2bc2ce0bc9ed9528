import UringMqtt.Proofs.SessionGrammar

/-! Nothing is acknowledged that was not accounted for. Every admission of a session
belongs to one packet that `dispatch` wanted delivered; an acknowledgement is handed
over only behind the admission of the PUBLISH it answers for. -/

namespace UringMqtt.Proofs.Acknowledgement
open Lib ExactlyOnce Outgoing Conversation PacketLoop Session SessionGrammar

/-! ### What `dispatch` acknowledges -/

def acknowledged : MqttPacket → Option NonZeroU16
  | .v3 (.publishAck id) | .v3 (.publishReceived id) => some id
  | .v5 (.publishAck ack) | .v5 (.publishReceived ack) => some ack.packetId
  | _ => none

def acknowledges : Reply → Option NonZeroU16
  | .publishAck id | .publishReceived id => some id
  | _ => none

def delivered : Disposition → Option CodecPublish
  | .deliver publish | .deliverThenReply publish _ => some publish
  | _ => none

/-- The packet id a disposition acknowledges without a delivery of its own. -/
def repeated : Disposition → Option NonZeroU16
  | .reply reply => acknowledges reply
  | _ => none

variable (before : List MqttPacket) (packet : MqttPacket) in
/-- What a packet behind others can be for the event channel and its acknowledgement. -/
inductive Classified : Disposition → Prop
  | once (publish : CodecPublish) (carries : Carries packet publish) : Classified (.deliver publish)
  | first (publish : CodecPublish) (id : NonZeroU16) (carries : Carries packet publish)
      (qos : publish.qos = .atLeastOnce) (packetId : publish.packetId = some id) :
      Classified (.deliverThenReply publish (.publishAck id))
  | receipt (publish : CodecPublish) (id : NonZeroU16) (receipt : Receipt packet publish id)
      (fresh : ¬Outstanding before id) : Classified (.deliverThenReply publish (.publishReceived id))
  | again (publish : CodecPublish) (id : NonZeroU16) (receipt : Receipt packet publish id) (held : Outstanding before id) :
      Classified (.reply (.publishReceived id))
  | other {disposition : Disposition} (undelivered : delivered disposition = none)
      (unacknowledged : repeated disposition = none) : Classified disposition

private theorem acknowledged_render (reply : Reply) (version : ProtocolVersion) :
    acknowledged (reply.render version) = acknowledges reply := by
  cases version <;> rcases reply with _ | _ | _ | _ | _ | ⟨_, _ | _⟩ <;> rfl

variable {packet : MqttPacket} {id : NonZeroU16}

private theorem role_of_acknowledged (acks : acknowledged packet = some id) :
    roleOf packet = .reply := by
  rcases packet with packet | packet | version
  · cases packet <;> first | rfl | cases acks
  · cases packet <;> first | rfl | cases acks
  · cases acks

private theorem publish_classified (before : List MqttPacket) {publish : CodecPublish}
    (carries : Carries packet publish) : Classified before packet (answer before packet) := by
  by_cases received : ∃ id, Receipt packet publish id
  · obtain ⟨id, receipt⟩ := received
    have held := contains_stateAfter before id
    rw [answer, dispatch_receipt receipt]
    cases found : contains (stateAfter before) id with
    | true => exact .again publish id receipt (held.mp found)
    | false => exact .receipt publish id receipt fun outstanding => by rw [held.mpr outstanding] at found; cases found
  · rw [answer, dispatch_carried carries]
    unfold dispatchPublish
    split
    · exact .other rfl rfl
    · split
      · exact .other rfl rfl
      next noAlias =>
        split
        · exact .other rfl rfl
        next topic =>
          split
          · exact .once publish carries
          next id qos packetId => exact .first publish id carries qos packetId
          · exact .other rfl rfl
          · exact .other rfl rfl
          next id qos packetId =>
            exact absurd ⟨id, carries, qos, packetId, Bool.eq_false_iff.mpr noAlias, topic⟩ received

private theorem filters_classified (before : List MqttPacket) (packet : MqttPacket) (filters : List String)
    {reply : NonZeroUsize → Reply} (silent : ∀ count, acknowledges (reply count) = none) :
    Classified before packet (dispatchFilters filters reply) := by
  unfold dispatchFilters
  split
  · exact .other rfl rfl
  · split
    · exact .other rfl rfl
    · exact .other rfl (silent _)

private theorem answer_classified (before : List MqttPacket) (packet : MqttPacket) :
    Classified before packet (answer before packet) := by
  rcases packet with packet | packet | version
  · cases packet with
    | publish publish => exact publish_classified before (.inl rfl)
    | subscribe => exact filters_classified before _ _ fun _ => rfl
    | unsubscribe => exact filters_classified before _ _ fun _ => rfl
    | _ => exact .other rfl rfl
  · cases packet with
    | publish publish => exact publish_classified before (.inr rfl)
    | subscribe => exact filters_classified before _ _ fun _ => rfl
    | unsubscribe => exact filters_classified before _ _ fun _ => rfl
    | _ => exact .other rfl rfl
  · exact .other rfl rfl

private theorem outstanding_first {before : List MqttPacket} (held : Outstanding before id) :
    ∃ earlier packet later publish, before = earlier ++ packet :: later ∧
      answer earlier packet = .deliverThenReply publish (.publishReceived id) ∧ Receipt packet publish id ∧
        ∀ passed ∈ later, ¬Release passed id := by
  induction before using List.reverseRecOn with
  | nil =>
    obtain ⟨earlier, packet, later, _, split, _⟩ := held
    simp at split
  | append_singleton before last ih =>
    by_cases earlier : Outstanding before id
    · -- The delivered receipt is further back, and the last packet does not release it.
      have kept : ¬Release last id := by
        rcases (outstanding_snoc before last id).mp held with ⟨publish, receipt⟩ | ⟨_, kept⟩
        · exact receipt.not_release
        · exact kept
      obtain ⟨front, packet, later, publish, rfl, delivers, receipt, quiet⟩ := ih earlier
      refine ⟨front, packet, later ++ [last], publish, by simp, delivers, receipt, ?_⟩
      intro passed member
      rcases List.mem_append.mp member with inside | final
      · exact quiet passed inside
      · exact List.mem_singleton.mp final ▸ kept
    · obtain ⟨publish, receipt⟩ := ((outstanding_snoc before last id).mp held).resolve_right fun rest => earlier rest.1
      refine ⟨before, last, [], publish, rfl, ?_, receipt, by simp⟩
      have absent : contains (stateAfter before) id = false := by
        rw [← Bool.not_eq_true, contains_stateAfter]
        exact earlier
      rw [answer, dispatch_receipt receipt, absent]
      rfl

/-! ### Admissions belong to deliveries -/

def decodedPackets (log : List Observation) : List MqttPacket :=
  log.filterMap fun
    | .decoded packet => some packet
    | _ => none

def admissions (log : List Observation) : List (CodecPublish × Admission × Ledger) :=
  log.filterMap fun
    | .admitted publish admission ledger => some (publish, admission, ledger)
    | _ => none

def deliveries (packets : List MqttPacket) : List CodecPublish := (dispatchRun packets {}).1.filterMap delivered

def undelivered : Stage → List CodecPublish
  | .delivering publish _ | .offering publish _ _ => [publish]
  | _ => []

def offerOf (publish : CodecPublish) : Option Reply → Disposition
  | none => .deliver publish
  | some reply => .deliverThenReply publish reply

def Acts (packets : List MqttPacket) : Stage → Prop
  | .delivering publish owed | .offering publish owed _ =>
    ∃ front last, packets = front ++ [last] ∧ answer front last = offerOf publish owed
  | .replying reply =>
    ∃ front last, packets = front ++ [last] ∧
      (answer front last = .reply reply ∨ ∃ publish, answer front last = .deliverThenReply publish reply)
  | _ => True

structure Credited (log : List Observation) (talk : Talk) : Prop where
  decoded : decodedPackets log = talk.packets
  admitted : (admissions log).map Prod.fst ++ undelivered talk.stage = deliveries talk.packets
  accounted : ∀ entry ∈ admissions log, ChannelUse.Accounted (.fromCodec entry.1) entry.2.1 entry.2.2
  acts : Acts talk.packets talk.stage

@[simp] theorem decodedPackets_append (first second : List Observation) :
    decodedPackets (first ++ second) = decodedPackets first ++ decodedPackets second := by
  simp [decodedPackets]

@[simp] theorem admissions_append (first second : List Observation) :
    admissions (first ++ second) = admissions first ++ admissions second := by
  simp [admissions]

private theorem deliveries_snoc (packets : List MqttPacket) (packet : MqttPacket) :
    deliveries (packets ++ [packet]) = deliveries packets ++ (delivered (answer packets packet)).toList := by
  simp only [deliveries, dispatchRun_append, dispatchRun, List.filterMap_append, answer, stateAfter]
  cases found : delivered (dispatch packet (dispatchRun packets {}).2).1 with
  | none => simp [found]
  | some publish => simp [found]

section
variable {rmqtt : Rmqtt} {config : Config} {bytes : Bytes} {version : ProtocolVersion} {loop : LoopConfig} {script : Script}
  {log : List Observation}

structure Idle (observation : Observation) : Prop where
  undecoded : decodedPackets [observation] = []
  unadmitted : admissions [observation] = []

variable {observation : Observation} {packets : List MqttPacket} {stage : Stage} {publish : CodecPublish} {owed : Option Reply}
  {idleWait : Nat} {admission : Admission} {ledger : Ledger} {talk last : Talk} {phase : Phase} {packet : MqttPacket}
  {id : NonZeroU16} {before after : List Observation} {result : Except Stop SessionOutcome}

theorem idle_mechanical (mechanical : Mechanical observation) : Idle observation := by
  cases observation <;> first | exact ⟨rfl, rfl⟩ | exact mechanical.elim

theorem Credited.idle {last : Stage}
    (credited : Credited log ⟨packets, stage⟩) (idle : Idle observation) (same : undelivered last = undelivered stage)
    (acts : Acts packets last) : Credited (log ++ [observation]) ⟨packets, last⟩ := by
  refine ⟨?_, ?_, ?_, acts⟩
  · rw [decodedPackets_append, idle.undecoded, List.append_nil]
    exact credited.decoded
  · rw [admissions_append, idle.unadmitted, List.append_nil, same]
    exact credited.admitted
  · rw [admissions_append, idle.unadmitted, List.append_nil]
    exact credited.accounted

private theorem Credited.decoding (credited : Credited log ⟨packets, .reading⟩) (packet : MqttPacket) :
    Credited (log ++ [.decoded packet]) ⟨packets ++ [packet], .decided (answer packets packet)⟩ := by
  refine ⟨?_, ?_, ?_, ?_⟩
  · rw [decodedPackets_append, credited.decoded]
    rfl
  · have before := credited.admitted
    rw [show undelivered .reading = [] from rfl, List.append_nil] at before
    rw [admissions_append, show admissions [.decoded packet] = [] from rfl, List.append_nil, before, deliveries_snoc]
    cases answer packets packet <;> rfl
  · rw [admissions_append, show admissions [.decoded packet] = [] from rfl, List.append_nil]
    exact credited.accounted
  · cases decided : answer packets packet with
    | deliver publish => exact ⟨packets, packet, rfl, decided⟩
    | deliverThenReply publish reply => exact ⟨packets, packet, rfl, decided⟩
    | reply reply => exact ⟨packets, packet, rfl, .inl decided⟩
    | _ => trivial

private theorem Credited.admitting (credited : Credited log ⟨packets, .offering publish owed idleWait⟩)
    (accounted : ChannelUse.Accounted (.fromCodec publish) admission ledger)
    (nothing : undelivered stage = []) (acts : Acts packets stage) :
    Credited (log ++ [.admitted publish admission ledger]) ⟨packets, stage⟩ := by
  refine ⟨?_, ?_, ?_, acts⟩
  · rw [decodedPackets_append, credited.decoded]
    exact List.append_nil _
  · rw [admissions_append, List.map_append, nothing, List.append_nil]
    exact credited.admitted
  · intro entry member
    rw [admissions_append] at member
    rcases List.mem_append.mp member with early | late
    · exact credited.accounted entry early
    · rw [List.mem_singleton.mp late]
      exact accounted

/-- Step: admissions keep matching the packets decoded. -/
theorem Credited.step {after : Talk} (credited : Credited log talk)
    (step : talk.Step rmqtt version loop script observation after) : Credited (log ++ [observation]) after := by
  cases step with
  | mechanical talk mechanical => exact credited.idle (idle_mechanical mechanical) rfl credited.acts
  | decoded packets packet => exact credited.decoding packet
  | admitted packets publish owed idleWait accounted =>
    refine credited.admitting accounted (by cases owed <;> rfl) ?_
    cases owed with
    | none => trivial
    | some reply =>
      obtain ⟨front, last, split, decided⟩ := credited.acts
      exact ⟨front, last, split, .inr ⟨publish, decided⟩⟩
  | exhausted packets publish owed idleWait accounted => exact credited.admitting accounted rfl trivial
  | offered | awaitSlot | slotExpired => exact credited.idle ⟨rfl, rfl⟩ rfl credited.acts
  | idleClosed packets interruptible =>
    refine credited.idle ⟨rfl, rfl⟩ ?_ trivial
    cases interruptible <;> rfl
  | _ => exact credited.idle ⟨rfl, rfl⟩ rfl trivial

def Credits (log : List Observation) : Phase → Prop
  | .serving _ _ _ talk => Credited log talk
  | _ => decodedPackets log = [] ∧ admissions log = []

private theorem credits_unserved (unserved : phase.served = false) :
    Credits log phase = (decodedPackets log = [] ∧ admissions log = []) := by
  cases phase <;> first | rfl | cases unserved

private theorem decided_unserved (decision : ConnectDecision) : (Phase.decided config version script decision).served = false := by
  cases decision <;> rfl

theorem Credits.step {after : Phase} (credits : Credits log phase)
    (step : Step rmqtt config bytes phase observation after) : Credits (log ++ [observation]) after := by
  have keep (idle : Idle observation) (before : phase.served = false) (behind : after.served = false) :
      Credits (log ++ [observation]) after := by
    rw [credits_unserved before] at credits
    rw [credits_unserved behind, decodedPackets_append, admissions_append, idle.undecoded, idle.unadmitted, credits.1, credits.2]
    exact ⟨rfl, rfl⟩
  cases step with
  | mechanical phase mechanical unserved => exact keep (idle_mechanical mechanical) unserved unserved
  | awaitRead waiting => cases waiting <;> exact keep ⟨rfl, rfl⟩ rfl rfl
  | readExpired waiting => cases waiting <;> exact keep ⟨rfl, rfl⟩ rfl rfl
  | readFailed waiting => cases waiting <;> exact keep ⟨rfl, rfl⟩ rfl rfl
  | received => exact keep ⟨rfl, rfl⟩ rfl (decided_unserved _)
  | greeted =>
    refine ⟨?_, ?_, ?_, trivial⟩
    · rw [decodedPackets_append, credits.1]
      rfl
    · rw [admissions_append, credits.2]
      rfl
    · rw [admissions_append, credits.2]
      rintro _ ⟨⟩
  | served version loop script step => exact Credited.step credits step
  | _ => exact keep ⟨rfl, rfl⟩ rfl rfl

/-- Run: every admission of a session belongs to a packet it decoded. -/
theorem converses_credits (converses : Converses rmqtt config bytes log phase) : Credits log phase := by
  refine converses.invariant Credits (show Credits [] .probing from ⟨rfl, rfl⟩) ?_
  intro seen state observation after credits step
  exact credits.step step

def Configured (config : Config) : Phase → Prop
  | .accepting _ _ loop _ | .greeting _ loop _ | .serving _ loop _ _ => loop.ingestDeadline = config.ingestDeadline
  | _ => True

private theorem converses_configured (converses : Converses rmqtt config bytes log phase) :
    Configured config phase := by
  refine converses.invariant (fun _ phase => Configured config phase) (show Configured config .probing from trivial) ?_
  intro seen state observation after configured step
  cases step with
  | received version packet script =>
    cases evaluateConnect rmqtt packet config.idleTimeoutSecs config.peerAddr config.maxInboundPacketSize <;>
      first | exact rfl | trivial
  | mechanical | awaitRead | accepted | greeted | served => exact configured
  | _ => trivial

/-! ### What an acknowledgement stands for -/

/-- The session accounted for the PUBLISH delivered behind the packets `earlier`: its
own offer put it into the channel, counted it as dropped, or found the receiver gone. -/
def AccountedFor (log : List Observation) (earlier : List MqttPacket) (publish : CodecPublish) : Prop :=
  ∃ admission ledger, (admissions log)[(deliveries earlier).length]? = some (publish, admission, ledger) ∧
    ChannelUse.Accounted (.fromCodec publish) admission ledger

private theorem deliveries_cut (earlier later : List MqttPacket) (packet : MqttPacket)
    (delivers : delivered (answer earlier packet) = some publish) :
    ∃ rest, deliveries (earlier ++ packet :: later) = deliveries earlier ++ publish :: rest := by
  rw [answer, stateAfter] at delivers
  simp only [deliveries, dispatchRun_append, dispatchRun, List.filterMap_append, List.filterMap_cons, delivers]
  exact ⟨_, rfl⟩

private theorem Credited.accountedFor (credited : Credited log talk) (settled : undelivered talk.stage = [])
    {earlier later : List MqttPacket}
    (split : talk.packets = earlier ++ packet :: later) (delivers : delivered (answer earlier packet) = some publish) :
    AccountedFor log earlier publish := by
  obtain ⟨rest, whole⟩ := deliveries_cut earlier later packet delivers
  have admitted := credited.admitted
  rw [settled, List.append_nil, split, whole] at admitted
  have found : ((admissions log).map Prod.fst)[(deliveries earlier).length]? = some publish := by
    rw [admitted]
    simp
  rw [List.getElem?_map, Option.map_eq_some_iff] at found
  obtain ⟨⟨_, admission, ledger⟩, found, rfl⟩ := found
  exact ⟨admission, ledger, found, credited.accounted _ (List.mem_of_getElem? found)⟩

/-- The acknowledgement handed over behind `before` answers for a PUBLISH that was
accounted for: the packet decoded last or, if that one is a repeat at QoS 2, the
receipt of its id that is still outstanding. -/
inductive Vouched (before : List Observation) (version : ProtocolVersion) (id : NonZeroU16) (packet : MqttPacket) : Prop
  | own {earlier : List MqttPacket} {last : MqttPacket} {publish : CodecPublish} {reply : Reply}
      (decoded : decodedPackets before = earlier ++ [last]) (carries : Carries last publish)
      (packetId : publish.packetId = some id) (delivers : answer earlier last = .deliverThenReply publish reply)
      (renders : packet = reply.render version) (accounted : AccountedFor before earlier publish)
  | again {earlier between : List MqttPacket} {first last : MqttPacket} {publish repeated : CodecPublish}
      (decoded : decodedPackets before = earlier ++ first :: (between ++ [last])) (receipt : Receipt first publish id)
      (repeats : Receipt last repeated id) (unreleased : ∀ passed ∈ between, ¬Release passed id)
      (delivers : answer earlier first = .deliverThenReply publish (.publishReceived id))
      (renders : packet = (Reply.publishReceived id).render version) (accounted : AccountedFor before earlier publish)

private theorem Credited.vouched {reply : Reply}
    (credited : Credited log ⟨packets, .replying reply⟩) (acks : acknowledges reply = some id) (version : ProtocolVersion) :
    Vouched log version id (reply.render version) := by
  obtain ⟨front, last, split, decided⟩ := credited.acts
  have decoded := credited.decoded.trans split
  have classified := answer_classified front last
  rcases decided with replies | ⟨publish, delivers⟩
  · rw [replies] at classified
    cases classified with
    | again repeated other repeats held =>
      obtain rfl := Option.some.inj acks
      obtain ⟨earlier, first, between, publish, rfl, delivers, receipt, unreleased⟩ := outstanding_first held
      rw [List.append_assoc, List.cons_append] at decoded split
      exact .again decoded receipt repeats unreleased delivers rfl (credited.accountedFor rfl split (by rw [delivers]; rfl))
    | other _ unacknowledged =>
      cases acks.symm.trans unacknowledged
  · have accounted := credited.accountedFor rfl split (by rw [delivers]; rfl)
    rw [delivers] at classified
    cases classified with
    | first publish other carries qos packetId =>
      obtain rfl := Option.some.inj acks
      exact .own decoded carries packetId delivers rfl accounted
    | receipt publish other receipt =>
      obtain rfl := Option.some.inj acks
      exact .own decoded receipt.carried receipt.packetId delivers rfl accounted
    | other undelivered => cases undelivered

private theorem acknowledged_vouched (converses : Converses rmqtt config bytes (before ++ .sent version packet :: after) phase)
    (acks : acknowledged packet = some id) : Vouched before version id packet := by
  obtain ⟨earlier, later, run, step, _⟩ := converses.cut_at
  have role := role_of_acknowledged acks
  have spoken := converses_spoken run
  have credits := converses_credits run
  cases step with
  | mechanical _ mechanical => exact mechanical.elim
  | refused => cases role.symm.trans (spoken.2 _ _ rfl)
  | accepted => cases role.symm.trans spoken.2
  | served version loop script step =>
    cases step with
    | mechanical _ mechanical => exact mechanical.elim
    | replied packets =>
      rw [acknowledged_render] at acks
      exact Credited.vouched credits acks _
    | disconnected packets fits => cases role.symm.trans (disconnect_sendable fits).1

private theorem offered_classified (converses : Converses rmqtt config bytes (before ++ .offered publish idleWait :: after) phase) :
    ∃ front last, decodedPackets before = front ++ [last] ∧
      (answer front last = .deliver publish ∨ ∃ reply, answer front last = .deliverThenReply publish reply) := by
  obtain ⟨earlier, later, run, step, _⟩ := converses.cut_at
  have credits := converses_credits run
  cases step with
  | mechanical _ mechanical => exact mechanical.elim
  | served version loop script step =>
    cases step with
    | mechanical _ mechanical => exact mechanical.elim
    | offered packets publish owed =>
      obtain ⟨front, last, split, decided⟩ := Credited.acts credits
      refine ⟨front, last, (Credited.decoded credits).trans split, ?_⟩
      cases owed with
      | none => exact .inl decided
      | some reply => exact .inr ⟨reply, decided⟩

/-! ### Offers that use up the idle budget -/

private theorem starved_over (run : Runs (Talk.Step rmqtt version loop script) ⟨packets, .starved owed⟩ log last) :
    log = [] ∧ last.stage = .starved owed ∨ log = [.idleClosed] ∧ last.stage = .idled := by
  refine run.invariant (fun log talk => log = [] ∧ talk.stage = .starved owed ∨ log = [.idleClosed] ∧ talk.stage = .idled)
    (.inl ⟨rfl, rfl⟩) ?_
  rintro seen ⟨packets, stage⟩ observation after (⟨rfl, rfl⟩ | ⟨rfl, rfl⟩) step
  · cases step with
    | mechanical _ _ unspent => cases unspent
    | idleClosed => exact .inr ⟨rfl, rfl⟩
  · cases step with
    | mechanical _ _ unspent => cases unspent
    | idleClosed _ interruptible => cases interruptible

private theorem offering_same (run : Runs (Talk.Step rmqtt version loop script) ⟨packets, .offering publish owed idleWait⟩ log last)
    (alone : ∀ other wait, .offered other wait ∉ log) {other : CodecPublish} {reply : Option Reply} {wait : Nat}
    (offering : last.stage = .offering other reply wait) : wait = idleWait := by
  revert other reply wait
  refine run.invariant (fun log talk => (∀ other wait, .offered other wait ∉ log) →
    ∀ {other reply wait}, talk.stage = .offering other reply wait → wait = idleWait) ?_ ?_ alone
  · rintro _ other reply wait ⟨⟩
    rfl
  · rintro seen talk observation after held step alone other reply wait offering
    have before : ∀ other wait, .offered other wait ∉ seen := fun other wait member =>
      alone other wait (List.mem_append_left _ member)
    cases step with
    | mechanical => exact held before offering
    | awaitSlot | slotExpired =>
      cases offering
      exact held before rfl
    | offered packets publish owed wait => exact absurd (by simp) (alone publish wait)
    | decoded packets packet =>
      revert offering
      cases answer packets packet <;> rintro ⟨⟩
    | admitted packets publish owed =>
      revert offering
      cases owed <;> rintro ⟨⟩
    | _ => cases offering

private theorem concludes_spent (concludes : Concludes result log (.serving version loop script last)) (spent : last.stage.spent = true) :
    result = .ok .served ∧ last.stage = .idled := by
  have reports : Reports result last.stage := by
    cases concludes with
    | settled fits => exact .settled fits
    | stopped _ _ unserved => cases unserved
    | served _ _ _ reports => exact reports
  rcases last with ⟨packets, stage⟩
  cases stage with
  | idled =>
    cases reports with
    | settled fits => exact ⟨(Option.some.inj fits).symm, rfl⟩
    | stopped _ _ unspent => cases unspent
  | starved owed =>
    cases reports with
    | settled fits => cases fits
    | stopped _ _ unspent => cases unspent
  | _ => cases spent

private theorem exhausted_ends {middle : List Observation} (converses : Converses rmqtt config bytes
      (before ++ .offered publish idleWait :: (middle ++ .admitted publish admission ledger :: after)) phase)
    (concludes : Concludes result log phase) (alone : ∀ other wait, .offered other wait ∉ middle)
    (exhausted : exhausts config.ingestDeadline idleWait admission = true) :
    result = .ok .served ∧ after = [.idleClosed] := by
  obtain ⟨earlier, offering, early, offers, rest⟩ := converses.cut_at
  obtain ⟨earlier', admitting, held, admits, behind⟩ := rest.cut_at
  have configured := converses_configured early
  cases offers with
  | mechanical _ mechanical => exact mechanical.elim
  | served version loop script offers =>
    cases offers with
    | mechanical _ mechanical => exact mechanical.elim
    | offered packets publish owed =>
      obtain ⟨talk, rfl, waiting⟩ := serving_talks held
      cases admits with
      | mechanical _ mechanical => exact mechanical.elim
      | served _ _ _ admits =>
        obtain ⟨last, rfl, closing⟩ := serving_talks behind
        cases admits with
        | mechanical _ mechanical => exact mechanical.elim
        | admitted packets publish owed wait accounted goesOn =>
          rw [offering_same waiting alone rfl, show loop.ingestDeadline = _ from configured, exhausted] at goesOn
          cases goesOn
        | exhausted packets publish owed =>
          rcases starved_over closing with ⟨_, starved⟩ | ⟨ended, idled⟩
          · have closed := concludes_spent concludes (by rw [starved]; rfl)
            cases starved.symm.trans closed.2
          · exact ⟨(concludes_spent concludes (by rw [idled]; rfl)).1, ended⟩

end

variable {rmqtt : Rmqtt} {sync : LocalSync} {view : sync.Room → Semaphore Nat}

/-- No silent loss behind an acknowledgement. A PUBACK or PUBREC is handed over only
behind the admission of the PUBLISH it answers for, which put it into the channel,
counted it or found the receiver gone. An admission that came too late, or was dropped
on a wait the idle budget cut short, ends the session as `Served` with nothing written
behind it. Only what `dispatch` wants delivered is ever offered: no violation, and no
repeat at QoS 2. -/
theorem no_silent_loss (framing : rmqtt.LawfulFraming) (lawful : sync.Lawful view) (scenario : Scenario) :
    (∀ before version packet after id, scenario.log rmqtt sync = before ++ .sent version packet :: after →
      acknowledged packet = some id → Vouched before version id packet) ∧
    (∀ before publish idleWait middle admission ledger after,
      scenario.log rmqtt sync = before ++ .offered publish idleWait :: (middle ++ .admitted publish admission ledger :: after) →
      (∀ other wait, .offered other wait ∉ middle) →
      (admission = .noReplyTime ∨ admission = .dropped ∧ idleWait < scenario.config.ingestDeadline) →
      scenario.answer rmqtt sync = .ok .served ∧ after = [.idleClosed]) ∧
    ∀ before publish idleWait after, scenario.log rmqtt sync = before ++ .offered publish idleWait :: after →
      ∃ front last, decodedPackets before = front ++ [last] ∧
        (answer front last = .deliver publish ∨ ∃ reply, answer front last = .deliverThenReply publish reply) := by
  obtain ⟨phase, final⟩ := scenario.final lawful framing
  have converses := final.converses
  refine ⟨?_, ?_, ?_⟩
  · intro before version packet after id split acks
    rw [split] at converses
    exact acknowledged_vouched converses acks
  · intro before publish idleWait middle admission ledger after split alone cut
    rw [split] at converses
    refine exhausted_ends converses final.concludes alone ?_
    rcases cut with rfl | ⟨rfl, short⟩
    · rfl
    · exact decide_eq_true short
  · intro before publish idleWait after split
    rw [split] at converses
    exact offered_classified converses

open Fixtures

def publisher : Scenario := .prompt [⟨v3ConnectTest ++ publishQos1T, List.cons_ne_nil _ _⟩]

theorem no_silent_loss_publisher :
    ∃ before after, publisher.log codec .fifo = before ++ .sent .mqtt3 (.v3 (.publishAck idOne)) :: after ∧
      Vouched before .mqtt3 idOne (.v3 (.publishAck idOne)) := by
  have sent : .sent .mqtt3 (.v3 (.publishAck idOne)) ∈ publisher.log codec .fifo := by decide +kernel
  obtain ⟨before, after, split⟩ := List.append_of_mem sent
  exact ⟨before, after, split, (no_silent_loss codec_lawful LocalSync.fifo_lawful publisher).1 _ _ _ _ _ split rfl⟩

end UringMqtt.Proofs.Acknowledgement

import UringMqtt.Proofs.Outgoing
import UringMqtt.Proofs.Session

/-! What a session sends, what it delivers and what it returns, read off its log.
Each of the three is an invariant of the conversation: one lemma for a step, and
from it every run. -/

namespace UringMqtt.Proofs.SessionGrammar
open Lib Outbox Outgoing Conversation PacketLoop Session

/-! ### The packets of a session -/

def rolesOf (log : List Observation) : List Role :=
  log.filterMap fun
    | .sent _ packet => some (roleOf packet)
    | _ => none

/-- Nothing; or one CONNACK, and behind one that accepts only replies and at most one
DISCONNECT, which is last. -/
inductive Grammar : List Role → Prop
  | silent : Grammar []
  | refused : Grammar [.refuse]
  | served (replies : Nat) : Grammar (.accept :: List.replicate replies .reply)
  | parted (replies : Nat) : Grammar (.accept :: (List.replicate replies .reply ++ [.disconnect]))

def farewell : Stage → List Role
  | .parted _ => [.disconnect]
  | _ => []

def Spoken (roles : List Role) : Phase → Prop
  | .probing | .connecting _ | .failed _ => roles = []
  | .refusing offer => roles = [] ∧ ∀ version connack, offer = some (version, connack) → roleOf connack = .refuse
  | .refused => roles = [.refuse]
  | .accepting _ connack _ _ => roles = [] ∧ roleOf connack = .accept
  | .greeting .. => roles = [.accept]
  | .serving _ _ _ talk => ∃ replies, roles = .accept :: (List.replicate replies .reply ++ farewell talk.stage)

section
variable {rmqtt : Rmqtt} {config : Config} {bytes : Bytes} {version : ProtocolVersion} {loop : LoopConfig} {script : Script}

@[simp] theorem rolesOf_append (first second : List Observation) :
    rolesOf (first ++ second) = rolesOf first ++ rolesOf second := by
  simp [rolesOf]

variable {observation : Observation} {phase : Phase} {roles : List Role} {log before after : List Observation}

theorem rolesOf_mechanical (mechanical : Mechanical observation) :
    rolesOf [observation] = [] := by
  cases observation <;> first | rfl | cases mechanical

private theorem farewell_owing (owed : Option Reply) : farewell (.owing owed) = [] := by
  cases owed <;> rfl

private theorem farewell_decided (disposition : Disposition) : farewell (.decided disposition) = [] := by
  cases disposition <;> rfl

/-- Step: the packet loop adds a reply, its last word, or nothing. -/
private theorem talk_spoken {talk after : Talk} (step : talk.Step rmqtt version loop script observation after) (replies : Nat) :
    ∃ more, .accept :: (List.replicate replies .reply ++ farewell talk.stage) ++ rolesOf [observation] =
      .accept :: (List.replicate more .reply ++ farewell after.stage) := by
  cases step with
  | mechanical talk mechanical =>
    refine ⟨replies, ?_⟩
    rw [rolesOf_mechanical mechanical, List.append_nil]
  | decoded packets packet =>
    refine ⟨replies, ?_⟩
    rw [farewell_decided]
    simp [farewell, rolesOf]
  | admitted packets publish owed =>
    refine ⟨replies, ?_⟩
    rw [farewell_owing]
    simp [farewell, rolesOf]
  | idleClosed packets interruptible =>
    refine ⟨replies, ?_⟩
    cases interruptible <;> simp [farewell, rolesOf]
  | @replied packets reply =>
    refine ⟨replies + 1, ?_⟩
    simp [farewell, rolesOf, render_role, List.replicate_succ']
  | disconnected packets fits =>
    refine ⟨replies, ?_⟩
    simp [farewell, rolesOf, (disconnect_sendable fits).1]
  | _ => exact ⟨replies, by simp [farewell, rolesOf]⟩

/-- Step: the session speaks as its next phase says. -/
theorem Spoken.step {after : Phase} (spoken : Spoken roles phase)
    (step : Step rmqtt config bytes phase observation after) : Spoken (roles ++ rolesOf [observation]) after := by
  cases step with
  | mechanical phase mechanical =>
    rw [rolesOf_mechanical mechanical, List.append_nil]
    exact spoken
  | awaitRead waiting =>
    rw [show rolesOf [.awaitRead _ _] = [] from rfl, List.append_nil]
    exact spoken
  | readExpired waiting => cases waiting <;> simpa [Spoken, rolesOf] using spoken
  | readFailed waiting => cases waiting <;> simpa [Spoken, rolesOf] using spoken
  | unsupported =>
    refine ⟨by simpa [Spoken, rolesOf] using spoken, ?_⟩
    rintro version connack ⟨⟩
    rfl
  | clientId version =>
    refine ⟨by simpa [Spoken, rolesOf] using spoken, ?_⟩
    rintro version connack ⟨⟩
    exact refusedClientId_role config version
  | received version packet script =>
    have silent : roles ++ rolesOf [.received packet] = [] := by simpa [Spoken, rolesOf] using spoken
    have evaluates := @evaluateConnect_evaluates rmqtt packet config.idleTimeoutSecs config.peerAddr config.maxInboundPacketSize
    generalize evaluateConnect rmqtt packet config.idleTimeoutSecs config.peerAddr config.maxInboundPacketSize = decision
      at evaluates ⊢
    rw [silent]
    cases evaluates with
    | accept clientId keepAliveSecs idleTimeout speaks role => exact ⟨rfl, role⟩
    | refuse speaks role =>
      refine ⟨rfl, ?_⟩
      intro version connack offer
      split at offer
      · cases offer
        exact role
      · cases offer
    | refusePersistentSession => exact ⟨rfl, by rintro _ _ ⟨⟩⟩
    | notConnect => rfl
  | refused version connack =>
    obtain ⟨rfl, role⟩ := spoken
    rw [Spoken, List.nil_append, rolesOf, ← role version connack rfl]
    rfl
  | accepted version connack =>
    obtain ⟨rfl, role⟩ := spoken
    rw [Spoken, List.nil_append, rolesOf, ← role]
    rfl
  | greeted => exact ⟨0, by simpa [Spoken, rolesOf, farewell] using spoken⟩
  | served version loop script step =>
    obtain ⟨replies, rfl⟩ := spoken
    exact talk_spoken step replies
  | _ => simpa [Spoken, rolesOf] using spoken

/-- Run: whatever happens, a session speaks as its phase says. -/
theorem converses_spoken (converses : Converses rmqtt config bytes log phase) :
    Spoken (rolesOf log) phase := by
  refine converses.invariant (fun log phase => Spoken (rolesOf log) phase) (show Spoken [] .probing from rfl) ?_
  intro seen state observation after spoken step
  rw [rolesOf_append]
  exact spoken.step step

theorem Spoken.grammar (spoken : Spoken roles phase) : Grammar roles := by
  cases phase with
  | probing | connecting | failed =>
    rw [show roles = [] from spoken]
    exact .silent
  | refusing | accepting =>
    rw [spoken.1]
    exact .silent
  | refused =>
    rw [show roles = _ from spoken]
    exact .refused
  | greeting =>
    rw [show roles = _ from spoken]
    exact .served 0
  | serving version loop script talk =>
    obtain ⟨replies, rfl⟩ := spoken
    cases talk.stage with
    | parted => exact .parted replies
    | _ => simpa only [farewell, List.append_nil] using Grammar.served replies

/-! ### What is delivered -/

def Touches : Observation → Bool
  | .offered .. | .admitted .. => true
  | _ => false

/-- An accepting CONNACK was handed over, and a flush behind it went through. -/
def Welcomed (log : List Observation) : Prop :=
  ∃ version connack early middle late,
    log = early ++ .sent version connack :: (middle ++ .flushed :: late) ∧ roleOf connack = .accept

/-- The same, with every byte up to the end of that CONNACK on the wire. -/
def Greeted (rmqtt : Rmqtt) (log : List Observation) : Prop :=
  ∃ version connack early middle late,
    log = early ++ .sent version connack :: (middle ++ .flushed :: late) ∧ roleOf connack = .accept ∧
      sentBytes rmqtt (early ++ [.sent version connack]) <+: wroteBytes (early ++ .sent version connack :: middle)

theorem welcomed_greeted (clean : CleanLog rmqtt (before ++ after)) (welcomed : Welcomed before) : Greeted rmqtt before := by
  obtain ⟨version, connack, early, middle, late, rfl, role⟩ := welcomed
  refine ⟨version, connack, early, middle, late, rfl, role, ?_⟩
  have flushed := clean (early ++ .sent version connack :: middle) .flushed (late ++ after) (by simp)
  have front : early ++ .sent version connack :: middle = (early ++ [.sent version connack]) ++ middle := by simp
  rw [show wroteBytes (early ++ .sent version connack :: middle) = _ from flushed, front, sentBytes_append _ middle]
  exact List.prefix_append _ _

def Greets (log : List Observation) : Phase → Prop
  | .accepting _ connack _ _ => roleOf connack = .accept
  | .greeting .. =>
    ∃ version connack early middle, log = early ++ .sent version connack :: middle ∧ roleOf connack = .accept
  | .serving .. => Welcomed log
  | _ => True

private theorem Greets.mono {log : List Observation} {phase : Phase} (greets : Greets log phase) (observation : Observation) :
    Greets (log ++ [observation]) phase := by
  cases phase with
  | greeting =>
    obtain ⟨version, connack, early, middle, rfl, role⟩ := greets
    exact ⟨version, connack, early, middle ++ [observation], by simp, role⟩
  | serving =>
    obtain ⟨version, connack, early, middle, late, rfl, role⟩ := greets
    exact ⟨version, connack, early, middle, late ++ [observation], by simp, role⟩
  | _ => exact greets

theorem Greets.step {after : Phase} (greets : Greets log phase)
    (step : Step rmqtt config bytes phase observation after) : Greets (log ++ [observation]) after := by
  cases step with
  | mechanical | awaitRead => exact greets.mono _
  | received version packet script =>
    have evaluates := @evaluateConnect_evaluates rmqtt packet config.idleTimeoutSecs config.peerAddr config.maxInboundPacketSize
    generalize evaluateConnect rmqtt packet config.idleTimeoutSecs config.peerAddr config.maxInboundPacketSize = decision
      at evaluates ⊢
    cases evaluates with
    | accept clientId keepAliveSecs idleTimeout speaks role => exact role
    | _ => trivial
  | accepted version connack => exact ⟨version, connack, log, [], rfl, greets⟩
  | greeted =>
    obtain ⟨version, connack, early, middle, rfl, role⟩ := greets
    exact ⟨version, connack, early, middle, [], by simp, role⟩
  | served version loop script => exact @Greets.mono log (.serving version loop script _) greets _
  | _ => trivial

theorem converses_greets (converses : Converses rmqtt config bytes log phase) :
    Greets log phase := by
  refine converses.invariant Greets (show Greets [] .probing from trivial) ?_
  intro seen state observation after greets step
  exact greets.step step

private theorem touches_serving {after : Phase}
    (step : Step rmqtt config bytes phase observation after) (touches : Touches observation = true) :
    ∃ version loop script talk, phase = .serving version loop script talk := by
  cases step with
  | served version loop script => exact ⟨_, _, _, _, rfl⟩
  | mechanical phase mechanical => cases observation <;> first | exact mechanical.elim | cases touches
  | _ => cases touches

private theorem touches_greeted (converses : Converses rmqtt config bytes log phase) (clean : CleanLog rmqtt log)
    (split : log = before ++ observation :: after) (touches : Touches observation = true) : Greeted rmqtt before := by
  subst split
  obtain ⟨earlier, later, early, step, _⟩ := converses.cut_at
  obtain ⟨version, loop, script, talk, rfl⟩ := touches_serving step touches
  exact welcomed_greeted clean (converses_greets early)

/-! ### What is returned -/

def heard (log : List Observation) : List Observation :=
  log.filter fun
    | .probed _ | .received _ | .readEnded _ => true
    | _ => false

/-- Whether these reads end in a refused CONNECT. -/
def refusesConnect (rmqtt : Rmqtt) (config : Config) : List Observation → Bool
  | [.readEnded (some (.decode .unsupportedProtocolLevel))] => true
  | [.probed _, .readEnded (some (.decode .invalidClientId))] => true
  | [.probed _, .received packet] =>
    match evaluateConnect rmqtt packet config.idleTimeoutSecs config.peerAddr config.maxInboundPacketSize with
    | .refuse .. | .refusePersistentSession => true
    | _ => false
  | _ => false

def Recorded (rmqtt : Rmqtt) (config : Config) (reads : List Observation) : Phase → Prop
  | .probing => reads = []
  | .connecting version => reads = [.probed version]
  | .refusing _ | .refused => refusesConnect rmqtt config reads = true
  | .accepting .. | .greeting .. | .serving .. =>
    ∃ version packet rest connack clientId keepAliveSecs idleTimeout maxPacketSize,
      reads = .probed version :: .received packet :: rest ∧
        evaluateConnect rmqtt packet config.idleTimeoutSecs config.peerAddr config.maxInboundPacketSize =
          .accept connack clientId keepAliveSecs idleTimeout maxPacketSize
  | .failed _ => refusesConnect rmqtt config reads = false

@[simp] theorem heard_append (first second : List Observation) : heard (first ++ second) = heard first ++ heard second := by
  simp [heard]

private theorem heard_mechanical (mechanical : Mechanical observation) : heard [observation] = [] := by
  cases observation <;> first | rfl | cases mechanical

private theorem refusesConnect_probe {error : DecodeError} (other : error ≠ .unsupportedProtocolLevel) :
    refusesConnect rmqtt config [.readEnded (some (.decode error))] = false := by
  cases error <;> first | rfl | exact absurd rfl other

private theorem refusesConnect_read {error : IoError} (other : error.decodeError ≠ some .invalidClientId) :
    refusesConnect rmqtt config [.probed version, .readEnded (some error)] = false := by
  rcases error with error | _ | _ | _ | _
  · cases error <;> first | rfl | exact absurd rfl other
  all_goals rfl

/-- Step: what was heard is what the next phase says. -/
theorem Recorded.step {after : Phase} {reads : List Observation}
    (recorded : Recorded rmqtt config reads phase) (step : Step rmqtt config bytes phase observation after) :
    Recorded rmqtt config (reads ++ heard [observation]) after := by
  cases step with
  | mechanical phase mechanical =>
    rw [heard_mechanical mechanical, List.append_nil]
    exact recorded
  | awaitRead waiting =>
    rw [show heard [.awaitRead _ _] = [] from rfl, List.append_nil]
    exact recorded
  | readExpired waiting =>
    cases waiting with
    | probing =>
      rw [show reads = [] from recorded]
      rfl
    | connecting version =>
      rw [show reads = [.probed version] from recorded]
      rfl
  | readFailed waiting =>
    cases waiting with
    | probing =>
      rw [show reads = [] from recorded]
      rfl
    | connecting version =>
      rw [show reads = [.probed version] from recorded]
      rfl
  | probed | unsupported | unfinished | unopened =>
    rw [show reads = [] from recorded]
    rfl
  | unprobed other =>
    rw [show reads = [] from recorded]
    exact refusesConnect_probe other
  | clientId version | ended version =>
    rw [show reads = [.probed version] from recorded]
    rfl
  | unconnected version other =>
    rw [show reads = [.probed version] from recorded]
    exact refusesConnect_read other
  | received version packet script =>
    rw [show reads = [.probed version] from recorded]
    change Recorded rmqtt config [.probed version, .received packet] _
    cases decided : evaluateConnect rmqtt packet config.idleTimeoutSecs config.peerAddr config.maxInboundPacketSize with
    | accept connack clientId keepAliveSecs idleTimeout maxPacketSize =>
      exact ⟨version, packet, [], connack, clientId, keepAliveSecs, idleTimeout, maxPacketSize, rfl, decided⟩
    | _ => simp [Recorded, Phase.decided, refusesConnect, decided]
  | refused | accepted | greeted =>
    rw [show heard [_] = [] from rfl, List.append_nil]
    exact recorded
  | served =>
    obtain ⟨version, packet, rest, connack, clientId, keepAliveSecs, idleTimeout, maxPacketSize, rfl, decided⟩ := recorded
    exact ⟨version, packet, _, connack, clientId, keepAliveSecs, idleTimeout, maxPacketSize, rfl, decided⟩

private theorem converses_recorded (converses : Converses rmqtt config bytes log phase) :
    Recorded rmqtt config (heard log) phase := by
  refine converses.invariant (fun log phase => Recorded rmqtt config (heard log) phase)
    (show Recorded rmqtt config [] .probing from rfl) ?_
  intro seen state observation after recorded step
  rw [heard_append]
  exact recorded.step step

private theorem verdict_not_refused {stage : Stage} : verdict stage ≠ some (.ok .refused) := by
  intro fits
  cases stage with
  | broken error =>
    rw [verdict] at fits
    split at fits <;> cases fits
  | _ => cases fits

private theorem concludes_refused (concludes : Concludes (.ok .refused) log phase)
    (recorded : Recorded rmqtt config (heard log) phase) : refusesConnect rmqtt config (heard log) = true ∧ Quiet log := by
  cases concludes with
  | settled fits quiet =>
    cases phase with
    | refusing | refused => exact ⟨recorded, quiet⟩
    | serving version loop script talk => exact absurd fits verdict_not_refused
    | _ => cases fits
  | stopped stop failed => cases failed
  | served version loop script reports =>
    cases reports with
    | settled fits => exact absurd fits verdict_not_refused
    | stopped stop failed => cases failed

private theorem concludes_violation (concludes : Concludes (.ok .violation) log phase) :
    ∃ version loop script talk, phase = .serving version loop script talk := by
  cases concludes with
  | settled fits =>
    cases phase with
    | serving version loop script talk => exact ⟨_, _, _, _, rfl⟩
    | refusing connack => cases connack <;> cases fits
    | _ => cases fits
  | stopped stop failed => cases failed
  | served version loop script => exact ⟨_, _, _, _, rfl⟩

private theorem outcome_refused {result : Except Stop SessionOutcome}
    (fits : outcome phase = some result) (recorded : Recorded rmqtt config (heard log) phase)
    (refuses : refusesConnect rmqtt config (heard log) = true) : result = .ok .refused := by
  cases phase with
  | refusing connack =>
    cases connack with
    | none => exact (Option.some.inj fits).symm
    | some => cases fits
  | refused => exact (Option.some.inj fits).symm
  | failed error =>
    rw [show refusesConnect rmqtt config (heard log) = false from recorded] at refuses
    cases refuses
  | serving version loop script talk =>
    obtain ⟨version, packet, rest, connack, clientId, keepAliveSecs, idleTimeout, maxPacketSize, reads, decided⟩ := recorded
    rw [reads] at refuses
    cases rest with
    | nil => simp [refusesConnect, decided] at refuses
    | cons => simp [refusesConnect] at refuses
  | _ => cases fits

end

variable {rmqtt : Rmqtt} {sync : LocalSync} {view : sync.Room → Semaphore Nat}

/-- A session writes one CONNACK at most and nothing before it; behind one that
accepts come only replies and at most one DISCONNECT, which is last. Nothing is
offered to the event channel before an accepting CONNACK was flushed. A session
returns `Refused` exactly if its CONNECT was refused and no write failed, and
`Violation` only behind an accepting CONNACK. -/
theorem session_grammar (framing : rmqtt.LawfulFraming) (lawful : sync.Lawful view) (scenario : Scenario) :
    (Grammar (rolesOf (scenario.log rmqtt sync)) ∧
      scenario.written rmqtt sync <+: sentBytes rmqtt (scenario.log rmqtt sync)) ∧
    (∀ before observation after, scenario.log rmqtt sync = before ++ observation :: after →
      Touches observation = true → Greeted rmqtt before) ∧
    (scenario.answer rmqtt sync = .ok .refused ↔ returned (scenario.answer rmqtt sync) = true ∧
      refusesConnect rmqtt scenario.config (heard (scenario.log rmqtt sync)) = true ∧ Quiet (scenario.log rmqtt sync)) ∧
    (scenario.answer rmqtt sync = .ok .violation → Greeted rmqtt (scenario.log rmqtt sync)) := by
  obtain ⟨phase, final⟩ := scenario.final lawful framing
  have recorded := converses_recorded final.converses
  refine ⟨⟨(converses_spoken final.converses).grammar, ?_⟩, ?_, ⟨?_, ?_⟩, ?_⟩
  · have written : scenario.written rmqtt sync = wroteBytes (scenario.log rmqtt sync) := final.safe.written
    rw [written]
    exact final.safe.sent
  · intro before observation after split touches
    exact touches_greeted final.converses final.safe.waits split touches
  · intro refused
    have concludes := final.concludes
    rw [refused] at concludes ⊢
    exact ⟨rfl, concludes_refused concludes recorded⟩
  · rintro ⟨back, refuses, quiet⟩
    exact outcome_refused (final.settled back quiet) recorded refuses
  · intro violation
    have concludes := final.concludes
    rw [violation] at concludes
    obtain ⟨version, loop, script, talk, rfl⟩ := concludes_violation concludes
    have clean := final.safe.waits
    rw [← List.append_nil (scenario.log rmqtt sync)] at clean
    exact welcomed_greeted clean (converses_greets final.converses)

open Fixtures

def persistentClient : Scenario := .prompt [⟨v3ConnectPersistent ++ publishQos1T, List.cons_ne_nil _ _⟩]

theorem session_grammar_persistent :
    persistentClient.answer codec .fifo = .ok .refused ∧
    refusesConnect codec persistentClient.config (heard (persistentClient.log codec .fifo)) = true ∧
    Grammar (rolesOf (persistentClient.log codec .fifo)) ∧
    ∀ observation ∈ persistentClient.log codec .fifo, Touches observation = false := by
  obtain ⟨⟨grammar, _⟩, _, refused, _⟩ := session_grammar codec_lawful LocalSync.fifo_lawful persistentClient
  have answered : persistentClient.answer codec .fifo = .ok .refused := by decide +kernel
  exact ⟨answered, (refused.mp answered).2.1, grammar, by decide +kernel⟩

end UringMqtt.Proofs.SessionGrammar

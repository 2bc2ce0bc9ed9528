import UringMqtt.Proofs.Acknowledgement
import UringMqtt.Proofs.WorkerQueue

/-! The event processor receives the publishes of a connection in wire order. A
session offers one publish at a time, and what it enqueued leaves the queue in the
order it went in, whatever the other sessions do. -/

namespace UringMqtt.Proofs.DeliveryOrder
open Lib Conversation Acknowledgement Session WorkerQueue WorkerRun

/-! ### One session reads the wire in order -/

section
variable {rmqtt : Rmqtt} {config : Config} {bytes : Bytes}

def Probed (rmqtt : Rmqtt) (config : Config) (bytes : Bytes) (version : ProtocolVersion) : Prop :=
  ∃ seen, seen <+: bytes ∧ probe rmqtt config seen = .ok (some version)

def Sent (rmqtt : Rmqtt) (config : Config) (bytes : Bytes) (version : ProtocolVersion) (script : Script) : Prop :=
  Probed rmqtt config bytes version ∧ ∃ connect, scriptOf rmqtt config bytes version = (connect :: script.1, script.2)

def OnWire (rmqtt : Rmqtt) (config : Config) (bytes : Bytes) : Phase → Prop
  | .connecting version => Probed rmqtt config bytes version
  | .accepting version _ _ script | .greeting version _ script => Sent rmqtt config bytes version script
  | .serving version _ script talk => Sent rmqtt config bytes version script ∧ talk.packets <+: script.1
  | _ => True

private theorem talk_onWire {version : ProtocolVersion} {loop : LoopConfig} {script : Script} {talk after : Talk}
    {observation : Observation} (wire : talk.packets <+: script.1)
    (step : talk.Step rmqtt version loop script observation after) : after.packets <+: script.1 := by
  cases step with
  | decoded packets packet next => exact next
  | _ => exact wire

private theorem onWire_step (looks : rmqtt.ProbeLooks) {phase after : Phase} {observation : Observation}
    (wire : OnWire rmqtt config bytes phase) (step : Conversation.Step rmqtt config bytes phase observation after) :
    OnWire rmqtt config bytes after := by
  cases step with
  | mechanical | awaitRead | accepted => exact wire
  | probed version probed => exact probed looks
  | received version packet script parsed =>
    cases evaluateConnect _ _ _ _ _ with
    | accept => exact ⟨wire, packet, parsed looks⟩
    | _ => trivial
  | greeted => exact ⟨wire, List.nil_prefix⟩
  | served version loop script step => exact ⟨wire.1, talk_onWire wire.2 step⟩
  | _ => trivial

private theorem converses_onWire (looks : rmqtt.ProbeLooks) {log : List Observation} {phase : Phase}
    (converses : Converses rmqtt config bytes log phase) : OnWire rmqtt config bytes phase := by
  refine converses.invariant (fun _ phase => OnWire rmqtt config bytes phase)
    (show OnWire rmqtt config bytes .probing from trivial) ?_
  intro seen phase observation after wire step
  exact onWire_step looks wire step

/-- Run: what a session decoded stands on the wire behind the CONNECT, in this order. -/
private theorem decoded_in_wire_order (looks : rmqtt.ProbeLooks) {log : List Observation} {phase : Phase}
    (converses : Converses rmqtt config bytes log phase) (decoded : decodedPackets log ≠ []) :
    ∃ version connect, Probed rmqtt config bytes version ∧
      connect :: decodedPackets log <+: (scriptOf rmqtt config bytes version).1 := by
  have credits := converses_credits converses
  have wire := converses_onWire looks converses
  cases phase with
  | serving version loop script talk =>
    obtain ⟨⟨probed, connect, whole⟩, front⟩ := wire
    refine ⟨version, connect, probed, ?_⟩
    rw [whole, Credited.decoded credits]
    exact List.cons_prefix_cons.mpr ⟨rfl, front⟩
  | _ => exact absurd credits.1 decoded

/-- Run: it offers what it decoded in this order, all but the one in hand. -/
private theorem offered_in_order {log : List Observation} {phase : Phase} (converses : Converses rmqtt config bytes log phase) :
    ∃ pending, pending.length ≤ 1 ∧ deliveries (decodedPackets log) = (admissions log).map Prod.fst ++ pending := by
  have credits := converses_credits converses
  cases phase with
  | serving version loop script talk =>
    refine ⟨undelivered talk.stage, ?_, ?_⟩
    · cases talk.stage <;> simp [undelivered]
    · rw [Credited.decoded credits]
      exact (Credited.admitted credits).symm
  | _ =>
    refine ⟨[], Nat.zero_le _, ?_⟩
    rw [credits.1, credits.2]
    rfl

end

/-! ### What one step of the worker adds to a session -/

def queuedOf (log : List Observation) : List Publish :=
  (admissions log).filterMap fun entry => if placed entry.2.1 then some (.fromCodec entry.1) else none

private theorem queuedOf_append (first second : List Observation) : queuedOf (first ++ second) = queuedOf first ++ queuedOf second := by
  simp [queuedOf]

private theorem queuedOf_other {observation : Observation} (other : observation.ofAdmission = false) : queuedOf [observation] = [] := by
  cases observation <;> first | rfl | cases other

def publishesOf (connection : Nat) (deliveries : List Delivery) : List Publish :=
  deliveries.filterMap fun delivery => if delivery.connection = connection then some delivery.publish else none

theorem publishesOf_append (connection : Nat) (first second : List Delivery) :
    publishesOf connection (first ++ second) = publishesOf connection first ++ publishesOf connection second := by
  simp [publishesOf]

section
variable {sync : LocalSync} {σ : Type} {clients : Clients σ} {maxConnections : Nat} {run after : WorkerRun sync σ}

/-- A step moves at most one session, and enqueues what that session's own admissions say. -/
inductive Advance (clients : Clients σ) (run after : WorkerRun sync σ) (happening : Happening) : Prop
  | same (sessions : after.sessions = run.sessions) (quiet : enqueuedBy happening = [])
  | joined (sessions : after.sessions = run.sessions ++ [⟨clients.start run.sessions.length, .free⟩])
      (quiet : enqueuedBy happening = [])
  | spoke (earlier later : List (SessionTask σ)) {task next : SessionTask σ} (log : List Observation)
      (before : run.sessions = earlier ++ task :: later) (behind : after.sessions = earlier ++ next :: later)
      (spoken : Runs (clients.step earlier.length) task.state log next.state)
      (queued : ∀ connection, publishesOf connection (enqueuedBy happening) =
        if connection = earlier.length then queuedOf log else [])

private theorem publishesOf_queuedBy (connection owner ticket : Nat) (publish : CodecPublish) (admission : Admission) (ledger : Ledger) :
    publishesOf connection (queuedBy (delivery owner publish ticket) (.done admission)) =
      if connection = owner then queuedOf [.admitted publish admission ledger] else [] := by
  by_cases own : owner = connection
  · cases places : placed admission <;> simp [publishesOf, queuedBy, delivery, queuedOf, admissions, places, own]
  · cases places : placed admission <;> simp [publishesOf, queuedBy, delivery, places, own, Ne.symm own]

/-- Step: by cases on what happened. -/
private theorem advance {happening : Happening} (moved : Step clients maxConnections run happening after) :
    Advance clients run after happening := by
  cases moved with
  | accepted here running acquired => exact .joined rfl rfl
  | observed earlier later here live other moved =>
    refine .spoke earlier later _ here rfl (.single moved) ?_
    simp [queuedOf_other other, enqueuedBy, publishesOf]
  | offered earlier later wait replyBy now polled here decided ran moved =>
    refine .spoke earlier later _ here rfl ((Runs.single decided).next moved) ?_
    intro connection
    exact publishesOf_queuedBy connection _ _ _ _ _
  | held earlier later wait replyBy now polled here decided ran =>
    refine .spoke earlier later _ here rfl (.single decided) ?_
    simp [enqueuedBy, queuedBy, publishesOf, queuedOf, admissions]
  | resumed earlier later now here ran moved =>
    refine .spoke earlier later _ here rfl (.single moved) ?_
    intro connection
    exact publishesOf_queuedBy connection _ _ _ _ _
  | expired earlier later here ran moved =>
    refine .spoke earlier later _ here rfl (.single moved) ?_
    intro connection
    exact publishesOf_queuedBy connection _ _ _ _ _
  | sessionReturned earlier later here | sessionAborted earlier later here live closed =>
    refine .spoke earlier later [] here rfl .start ?_
    simp [enqueuedBy, publishesOf, queuedOf, admissions]
  | _ => exact .same rfl rfl

end

/-! ### Whole runs -/

structure SessionLog where
  log : List Observation
  phase : Phase

def speakers (rmqtt : Rmqtt) (config : Nat → Config) (bytes : Nat → Bytes) : Clients SessionLog where
  start _ := ⟨[], .probing⟩
  step connection before observation after :=
    after.log = before.log ++ [observation] ∧
      Conversation.Step rmqtt (config connection) (bytes connection) before.phase observation after.phase

section
variable {rmqtt : Rmqtt} {config : Nat → Config} {bytes : Nat → Bytes} {sync : LocalSync} {maxConnections : Nat}
  {run after : WorkerRun sync SessionLog} {seen : List Happening}

private theorem speakers_converse {connection : Nat} {before later : SessionLog} {log : List Observation}
    (spoken : Runs ((speakers rmqtt config bytes).step connection) before log later)
    (converses : Converses rmqtt (config connection) (bytes connection) before.log before.phase) :
    later.log = before.log ++ log ∧ Converses rmqtt (config connection) (bytes connection) later.log later.phase := by
  induction spoken with
  | start => exact ⟨(List.append_nil _).symm, converses⟩
  | next _ moved ih =>
    obtain ⟨same, converses⟩ := ih
    refine ⟨by rw [moved.1, same, List.append_assoc], ?_⟩
    rw [moved.1]
    exact converses.next moved.2

/-- Every session converses, and the queue has had of it what its admissions say. -/
structure Traced (rmqtt : Rmqtt) (config : Nat → Config) (bytes : Nat → Bytes) (seen : List Happening)
    (run : WorkerRun sync SessionLog) : Prop where
  converses : ∀ connection task, run.sessions[connection]? = some task →
    Converses rmqtt (config connection) (bytes connection) task.state.log task.state.phase
  queued : ∀ connection, publishesOf connection (enqueued seen) =
    (run.sessions[connection]?.map fun task => queuedOf task.state.log).getD []

private theorem enqueued_snoc (seen : List Happening) (happening : Happening) :
    enqueued (seen ++ [happening]) = enqueued seen ++ enqueuedBy happening := by
  simp [enqueued]

/-- Step: one session speaks, and the others keep what they have said. -/
theorem Traced.step {happening : Happening} (traced : Traced rmqtt config bytes seen run)
    (moved : Step (speakers rmqtt config bytes) maxConnections run happening after) :
    Traced rmqtt config bytes (seen ++ [happening]) after := by
  cases advance moved with
  | same sessions quiet =>
    refine ⟨by rw [sessions]; exact traced.converses, ?_⟩
    rw [enqueued_snoc, quiet, List.append_nil, sessions]
    exact traced.queued
  | joined sessions quiet =>
    have fresh (connection : Nat) :
        after.sessions[connection]? =
          if connection = run.sessions.length then some ⟨⟨[], .probing⟩, .free⟩ else run.sessions[connection]? := by
      rw [sessions]
      grind [speakers]
    refine ⟨?_, ?_⟩
    · intro connection task here
      rw [fresh] at here
      split at here
      · cases here
        exact .start
      · exact traced.converses connection task here
    · intro connection
      rw [enqueued_snoc, quiet, List.append_nil, fresh, traced.queued]
      split
      next same =>
        subst same
        simp [queuedOf, admissions]
      · rfl
  | spoke earlier later log before behind spoken queued =>
    rename_i task next
    have here : run.sessions[earlier.length]? = some task := by simp [before]
    obtain ⟨grown, converses⟩ := speakers_converse spoken (traced.converses _ _ here)
    have sessions (connection : Nat) : after.sessions[connection]? =
        if connection = earlier.length then some next else run.sessions[connection]? := by
      rw [behind, before]
      grind
    refine ⟨?_, ?_⟩
    · intro connection other found
      rw [sessions] at found
      split at found
      next same =>
        cases found
        subst same
        exact converses
      · exact traced.converses connection other found
    · intro connection
      rw [enqueued_snoc, publishesOf_append, queued, traced.queued, sessions]
      split
      next same =>
        subst same
        simp [here, grown, queuedOf_append]
      · exact List.append_nil _

private theorem traced_of_run {dropped : Nat}
    (ran : Runs (Step (speakers rmqtt config bytes) maxConnections) (WorkerRun.initial sync SessionLog dropped) seen run) :
    Traced rmqtt config bytes seen run := by
  apply ran.invariant (Traced rmqtt config bytes)
  · refine ⟨?_, ?_⟩
    · rintro connection task ⟨⟩
    · intro connection
      rfl
  · intro seen run happening after traced moved
    exact traced.step moved

def content (publish : CodecPublish) : String × Bytes × QoS × Bool :=
  (publish.topic, publish.payload, publish.qos, publish.retain)

private theorem content_queuedOf (log : List Observation) :
    ((queuedOf log).map fun publish => content publish.inner) =
      ((admissions log).filter fun entry => placed entry.2.1).map fun entry => content entry.1 := by
  rw [queuedOf]
  induction admissions log with
  | nil => rfl
  | cons entry rest ih => cases places : placed entry.2.1 <;> simp_all [Publish.fromCodec, content]

/-- Delivery in wire order, for each connection of a worker in every order of steps of
its tasks. What the processor received of the connection, and then what is still
queued of it, is what the connection's deliverable PUBLISHes carry, in the order
they were decoded, without those that were not enqueued. All of these have been
offered but for one in hand, and they were decoded in the order of the wire. -/
theorem delivered_in_wire_order (looks : rmqtt.ProbeLooks) {dropped : Nat}
    (ran : Runs (Step (speakers rmqtt config bytes) maxConnections) (WorkerRun.initial sync SessionLog dropped) seen run)
    {connection : Nat} {task : SessionTask SessionLog} (here : run.sessions[connection]? = some task) :
    ((publishesOf connection (delivered seen) ++ publishesOf connection run.channel.queue).map
        fun publish => content publish.inner) =
      (((admissions task.state.log).filter fun entry => placed entry.2.1).map fun entry => content entry.1) ∧
    (∃ pending, pending.length ≤ 1 ∧
      deliveries (decodedPackets task.state.log) = (admissions task.state.log).map Prod.fst ++ pending) ∧
    (decodedPackets task.state.log ≠ [] →
      ∃ version connect, Probed rmqtt (config connection) (bytes connection) version ∧
        connect :: decodedPackets task.state.log <+: (scriptOf rmqtt (config connection) (bytes connection) version).1) := by
  have traced := traced_of_run ran
  have converses := traced.converses connection task here
  refine ⟨?_, offered_in_order converses, decoded_in_wire_order looks converses⟩
  have queued := traced.queued connection
  rw [here] at queued
  rw [← publishesOf_append, delivered_queue ran, queued]
  exact content_queuedOf task.state.log

end

open Fixtures

def oneReading : Bytes := v3ConnectTest ++ publishQos1T

def oneClient : Clients SessionLog := speakers codec (fun _ => (Scenario.prompt []).config) (fun _ => oneReading)

private theorem oneReading_script :
    scriptOf codec (Scenario.prompt []).config oneReading .mqtt3 = (connectTest :: [.v3 (.publish publishT)], .clean) := by
  decide +kernel

private theorem oneClient_speaks {run : WorkerRun .fifo SessionLog} {log : List Observation} {phase next : Phase}
    {observation : Observation} (here : run.sessions = [⟨⟨log, phase⟩, .free⟩]) (other : observation.ofAdmission = false)
    (moved : Conversation.Step codec (Scenario.prompt []).config oneReading phase observation next) :
    Step oneClient 1 run (.observed 0 observation) { run with sessions := [⟨⟨log ++ [observation], next⟩, .free⟩] } :=
  @Step.observed .fifo SessionLog oneClient 1 run [] [] ⟨log, phase⟩ .free ⟨log ++ [observation], next⟩ observation here rfl
    other ⟨rfl, moved⟩

theorem delivered_in_wire_order_one_reading :
    ∃ seen, ∃ run : WorkerRun .fifo SessionLog, ∃ task,
      Runs (Step oneClient 1) (WorkerRun.initial .fifo SessionLog 0) seen run ∧ run.sessions[0]? = some task ∧
      delivered seen = [delivery 0 publishT 0] ∧
      (publishesOf 0 (delivered seen) ++ publishesOf 0 run.channel.queue).map (fun publish => content publish.inner) =
        ((admissions task.state.log).filter fun entry => placed entry.2.1).map fun entry => content entry.1 := by
  have connected : Runs (Step oneClient 1) (WorkerRun.initial .fifo SessionLog 0) _ _ :=
    ((Runs.start.next (.accepted rfl rfl rfl)).next
      (oneClient_speaks rfl rfl (.probed .mqtt3 fun _ => ⟨oneReading, List.prefix_rfl, by decide +kernel⟩))).next
      (oneClient_speaks rfl rfl (.received .mqtt3 connectTest ([.v3 (.publish publishT)], .clean)
        (fun _ => oneReading_script) ⟨0x10, v3ConnectTest.drop 2, by decide +kernel⟩))
  have greeted : Runs (Step oneClient 1) (WorkerRun.initial .fifo SessionLog 0) _ _ :=
    (connected.next (oneClient_speaks rfl rfl (.accepted .mqtt3 _ _ _))).next
      (oneClient_speaks rfl rfl (.greeted .mqtt3 _ _))
  have decoded : Runs (Step oneClient 1) (WorkerRun.initial .fifo SessionLog 0) _ _ :=
    greeted.next (oneClient_speaks rfl rfl (.served .mqtt3 _ _ (.decoded [] (.v3 (.publish publishT)) List.prefix_rfl)))
  have accounted : ChannelUse.Accounted (.fromCodec publishT) .enqueued ⟨[.fromCodec publishT], 0, false⟩ :=
    ⟨rfl, rfl⟩
  have offered : Runs (Step oneClient 1) (WorkerRun.initial .fifo SessionLog 0) _ _ :=
    decoded.next (@Step.offered .fifo SessionLog oneClient 1 _ [] [] _ ⟨_, _⟩ ⟨_, _⟩ publishT 5 .enqueued
      ⟨[.fromCodec publishT], 0, false⟩ _ 5 10 0 0 rfl
      ⟨rfl, .served .mqtt3 _ _ (.offered _ publishT (some (.publishAck idOne)) 5)⟩ rfl
      ⟨rfl, .served .mqtt3 _ _ (.admitted _ publishT _ 5 accounted rfl)⟩)
  have received := offered.next (.delivered rfl rfl)
  exact ⟨_, _, _, received, rfl, rfl, (delivered_in_wire_order codec_lawfulProbe.looks received rfl).1⟩

end UringMqtt.Proofs.DeliveryOrder

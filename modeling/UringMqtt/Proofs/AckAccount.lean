import UringMqtt.Proofs.PacerLedger
import UringMqtt.Proofs.PacerAccount

/-! Acknowledgement accounting over whole connections, closed-loop and open-loop. -/

namespace UringMqtt.Bench
open Lib Run

variable {hdr : Hdr} {allocator : Allocator} {config : GenConfig} {law : allocator.Lawful}
  {world after : World hdr allocator} {connId : UInt32}

theorem Publishing.keeps (publishing : Publishing config law connId world) (keeps : Keeps config law world after) :
    Publishing config law connId after where
  keys := by rw [keeps.handed, publishing.keys]
  offered := by rw [keeps.offered, keeps.handed, publishing.offered]
  ledger reliable := keeps.ledger reliable (publishing.ledger reliable)

theorem openSession_ensures (law : allocator.Lawful) (connId : UInt32) (env : Nat → Moment) :
    Ensures (openSession config) (World.spawned hdr allocator env)
      (fun opened after => Between config law connId after ∧ after.handed = [] ∧
        (opened = false → 0 < after.counters.connectErrors))
      (fun _ after => Publishing config law connId after) := by
  have empty : Ledger law (World.spawned hdr allocator env) := ledger_spawned law env
  refine openSession_spawned config env ⟨rfl, rfl, fun _ => { empty with }⟩ ?_ fun _ => ?_
  · exact ⟨⟨⟨rfl, rfl, fun _ => { empty with }⟩, rfl, rfl⟩, rfl, by rintro ⟨⟩⟩
  · exact ⟨⟨⟨rfl, rfl, fun _ => { empty with }⟩, rfl, rfl⟩, rfl, fun _ => Nat.one_pos⟩

theorem Between.resolved (between : Between config law connId world) (reliable : config.qos = 1)
    (empty : world.handed = []) : Resolved world := by
  intro calm
  have few := ((between.ledger reliable).exact calm).1
  have none := between.offered
  rw [empty, List.length_nil] at none
  rw [between.stalled]
  omega

theorem runThroughputConnection_ensures (law : allocator.Lawful) (config : GenConfig) (connId : UInt32) (fuel : Nat)
    (quality : config.qos = 0 ∨ config.qos = 1) (env : Nat → Moment) :
    Ensures (runThroughputConnection config connId fuel) (World.spawned hdr allocator env)
      (fun _ after => Publishing config law connId after ∧ (config.qos = 1 → after.pending = [] ∧ Resolved after))
      (fun _ after => Publishing config law connId after) := by
  apply Ensures.bind (openSession_ensures law connId env)
  rintro opened current ⟨between, empty, _⟩
  have start : min current.handed.length u64Max = 0 := by rw [empty]; rfl
  split
  · split
    next unreliable =>
      have other : config.qos ≠ 1 := by rw [unreliable]; decide
      have looped := qos0Loop_ensures fuel other between
      rw [start] at looped
      apply Ensures.bind looped
      intro failure finished publishing
      cases failure with
      | some cause => exact .pure ⟨publishing, fun reliable => absurd reliable other⟩
      | none =>
        apply (Ensures.along (reads_disconnectAndJoin config law none true)).weaken
        · exact fun _ _ reads => ⟨publishing.takes reads, fun reliable => absurd reliable other⟩
        · exact fun _ _ reads => publishing.takes reads
    next reliable =>
      have reliable := quality.resolve_left reliable
      apply Ensures.modify_bind
      have ready : Between config law connId { current with permits := config.qos1Window.toNat } :=
        between.reads (.beside id (Nat.le_refl _))
      have looped := qos1Loop_ensures fuel ready
      rw [start] at looped
      apply Ensures.bind looped
      intro failure finished between
      apply ((Ensures.along (keeps_qos1DrainAndDisconnect law fuel failure)).and
        (qos1DrainAndDisconnect_resolves law reliable (between.ledger reliable) between.stalled fuel failure)).weaken
      · rintro _ ended ⟨keeps, resolved⟩
        exact ⟨between.toPublishing.keeps keeps, fun _ => ⟨keeps.pending.trans between.pending, resolved⟩⟩
      · exact fun _ _ ended => between.toPublishing.keeps ended.1
  · exact .pure ⟨between.toPublishing, fun reliable => ⟨between.pending, between.resolved reliable empty⟩⟩

structure Accountable (world : World hdr allocator) : Prop where
  entries : ∀ before entry rest, world.log = before ++ entry :: rest → EntryHolds before entry
  acked : world.counters.acked ≤ world.counters.offered
  inFlight : world.inFlight.toNat = world.counters.offered - world.counters.acked

theorem Ledger.accountable (ledger : Ledger law world) (calm : Calm world.log) : Accountable world :=
  ⟨ledger.entries calm, (ledger.exact calm).1, (ledger.exact calm).2⟩

private theorem runLatencyConnection_accountable (law : allocator.Lawful) (reliable : config.qos = 1) (rate fuel : Nat)
    (env : Nat → Moment) :
    Ensures (runLatencyConnection config connId rate fuel) (World.spawned hdr allocator env)
      (fun _ after => Calm after.log → Accountable after ∧ Resolved after)
      (fun _ after => Calm after.log → Accountable after) := by
  refine (openSession_ensures law connId env).seq (fun _ _ publishing => (publishing.ledger reliable).accountable) ?_
  rintro opened current ⟨between, empty, _⟩
  split
  · refine Ensures.bind ((pacerLoop_paces reliable fuel 0 0 (between.ledger reliable) between.pending
      between.stalled).weaken (fun _ _ => id) fun _ _ => Ledger.accountable) ?_
    intro result finished paces
    have kept : Ensures (latencyTeardown config fuel result) finished (fun _ after => Keeps config law finished after)
        (fun _ after => Keeps config law finished after) := .along (keeps_latencyTeardown law fuel result)
    rcases paces with ⟨ledger, none, fresh⟩ | ⟨stormy, _⟩
    · apply (kept.and (latencyTeardown_resolves law reliable ledger fresh fuel result)).weaken
      · exact fun _ _ ended calm => ⟨(ended.1.ledger reliable ledger).accountable calm, ended.2⟩
      · exact fun _ _ ended => (ended.1.ledger reliable ledger).accountable
    · have lost (after : World hdr allocator) (keeps : Keeps config law finished after) : ¬Calm after.log :=
        fun calm => stormy fun entry member => calm entry (keeps.log.subset member)
      apply kept.weaken
      · exact fun _ after keeps calm => absurd calm (lost after keeps)
      · exact fun _ after keeps calm => absurd calm (lost after keeps)
  · exact .pure fun calm => ⟨(between.ledger reliable).accountable calm, between.resolved reliable empty⟩

private theorem runThroughputConnection_accountable (law : allocator.Lawful) (reliable : config.qos = 1) (fuel : Nat)
    (env : Nat → Moment) :
    Ensures (runThroughputConnection config connId fuel) (World.spawned hdr allocator env)
      (fun _ after => Calm after.log → Accountable after ∧ Resolved after)
      (fun _ after => Calm after.log → Accountable after) := by
  apply (runThroughputConnection_ensures law config connId fuel (.inr reliable) env).weaken
  · exact fun _ _ ended calm => ⟨(ended.1.ledger reliable).accountable calm, (ended.2 reliable).2⟩
  · exact fun _ _ publishing => (publishing.ledger reliable).accountable

/-- Acknowledgement accounting against any broker, as long as no PUBACK is handled for a
packet id of a batch that is allocated and not yet counted offered. At every change of the
counters and in the end no more is acknowledged than offered and the in-flight counter is
the difference; a PUBACK is accepted exactly when a publish with its id is outstanding,
and any other one only counts a protocol error; a task that returns has every publish
acknowledged or counted stalled. -/
theorem pubacks_accounted_unless_early (reliable : config.qos = 1) (connId : UInt32) (env : Nat → Moment) (fuel : Nat)
    {task : Gen hdr packetIds (Except String Unit)} (publishes : runConnection config connId fuel = some task) :
    Ensures task (World.spawned hdr packetIds env)
      (fun _ after => Calm after.log →
        Accountable after ∧ after.counters.offered = after.counters.acked + after.counters.stalled)
      (fun _ after => Calm after.log → Accountable after) ∧
    ∀ (world : World hdr packetIds) (packetId : NonZeroU16), world.reading = true →
      (∃ ids permits account, world.readFrame config (.puback packetId) = { world with
        ids, permits
        counters.acked := world.counters.acked + 1
        inFlight := world.inFlight - 1
        log := world.log ++ [.puback packetId (world.pending.contains packetId) true account] }) ∨
      ∃ cursor account, world.readFrame config (.puback packetId) = { world with
        ids := { bits := PacketIds.bits world.ids, cursor : PacketIds }
        counters.protocolErrors := world.counters.protocolErrors + 1
        log := world.log ++ [.puback packetId (world.pending.contains packetId) false account] } := by
  refine ⟨?_, fun world packetId running => ?_⟩
  swap
  · simp only [World.readFrame, running, Bool.not_true, Bool.false_eq_true, if_false, if_pos reliable]
    split
    next ids released => exact .inl ⟨ids, _, _, rfl⟩
    next ids rejected =>
      obtain ⟨cursor, rfl⟩ := PacketIds.release_rejected rejected
      exact .inr ⟨cursor, _, rfl⟩
  have either : Ensures task (World.spawned hdr packetIds env)
      (fun _ after => Calm after.log → Accountable after ∧ Resolved after)
      (fun _ after => Calm after.log → Accountable after) := by
    unfold runConnection at publishes
    split at publishes
    · cases publishes
      exact runThroughputConnection_accountable packetIdsLawful reliable fuel env
    · cases publishes
      exact runLatencyConnection_accountable packetIdsLawful reliable _ fuel env
    · cases publishes
  exact either.weaken (fun _ _ ended calm => ⟨(ended calm).1, (ended calm).2 calm⟩) fun _ _ => id

private theorem one_nonzero : (1 : UInt16) ≠ 0 := by decide

def firstId : NonZeroU16 := ⟨1, one_nonzero⟩

def prematurePuback (moment : Nat) : Moment where
  nowNs := if moment < 6 then 1000000000 else 1020000000
  frames := if moment = 5 then [.puback firstId] else []
  written := .done
  session := none
  elapsed := true
  aborted := false

/-- A PUBACK for an id that was allocated and never offered is counted acknowledged; the
in-flight counter wraps and the drain counts it all stalled. -/
theorem premature_puback_wraps :
    (taskEnd (runLatencyConnection twoConnections 0 1000 10 (World.spawned unitBuckets packetIds prematurePuback))).map
      (fun ended => (ended.1, ended.2.log, ended.2.counters)) =
    some (.returned, [.puback firstId true true ⟨0, 1, 18446744073709551615⟩], {
      offered := 0
      acked := 1
      connectErrors := 0
      protocolErrors := 0
      stalled := 18446744073709551615
      latenessOverRange := 0
      missedSlots := 5
      lastWriteStartNs := 0 }) := by
  decide +kernel

def promptPuback (moment : Nat) : Moment where
  nowNs := if moment < 8 then 1000000000 else 1020000000
  frames := if moment = 7 then [.puback firstId] else []
  written := .done
  session := none
  elapsed := true
  aborted := false

theorem pubacks_accounted_unless_early_prompt :
    Ensures (runLatencyConnection twoConnections 0 1000 10) (World.spawned unitBuckets packetIds promptPuback)
      (fun _ after => Calm after.log →
        Accountable after ∧ after.counters.offered = after.counters.acked + after.counters.stalled)
      (fun _ after => Calm after.log → Accountable after) ∧
    (taskEnd (runLatencyConnection twoConnections 0 1000 10 (World.spawned unitBuckets packetIds promptPuback))).map
      (fun ended => (ended.1, ended.2.log)) =
    some (.returned, [.offered [firstId] ⟨1, 0, 1⟩, .puback firstId false true ⟨1, 1, 0⟩]) :=
  ⟨(@pubacks_accounted_unless_early unitBuckets twoConnections rfl 0 promptPuback 10 _ rfl).1, by decide +kernel⟩

end UringMqtt.Bench

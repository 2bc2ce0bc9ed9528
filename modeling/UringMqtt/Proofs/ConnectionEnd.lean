import UringMqtt.Proofs.AckAccount

/-! What a connection task that returned has done, for the judgement of a run. -/

namespace UringMqtt.Bench
open Lib Run

variable {hdr : Hdr} {allocator : Allocator} {config : GenConfig} {connId : UInt32} {world after : World hdr allocator}
  {rate : Nat}

/-- A connection that returned. Its publishes are numbered from zero on and all counted; an
open-loop connection that missed nothing has sent each of its slots in turn. -/
structure Completed (ids : allocator.Lawful) (config : GenConfig) (connId : UInt32) (world : World hdr allocator) : Prop where
  keys : world.handed.map Publication.key = numbered connId 0 world.handed.length
  offered : world.counters.offered = world.handed.length
  acks : config.qos = 1 → config.mode = .throughput ∨ world.counters.missedSlots = 0 →
    Books ids world ∧ world.pending = []
  slots : ∀ rate, config.mode = .latency rate → world.counters.missedSlots = 0 → world.counters.connectErrors = 0 →
    world.handed.map Publication.stamp = (List.range (config.ownSlots connId rate.toNat)).map fun slotK =>
      ⟨connId, .ofNat slotK, .ofNat (dueAt config connId rate.toNat slotK)⟩

private theorem Sent.keys {law : hdr.Behaviour} {slots : List Nat} (sent : Sent law config connId rate slots world)
    (few : slots.length ≤ u64Max) : world.handed.map Publication.key = numbered connId 0 world.handed.length := by
  have keyed : world.handed.map Publication.key =
      (world.handed.map Publication.stamp).map fun stamp => (stamp.connId, stamp.seq) := by
    rw [List.map_map]
    rfl
  rw [keyed, sent.stamps, length_handed sent, List.map_map, numbered, ← List.zipIdx_map_snd 0 slots, List.map_map]
  apply List.map_congr_left
  intro entry member
  have inside := List.snd_lt_of_mem_zipIdx member
  rw [Nat.add_zero] at inside
  change (connId, UInt64.ofNat entry.2) = (connId, UInt64.ofNat (min entry.2 u64Max))
  rw [Nat.min_eq_left (by omega)]

private theorem eq_range_of_increasing {slots : List Nat} {bound : Nat} (increasing : slots.Pairwise (· < ·))
    (below : ∀ slotK ∈ slots, slotK < bound) (all : slots.length = bound) : slots = List.range bound := by
  have distinct : slots.Nodup := increasing.imp Nat.ne_of_lt
  have perm : slots.Perm (List.range bound) := by
    refine (List.subperm_of_subset distinct fun slotK member => ?_).perm_of_length_le ?_
    · exact List.mem_range.mpr (below slotK member)
    · rw [List.length_range, all]
  exact perm.eq_of_pairwise (fun _ _ _ _ less more => absurd less (Nat.lt_asymm more)) increasing List.pairwise_lt_range

private theorem Settled.stamps {law : hdr.Behaviour} {slots : List Nat} (settled : Settled law config connId rate slots world)
    (none : world.counters.missedSlots = 0) :
    world.handed.map Publication.stamp = (List.range (config.ownSlots connId rate)).map fun slotK =>
      ⟨connId, .ofNat slotK, .ofNat (dueAt config connId rate slotK)⟩ := by
  have sent := settled.sent
  have all : slots.length = config.ownSlots connId rate := by
    rw [← settled.balance, none, sent.offered, Nat.add_zero]
  have numbers : (List.range (config.ownSlots connId rate)).zipIdx =
      (List.range (config.ownSlots connId rate)).map fun slotK => (slotK, slotK) :=
    List.ext_getElem (by simp) fun _ _ _ => by simp
  rw [sent.stamps, eq_range_of_increasing sent.increasing sent.own all, numbers, List.map_map]
  rfl

private theorem accounted_spawned (law : hdr.Behaviour) (config : GenConfig) (connId : UInt32) (rate : Nat) (env : Nat → Moment)
    (quiet : Quiet (World.spawned hdr allocator env).start world) : Accounted law config connId rate 0 [] world := by
  obtain ⟨sent, before, within, balance⟩ := accounted_start law config connId rate env
  refine ⟨sent.moves quiet, before, within, ?_⟩
  rw [quiet.offered, quiet.missed]
  exact balance

private theorem openSession_quiet (config : GenConfig) (env : Nat → Moment) :
    Ensures (openSession config) (World.spawned hdr allocator env)
      (fun _ after => Quiet (World.spawned hdr allocator env).start after) (fun _ _ => True) :=
  openSession_spawned config env trivial ⟨rfl, Nat.zero_le _, rfl, rfl, rfl, rfl, rfl, rfl⟩
    fun _ => ⟨rfl, Nat.zero_le _, rfl, rfl, rfl, rfl, rfl, rfl⟩

private theorem Between.completed {ids : allocator.Lawful} (between : Between config ids connId world)
    (failed : 0 < world.counters.connectErrors) : Completed ids config connId world :=
  ⟨between.keys, between.offered, fun reliable _ => ⟨(between.ledger reliable).toBooks, between.pending⟩,
    fun _ _ _ none => absurd none (Nat.ne_of_gt failed)⟩

section Latency
variable {law : hdr.Behaviour} {ids : allocator.Lawful} {rate : UInt64}

private theorem Settled.completed {slots : List Nat} (mode : config.mode = .latency rate) (paced : config.Paced rate.toNat)
    (settled : Settled law config connId rate.toNat slots world) (paces : config.qos = 1 → Paces ids world)
    (keeps : Keeps config ids world after) : Completed ids config connId after := by
  have few : slots.length ≤ u64Max := by
    have balance := settled.balance
    have small : config.ownSlots connId rate.toNat ≤ u64Max := paced.ownSlots_le
    rw [settled.sent.offered] at balance
    omega
  have none (missed : after.counters.missedSlots = 0) : world.counters.missedSlots = 0 :=
    Nat.eq_zero_of_le_zero (missed ▸ keeps.missed)
  refine ⟨?_, ?_, fun reliable either => ?_, fun other same missed _ => ?_⟩
  · rw [keeps.handed, settled.sent.keys few]
  · rw [keeps.offered, keeps.handed, settled.sent.offered, length_handed settled.sent]
  · have missed := none (either.resolve_left fun closed => by rw [mode] at closed; cases closed)
    have paced := (paces reliable).resolve_right fun stormy => Nat.ne_of_gt stormy.2 missed
    exact ⟨(keeps.ledger reliable paced.1).toBooks, keeps.pending.trans paced.2.1⟩
  · rw [mode] at same
    cases same
    rw [keeps.handed, settled.stamps (none missed)]

private theorem latencyPacer_paces (reliable : config.qos = 1 → Ledger ids world) (pending : world.pending = [])
    (fresh : world.counters.stalled = 0) (law : hdr.Behaviour) (paced : config.Paced rate.toNat)
    (member : connId < config.connections) (fuel : Nat)
    (accounted : Accounted law config connId rate.toNat 0 [] world) :
    Ensures (latencyPacer config connId rate.toNat fuel) world
      (fun _ after => (∃ slots, Settled law config connId rate.toNat slots after) ∧ (config.qos = 1 → Paces ids after))
      (fun _ _ => True) := by
  have slots : Ensures (latencyPacer config connId rate.toNat fuel) world
      (fun _ after => ∃ slots, Settled law config connId rate.toNat slots after) _ :=
    pacerLoop_ensures law paced member fuel accounted
  by_cases quality : config.qos = 1
  · exact (slots.and (pacerLoop_paces quality fuel 0 0 (reliable quality) pending fresh)).weaken
      (fun _ _ both => ⟨both.1, fun _ => both.2⟩) fun _ _ _ => trivial
  · exact slots.weaken (fun _ _ settled => ⟨settled, fun reliable => absurd reliable quality⟩) fun _ _ _ => trivial

private theorem runLatencyConnection_completed (law : hdr.Behaviour) (ids : allocator.Lawful) (mode : config.mode = .latency rate)
    (paced : config.Paced rate.toNat) (member : connId < config.connections) (fuel : Nat) (env : Nat → Moment) :
    Ensures (runLatencyConnection config connId rate.toNat fuel) (World.spawned hdr allocator env)
      (fun _ after => Completed ids config connId after) (fun _ _ => True) := by
  refine ((openSession_quiet config env).and (openSession_ensures ids connId env)).seq (fun _ _ _ => trivial) ?_
  rintro opened current ⟨quiet, between, _, failed⟩
  split
  · apply Ensures.bind (latencyPacer_paces between.ledger between.pending between.stalled law paced member fuel
      (accounted_spawned law config connId rate.toNat env quiet))
    rintro result finished ⟨⟨slots, settled⟩, paces⟩
    exact (Ensures.along (keeps_latencyTeardown ids fuel result)).weaken
      (fun _ _ keeps => settled.completed mode paced paces keeps) fun _ _ _ => trivial
  next unopened => exact .pure (between.completed (failed (Bool.eq_false_of_not_eq_true unopened)))

end Latency

private theorem runThroughputConnection_completed (ids : allocator.Lawful) (mode : config.mode = .throughput)
    (quality : config.qos = 0 ∨ config.qos = 1) (fuel : Nat) (env : Nat → Moment) :
    Ensures (runThroughputConnection config connId fuel) (World.spawned hdr allocator env)
      (fun _ after => Completed ids config connId after) (fun _ _ => True) := by
  refine (runThroughputConnection_ensures ids config connId fuel quality env).weaken ?_ fun _ _ _ => trivial
  rintro _ after ⟨publishing, acks⟩
  refine ⟨publishing.keys, publishing.offered, fun reliable _ => ?_, fun rate other => ?_⟩
  · exact ⟨(publishing.ledger reliable).toBooks, (acks reliable).1⟩
  · rw [mode] at other
    cases other

private theorem GenConfig.quality_of_validate (valid : config.validate = .ok ()) : config.qos = 0 ∨ config.qos = 1 := by
  unfold GenConfig.validate at valid
  split at valid
  · cases valid
  next low =>
    have small : config.qos.toNat ≤ 1 := Nat.not_lt.mp low
    rw [← UInt8.toNat_inj, ← UInt8.toNat_inj]
    change config.qos.toNat = 0 ∨ config.qos.toNat = 1
    omega

theorem Ends.completed {ended : TaskEnd × World hdr allocator} {env : Nat → Moment} (law : hdr.Behaviour)
    (ids : allocator.Lawful) (valid : config.validate = .ok ()) (member : connId < config.connections)
    (ends : Ends config connId env ended) (returned : ended.1 = .returned) : Completed ids config connId ended.2 := by
  obtain ⟨fuel, task, publishes, ran⟩ := ends
  have ensured : Ensures task (World.spawned hdr allocator env) (fun _ after => Completed ids config connId after)
      (fun _ _ => True) := by
    unfold runConnection at publishes
    split at publishes <;> cases publishes
    next mode => exact runThroughputConnection_completed ids mode (GenConfig.quality_of_validate valid) fuel env
    next rate mode =>
      exact runLatencyConnection_completed law ids mode (GenConfig.paced_of_validate mode valid) member fuel env
  have known := ensured.ran
  cases result : task (World.spawned hdr allocator env) with
  | ok value after =>
    rw [result] at known ran
    cases ran
    exact known
  | error reason after =>
    rw [result] at ran
    cases reason <;> cases ran <;> cases returned

end UringMqtt.Bench

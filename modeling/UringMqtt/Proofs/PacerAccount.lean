import UringMqtt.Bench.PacketIds
import UringMqtt.Proofs.PacerSteps

/-! Every slot of an open-loop connection is accounted for once: it is offered, with
its own due time and the next number, or it is missed. -/

namespace UringMqtt.Bench
open Lib Run

variable {hdr : Hdr} {allocator : Allocator}

/-- The publishes handed to the socket are the next numbers with the due times of these
slots of the connection. -/
structure Sent (law : hdr.Behaviour) (config : GenConfig) (connId : UInt32) (rate : Nat) (slots : List Nat)
    (world : World hdr allocator) : Prop where
  increasing : slots.Pairwise (· < ·)
  own : ∀ slotK ∈ slots, slotK < config.ownSlots connId rate
  stamps : world.handed.map Publication.stamp =
    slots.zipIdx.map fun entry => ⟨connId, .ofNat entry.2, .ofNat (dueAt config connId rate entry.1)⟩
  offered : world.counters.offered = slots.length
  finished : world.completed.Sublist world.handed
  lateness : (law.samples world.lateness).card + world.counters.latenessOverRange =
    world.completed.countP fun publication => config.window.contains publication.stamp.scheduledNs.toNat

/-- At the head of the loop: every slot below the next one is offered or missed. -/
structure Accounted (law : hdr.Behaviour) (config : GenConfig) (connId : UInt32) (rate slotK : Nat) (slots : List Nat)
    (world : World hdr allocator) : Prop where
  sent : Sent law config connId rate slots world
  before : ∀ sent ∈ slots, sent < slotK
  within : slotK ≤ config.ownSlots connId rate
  balance : world.counters.offered + world.counters.missedSlots = slotK

variable {law : hdr.Behaviour} {config : GenConfig} {connId : UInt32} {rate slotK : Nat} {slots : List Nat}
  {world after : World hdr allocator}

section
variable (sent : Sent law config connId rate slots world)
include sent

theorem Sent.moves {count : Nat} (moves : Moves count world after) :
    Sent law config connId rate slots after where
  increasing := sent.increasing
  own := sent.own
  stamps := by rw [moves.handed, sent.stamps]
  offered := by rw [moves.offered, sent.offered]
  finished := by rw [moves.completed, moves.handed]; exact sent.finished
  lateness := by rw [moves.lateness, moves.overRange, moves.completed, sent.lateness]

theorem length_handed : world.handed.length = slots.length := by
  have lengths := congrArg List.length sent.stamps
  rwa [List.length_map, List.length_map, List.length_zipIdx] at lengths

private theorem card_lateness_le : (law.samples world.lateness).card ≤ slots.length := by
  have total := sent.lateness
  have few := List.countP_le_length (p := fun publication : Publication =>
    config.window.contains publication.stamp.scheduledNs.toNat) (l := world.completed)
  have shorter := sent.finished.length_le
  rw [length_handed sent] at shorter
  omega

end

section Batch
variable {reached : Nat} {batch : List Slot}

private theorem encoded_stamps (seq : Nat) (collected : Collected config connId rate slotK reached batch) :
    (encoded config connId seq batch).map Publication.stamp =
      ((List.range' slotK batch.length).zipIdx seq).map fun entry =>
        ⟨connId, .ofNat entry.2, .ofNat (dueAt config connId rate entry.1)⟩ := by
  have dues : (batch.map Prod.snd).zipIdx seq = ((List.range' slotK batch.length).map (dueAt config connId rate)).zipIdx seq := by
    rw [collected.dues]
  rw [List.zipIdx_map, List.zipIdx_map] at dues
  have stamped := congrArg (List.map fun entry : Nat × Nat =>
    (⟨connId, .ofNat entry.2, .ofNat entry.1⟩ : Stamp)) dues
  rw [List.map_map, List.map_map] at stamped
  rw [encoded, List.map_map]
  exact stamped

private theorem due_small (paced : config.Paced rate) (collected : Collected config connId rate slotK reached batch)
    {slot : Slot} (member : slot ∈ batch) : slot.2 ≤ u64Max := by
  have due : slot.2 ∈ (List.range' slotK batch.length).map (dueAt config connId rate) := by
    rw [← collected.dues]
    exact List.mem_map_of_mem member
  obtain ⟨number, inside, same⟩ := List.mem_map.mp due
  have passed := collected.passed
  have within := collected.within
  have own : number < config.ownSlots connId rate := by
    rw [List.mem_range'_1] at inside
    omega
  have below := dueAt_lt paced own
  have limit := config.gridEnd_le
  omega

private theorem encoded_in_window (paced : config.Paced rate) (collected : Collected config connId rate slotK reached batch) (seq : Nat) :
    ((encoded config connId seq batch).countP fun publication =>
      config.window.contains publication.stamp.scheduledNs.toNat) =
      batch.countP fun slot => config.window.contains slot.2 := by
  have slots : batch.countP (fun slot => config.window.contains slot.2) =
      (batch.zipIdx seq).countP fun entry => config.window.contains entry.1.2 := by
    conv_lhs => rw [← List.zipIdx_map_fst seq batch]
    rw [List.countP_map]
    rfl
  rw [slots, encoded, List.countP_map]
  apply List.countP_congr
  intro entry member
  have small := due_small paced collected (List.fst_mem_of_mem_zipIdx member)
  rw [Function.comp_apply, UInt64.toNat_ofNat_of_lt' (Nat.lt_succ_of_le small)]

theorem Sent.hands {finished : List Publication} {late : Nat} (paced : config.Paced rate)
    (sent : Sent law config connId rate slots world) (before : ∀ sent ∈ slots, sent < slotK)
    (collected : Collected config connId rate slotK reached batch)
    (hands : Hands law (encoded config connId slots.length batch) finished late world after)
    (done : finished = [] ∧ late = 0 ∨ finished = encoded config connId slots.length batch ∧
      late = batch.countP fun slot => config.window.contains slot.2) :
    Sent law config connId rate (slots ++ List.range' slotK batch.length) after := by
  have passed := collected.passed
  have within := collected.within
  constructor
  · rw [List.pairwise_append]
    refine ⟨sent.increasing, List.pairwise_lt_range', fun old member new later => ?_⟩
    exact Nat.lt_of_lt_of_le (before old member) (List.mem_range'_1.mp later).1
  · intro number member
    rcases List.mem_append.mp member with old | new
    · exact sent.own number old
    · have inside := List.mem_range'_1.mp new
      omega
  · rw [hands.handed, List.map_append, sent.stamps, encoded_stamps _ collected, List.zipIdx_append, List.map_append,
      Nat.zero_add]
  · rw [hands.offered, sent.offered, length_encoded, List.length_append, List.length_range']
  · rw [hands.completed, hands.handed]
    apply sent.finished.append
    rcases done with ⟨rfl, _⟩ | ⟨rfl, _⟩
    · exact List.nil_sublist _
    · exact List.Sublist.refl _
  · rw [hands.lateness, sent.lateness, hands.completed, List.countP_append]
    rcases done with ⟨rfl, rfl⟩ | ⟨rfl, rfl⟩
    · rfl
    · rw [encoded_in_window paced collected]

end Batch

private theorem gridEnd_le_end (paced : config.Paced rate) : slotGridEndNs config.window ≤ config.window.endNs := by
  have proper := paced.proper
  unfold slotGridEndNs
  omega

/-- Once the loop has ended, every slot of the connection is offered or missed. -/
structure Settled (law : hdr.Behaviour) (config : GenConfig) (connId : UInt32) (rate : Nat) (slots : List Nat)
    (world : World hdr allocator) : Prop where
  sent : Sent law config connId rate slots world
  balance : world.counters.offered + world.counters.missedSlots = config.ownSlots connId rate

private theorem Accounted.settle {count : Nat} (accounted : Accounted law config connId rate slotK slots world)
    (moves : Moves count world after) (rest : slotK + count = config.ownSlots connId rate) :
    Settled law config connId rate slots after := by
  refine ⟨accounted.sent.moves moves, ?_⟩
  rw [moves.offered, moves.missed, ← rest, ← accounted.balance, Nat.add_assoc]

/-- Between collecting a batch and sending it: its slots are the only ones below the next
that are neither offered nor missed. -/
structure Pending (law : hdr.Behaviour) (config : GenConfig) (connId : UInt32) (rate slotK reached : Nat) (batch : List Slot)
    (slots : List Nat) (world : World hdr allocator) : Prop where
  sent : Sent law config connId rate slots world
  before : ∀ sent ∈ slots, sent < slotK
  collected : Collected config connId rate slotK reached batch
  balance : world.counters.offered + world.counters.missedSlots + batch.length = reached

section Turn
variable {reached : Nat} {batch : List Slot}

private theorem Accounted.collect (accounted : Accounted law config connId rate slotK slots world)
    (collected : Collected config connId rate slotK reached batch)
    (moves : Moves (reached - (slotK + batch.length)) world after) :
    Pending law config connId rate slotK reached batch slots after := by
  refine ⟨accounted.sent.moves moves, accounted.before, collected, ?_⟩
  have balance := accounted.balance
  have passed := collected.passed
  rw [moves.offered, moves.missed]
  omega

namespace Pending
variable (pending : Pending law config connId rate slotK reached batch slots world)
include pending

theorem room (paced : config.Paced rate) : slots.length + batch.length ≤ u64Max := by
  have balance := pending.balance
  have within := pending.collected.within
  have small : config.ownSlots connId rate ≤ u64Max := paced.ownSlots_le
  rw [pending.sent.offered] at balance
  omega

private theorem none_left (empty : batch = []) : Accounted law config connId rate reached slots world := by
  subst batch
  refine ⟨pending.sent, fun sent member => ?_, pending.collected.within, pending.balance⟩
  have passed := pending.collected.passed
  have earlier := pending.before sent member
  omega

theorem hands {finished : List Publication} {late : Nat} (paced : config.Paced rate)
    (hands : Hands law (encoded config connId slots.length batch) finished late world after)
    (done : finished = [] ∧ late = 0 ∨ finished = encoded config connId slots.length batch ∧
      late = batch.countP fun slot => config.window.contains slot.2) :
    Accounted law config connId rate reached (slots ++ List.range' slotK batch.length) after := by
  have passed := pending.collected.passed
  refine ⟨pending.sent.hands paced pending.before pending.collected hands done, fun sent member => ?_,
    pending.collected.within, ?_⟩
  · rcases List.mem_append.mp member with old | new
    · have earlier := pending.before sent old
      omega
    · have inside := List.mem_range'_1.mp new
      omega
  · have balance := pending.balance
    rw [hands.offered, hands.missed, length_encoded]
    omega

theorem drop (moves : Moves (batch.length + (config.ownSlots connId rate - reached)) world after) :
    Settled law config connId rate slots after := by
  refine ⟨pending.sent.moves moves, ?_⟩
  have balance := pending.balance
  have within := pending.collected.within
  rw [moves.offered, moves.missed]
  omega

end Pending
end Turn

/-- Why the loop stops without returning. -/
def Stopped (config : GenConfig) (rate fuel : Nat) (world : World hdr allocator) (reason : Stop) : Prop :=
  reason = .aborted ∨ reason = .unfinished ∧ ¬Enough config.window.endNs world fuel ∨
    (∃ cause, reason = .panicked cause) ∧ ¬config.SlotsFit rate

theorem Stopped.earlier {fuel less : Nat} {reason : Stop} (stopped : Stopped config rate less after reason)
    (enough : Enough config.window.endNs world fuel → Enough config.window.endNs after less) :
    Stopped config rate fuel world reason :=
  stopped.imp_right (Or.imp_left fun used => ⟨used.1, fun lasts => used.2 (enough lasts)⟩)

theorem pacerLoop_ensures (law : hdr.Behaviour) (paced : config.Paced rate) (member : connId < config.connections)
    (fuel : Nat) (accounted : Accounted law config connId rate slotK slots world) :
    Ensures (pacerLoop config connId rate fuel slotK slots.length) world
      (fun _ after => ∃ slots, Settled law config connId rate slots after)
      (fun reason after => Stopped config rate (fuel - 1) world reason ∧ ∃ slots, Sent law config connId rate slots after) := by
  induction fuel generalizing slotK slots world with
  | zero =>
    refine .throw ⟨.inr (.inl ⟨rfl, fun enough => ?_⟩), slots, accounted.sent⟩
    exact absurd enough.some (by omega)
  | succ fuel ih =>
    refine Ensures.bind (slotDue_ensures paced member accounted.within world fun unfit cause =>
      ⟨.inr (.inr ⟨⟨cause, rfl⟩, unfit⟩), slots, accounted.sent⟩) ?_
    rintro dueNs current ⟨rfl, rfl, before⟩
    split
    next late =>
      refine .pure ⟨slots, accounted.sent, ?_⟩
      have all := accounted.within
      have none := mt before.mpr (Nat.not_lt.mpr late)
      have balance := accounted.balance
      omega
    next early =>
    have own : slotK < config.ownSlots connId rate := before.mp (Nat.not_le.mp early)
    have inTime : dueAt config connId rate slotK ≤ config.window.endNs :=
      Nat.le_trans (Nat.le_of_not_le early) (gridEnd_le_end paced)
    refine (pacerWait_ensures fuel _ inTime current).seq ?_ ?_
    · rintro reason stopped ⟨quiet, cause⟩
      exact ⟨cause.imp_right .inl, slots, accounted.sent.moves quiet⟩
    rintro _ waited ⟨quiet, later⟩
    apply Ensures.bind (monotonicNowNs_ensures config waited)
    rintro now clocked ⟨rfl, still, _⟩
    have idle : Quiet current clocked := quiet.trans still
    split
    next passed =>
      apply Ensures.bind (countRemainingMissed_ensures paced slotK clocked)
      intro _ counted missed
      refine .pure ⟨slots, accounted.settle (idle.trans missed) ?_⟩
      omega
    next inside =>
    -- A turn that goes on has seen the clock before the end of the window.
    have goesOn (next : World hdr allocator) (env : next.env = current.env) (ticks : current.tick < next.tick)
        (enough : Enough config.window.endNs current fuel) : Enough config.window.endNs next (fuel - 1) := by
      have some := enough.some
      obtain ⟨rest, rfl⟩ : ∃ rest, fuel = rest + 1 := ⟨fuel - 1, by omega⟩
      exact enough.next env ticks (Nat.le_of_lt later) (by rw [← quiet.env]; exact Nat.not_le.mp inside)
    refine Ensures.bind (latencyCollectBatch_ensures paced member batchMax slotK [] accounted.within clocked
      fun unfit cause stopped more => ⟨.inr (.inr ⟨⟨cause, rfl⟩, unfit⟩), slots, accounted.sent.moves (idle.trans more)⟩) ?_
    rintro ⟨reached, batch⟩ full ⟨taken, same, collected, moves⟩
    obtain rfl : batch = taken := same
    have filled := idle.trans moves
    rw [Nat.zero_add] at filled
    have pending := accounted.collect collected filled
    have ticks : current.tick < full.tick := Nat.lt_of_lt_of_le later (still.trans moves).tick
    dsimp only
    split
    next empty =>
      apply (ih (pending.none_left (List.isEmpty_iff.mp empty))).weaken (fun _ _ => id)
      rintro reason stopped ⟨cause, sent⟩
      exact ⟨cause.earlier (goesOn full filled.env ticks), sent⟩
    next =>
    have room := pending.room paced
    apply Ensures.bind (latencyEncodeBatch_ensures batch collected.ids slots.length room full)
    rintro _ encodedAt ⟨rfl, rfl⟩
    have few := card_lateness_le pending.sent
    refine Ensures.bind ((latencySendBatch_ensures law batch _ (length_encoded _ _) encodedAt (by omega)).weaken
      (fun _ _ => id) ?_) ?_
    · rintro reason stopped ⟨cause, hands⟩
      exact ⟨.inl cause, _, (pending.hands paced hands (.inl ⟨rfl, rfl⟩)).sent⟩
    intro outcome sentAt sends
    cases outcome with
    | sent =>
      have hands : Hands law _ _ _ encodedAt sentAt := sends
      have account := pending.hands paced hands (.inr ⟨rfl, rfl⟩)
      have numbered : slots.length + batch.length = (slots ++ List.range' slotK batch.length).length := by
        rw [List.length_append, List.length_range']
      dsimp only
      rw [numbered]
      apply (ih account).weaken (fun _ _ => id)
      rintro reason stopped ⟨cause, sent⟩
      exact ⟨cause.earlier (goesOn sentAt (hands.env.trans filled.env) (Nat.lt_trans ticks hands.tick)), sent⟩
    | windowEnded =>
      have quiet : Quiet encodedAt sentAt := sends
      apply Ensures.bind (latencyDropBatch_ensures paced batch reached sentAt)
      intro _ dropped missed
      have all := quiet.trans missed
      rw [Nat.zero_add] at all
      exact .pure ⟨slots, pending.drop all⟩
    | failed cause =>
      have account := pending.hands paced sends (.inl ⟨rfl, rfl⟩)
      apply Ensures.bind (countRemainingMissed_ensures paced reached sentAt)
      intro _ counted missed
      refine .pure ⟨_, account.settle missed ?_⟩
      have within := collected.within
      dsimp only at within ⊢
      omega

theorem accounted_start (law : hdr.Behaviour) (config : GenConfig) (connId : UInt32) (rate : Nat) (env : Nat → Moment) :
    Accounted law config connId rate 0 [] (World.spawned hdr allocator env).start := by
  refine ⟨⟨List.Pairwise.nil, fun _ none => absurd none List.not_mem_nil, rfl, rfl, List.Sublist.refl _, ?_⟩,
    fun _ none => absurd none List.not_mem_nil, Nat.zero_le _, rfl⟩
  change (law.samples hdr.new).card + 0 = 0
  rw [law.new_samples, Multiset.card_zero]

private theorem latencyPacer_ensures (law : hdr.Behaviour) (paced : config.Paced rate) (member : connId < config.connections)
    (env : Nat → Moment) (fuel : Nat) :
    Ensures (latencyPacer config connId rate fuel) (World.spawned hdr allocator env).start
      (fun _ after => ∃ slots, Settled law config connId rate slots after)
      (fun reason after => Stopped config rate (fuel - 1) (World.spawned hdr allocator env).start reason ∧
        ∃ slots, Sent law config connId rate slots after) :=
  pacerLoop_ensures law paced member fuel (accounted_start law config connId rate env)

def ownDue (config : GenConfig) (connId : UInt32) (rate : Nat) : Set Nat :=
  {slotK | ∃ due, slotDueNs connId.toNat slotK config.connections.toNat rate config.originNs.toNat = some due ∧
    due < slotGridEndNs config.window}

/-- Every slot of an open-loop run is accounted for exactly once. For each connection,
whatever the clock, the packet ids and the writes do: a pacer that returns has offered
some of its slots, in order, each with its own due time and the next number, and has
counted all its others as missed; it never panics, and it ends once the clock has passed
the window, unless it is cancelled. Over all connections the slots are those of the
schedule. -/
theorem latency_slots_accounted_once (law : hdr.Behaviour) {rate : UInt64} (mode : config.mode = .latency rate)
    (valid : config.validate = .ok ())
    (fits : slotGridEndNs config.window - config.originNs.toNat +
      config.connections.toNat * 1000000000 / rate.toNat < 2 ^ 64) :
    (∀ connId < config.connections, ∀ env : Nat → Moment, Monotone (fun moment => (env moment).nowNs) →
      (∀ fuel, Ensures (latencyPacer config connId rate.toNat fuel) (World.spawned hdr allocator env).start
        (fun _ after => ∃ slots : List Nat,
          after.counters.offered + after.counters.missedSlots = (ownDue config connId rate.toNat).ncard ∧
          after.counters.offered = slots.length ∧
          slots.Pairwise (· < ·) ∧ (∀ slotK ∈ slots, slotK ∈ ownDue config connId rate.toNat) ∧
          (after.handed.map Publication.stamp =
            slots.zipIdx.map fun entry => ⟨connId, .ofNat entry.2, .ofNat (dueAt config connId rate.toNat entry.1)⟩) ∧
          ((hdr.buckets after.lateness).map Prod.snd).sum + after.counters.latenessOverRange =
            after.completed.countP fun publication => config.window.contains publication.stamp.scheduledNs.toNat)
        (fun reason _ => reason = .aborted ∨ reason = .unfinished)) ∧
      ((∃ moment, config.window.endNs ≤ (env moment).nowNs) → ∃ enough, ∀ fuel, enough ≤ fuel →
        Ensures (latencyPacer config connId rate.toNat fuel) (World.spawned hdr allocator env).start (fun _ _ => True)
          (fun reason _ => reason = .aborted))) ∧
    ∃ scheduled windowScheduled,
      slotCounts rate.toNat config.originNs.toNat config.window = some (scheduled, windowScheduled) ∧
      ((List.range config.connections.toNat).map fun number => (ownDue config (.ofNat number) rate.toNat).ncard).sum =
        scheduled ∧
      Set.ncard {j | ∃ due, slotDueNs (j % config.connections.toNat) (j / config.connections.toNat)
          config.connections.toNat rate.toNat config.originNs.toNat = some due ∧
        config.window.startNs ≤ due ∧ due < slotGridEndNs config.window} = windowScheduled := by
  have paced := GenConfig.paced_of_validate mode valid
  refine ⟨fun connId member env monotone => ⟨fun fuel => ?_, fun passes => ?_⟩, ?_⟩
  · apply (latencyPacer_ensures law paced member env fuel).weaken
    · rintro _ after ⟨slots, sent, balance⟩
      refine ⟨slots, ?_, sent.offered, sent.increasing, fun slotK inside => ?_, sent.stamps, ?_⟩
      · rw [balance, ownDue, paced.ncard_ownSlots]
      · exact paced.lt_ownSlots.mp (sent.own slotK inside)
      · rw [law.buckets_total, sent.lateness]
    · rintro reason _ ⟨cause, _⟩
      exact cause.imp_right fun other => (other.resolve_right fun unfit => unfit.2 fits).1
  · obtain ⟨passed, reached⟩ := passes
    refine ⟨passed + 2, fun fuel enough => ?_⟩
    apply (latencyPacer_ensures law paced member env fuel).weaken
    · exact fun _ _ _ => trivial
    · rintro reason _ ⟨cause, _⟩
      refine (cause.resolve_right fun other => ?_)
      refine (other.resolve_right fun unfit => unfit.2 fits).2 ⟨by omega, fun moment later => ?_⟩
      refine Nat.le_trans reached (monotone ?_)
      change 0 + (fuel - 1) ≤ moment + 1 at later
      omega
  · obtain ⟨windowScheduled, counted, inWindow⟩ := paced.slotCounts_exact
    refine ⟨_, windowScheduled, counted, ?_, inWindow⟩
    rw [← paced.sum_ownSlots]
    simp only [ownDue, paced.ncard_ownSlots]

def twoConnections : GenConfig where
  mode := .latency 1000
  qos := 1
  connections := 2
  qos1Window := 8
  originNs := 1000000000
  window := ⟨1000000000, 1020000000⟩
  drainGraceNs := 5000000000
  window_fits := ⟨Nat.le_of_ble_eq_true rfl, Nat.le_of_ble_eq_true rfl⟩

def steadyWrites (moment : Nat) : Moment := ⟨1000000000 + 1000000 * (moment / 64) + moment % 64, [], .done, none, false, false⟩

theorem latency_slots_accounted_once_two :
    twoConnections.validate = .ok () ∧
    (∃ enough, ∀ fuel, enough ≤ fuel →
      Ensures (latencyPacer twoConnections 1 1000 fuel) (World.spawned unitBuckets packetIds steadyWrites).start
        (fun _ _ => True) (fun reason _ => reason = .aborted)) ∧
    ((List.range 2).map fun number => (ownDue twoConnections (.ofNat number) 1000).ncard).sum = 10 := by
  have valid : twoConnections.validate = .ok () := rfl
  have monotone : Monotone (fun moment => (steadyWrites moment).nowNs) :=
    fun _ _ _ => by simp only [steadyWrites]; omega
  obtain ⟨each, scheduled, windowScheduled, counted, total, _⟩ :=
    @latency_slots_accounted_once unitBuckets packetIds twoConnections unitBucketsBehaviour 1000 rfl valid (by decide)
  refine ⟨valid, (each 1 (by decide) steadyWrites monotone).2 ⟨1280, by decide⟩, ?_⟩
  have schedule : slotCounts 1000 1000000000 twoConnections.window = some (10, 10) := by decide +kernel
  have same := Option.some.inj (counted.symm.trans schedule)
  exact total.trans (congrArg Prod.fst same)

end UringMqtt.Bench

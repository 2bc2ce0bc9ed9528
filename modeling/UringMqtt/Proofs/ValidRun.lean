import UringMqtt.Proofs.CleanRecorder
import UringMqtt.Proofs.ConnectionEnd
import UringMqtt.Proofs.Reconciled
import Mathlib.Algebra.Order.BigOperators.Group.List

/-! A publishing run without a reason against it delivered every publish exactly once. -/

namespace UringMqtt.Bench
open Lib

def Call.payload : Call → Option Bytes
  | .arm .. => none
  | .record payload _ _ | .recordOnTopic _ payload _ _ => some payload

private theorem Call.arrival_payload {connections : UInt32} {call : Call} {arrival : Arrival}
    (found : call.arrival connections = some arrival) :
    ∃ payload, call.payload = some payload ∧ Stamp.decode payload = some arrival.stamp := by
  cases call with
  | arm => cases found
  | record payload => exact ⟨payload, rfl, (arrivalOf_stamp found).1⟩
  | recordOnTopic on payload =>
    rw [Call.arrival] at found
    split at found
    · exact ⟨payload, rfl, (arrivalOf_stamp found).1⟩
    · cases found

def connIds (connections : UInt32) : List UInt32 := (List.range connections.toNat).map .ofNat

/-- A publishing run as the runner sees it. The connections end somehow and are joined in
some order; the endpoint hands its recorder any payloads the generator wrote, as often and
whenever it likes. -/
structure PublishingRun (hdr : Hdr) (f64 : F64) where
  context : RunContext f64
  config : GenConfig
  env : UInt32 → Nat → Moment
  ended : UInt32 → TaskEnd × World hdr packetIds
  order : List UInt32
  around : Surroundings
  generator : GenReport
  recorded : UInt32
  calls : List Call
  delivery : DeliveryReport
  endpoint : EndpointReport
  publishes : context.spec.kind.publishes = true
  mode : config.mode = context.spec.generatorMode
  qos : config.qos = context.spec.generatorQos
  ends : ∀ connId ∈ connIds config.connections, Ends config connId (env connId) (ended connId)
  joined : order.Perm (connIds config.connections)
  generated : runGenerator config around (order.map ended) = some (.ok generator)
  reported : reportAfter hdr recorded calls = some delivery
  dropping : endpoint.delivery = { delivery with dropped := endpoint.delivery.dropped }
  written : ∀ call ∈ calls, ∀ payload, call.payload = some payload →
    ∃ connId ∈ connIds config.connections, ∃ publication ∈ (ended connId).2.handed, payload = publication.stamp.encode

namespace PublishingRun
variable {hdr : Hdr} {f64 : F64} (self : PublishingRun hdr f64)

def handed (connId : UInt32) : List Publication := (self.ended connId).2.handed

def sent : List (UInt32 × UInt64) := (connIds self.config.connections).flatMap fun connId => (self.handed connId).map Publication.key

def received : List (UInt32 × UInt64) := (arrivals self.recorded self.calls).map Arrival.key

def record : RunRecord f64 := finalizeRecord self.context (some self.endpoint) (some self.generator)

end PublishingRun

section Sums
variable {α : Type} {list : List α} {less more : α → Nat}

private theorem eq_of_sum_le (each : ∀ element ∈ list, less element ≤ more element)
    (total : (list.map more).sum ≤ (list.map less).sum) : ∀ element ∈ list, less element = more element := by
  induction list with
  | nil => exact fun _ member => absurd member List.not_mem_nil
  | cons first rest ih =>
    have here := each first List.mem_cons_self
    have later (element : α) (member : element ∈ rest) := each element (List.mem_cons_of_mem _ member)
    have fewer : (rest.map less).sum ≤ (rest.map more).sum := List.sum_le_sum later
    simp only [List.map_cons, List.sum_cons] at total
    intro element member
    rcases List.mem_cons.mp member with rfl | member
    · omega
    · exact ih later (by omega) element member

theorem eq_zero_of_sum {weight : α → Nat} (none : (list.map weight).sum = 0) : ∀ element ∈ list, weight element = 0 := by
  exact fun element member => List.sum_eq_zero_iff.mp none _ (List.mem_map_of_mem member)

private theorem map_some_filterMap {β : Type} {value : α → Option β} (all : (list.filterMap value).length = list.length) :
    (list.filterMap value).map some = list.map value := by
  have each := List.filterMap_length_eq_length.mp all
  rw [List.map_filterMap_some_eq_filter_map_isSome, List.filter_eq_self]
  intro found member
  obtain ⟨element, inside, rfl⟩ := List.mem_map.mp member
  exact each element inside

end Sums

theorem Books.acknowledged {hdr : Hdr} {allocator : Allocator} {ids : allocator.Lawful} {world : World hdr allocator}
    (books : Books ids world) (none : world.pending = []) :
    world.counters.acked ≤ world.counters.offered ∧
      (world.counters.acked = world.counters.offered → (ackedIds world.log).Perm (offeredIds world.log)) := by
  have fewer : (ackedIds world.log).Subperm (offeredIds world.log) := by
    rw [List.subperm_ext_iff]
    intro id _
    have count := books.count id
    rw [none, List.count_nil] at count
    omega
  rw [books.acked, books.offered]
  exact ⟨fewer.length_le, fun same => fewer.perm_of_length_le same.ge⟩

private theorem mem_connIds {connections connId : UInt32} : connId ∈ connIds connections ↔ connId < connections := by
  rw [connIds, List.mem_map]
  constructor
  · rintro ⟨number, below, rfl⟩
    have small := List.mem_range.mp below
    have exact : (UInt32.ofNat number).toNat = number := UInt32.toNat_ofNat_of_lt' (Nat.lt_trans small connections.toNat_lt)
    rwa [UInt32.lt_iff_toNat_lt, exact]
  · exact fun below => ⟨connId.toNat, List.mem_range.mpr below, UInt32.ofNat_toNat⟩

namespace PublishingRun
variable {hdr : Hdr} {f64 : F64} (self : PublishingRun hdr f64)

theorem sum_joined (count : TaskEnd × World hdr packetIds → Nat) :
    ((self.order.map self.ended).map count).sum =
      ((connIds self.config.connections).map fun connId => count (self.ended connId)).sum := by
  rw [List.map_map]
  exact (self.joined.map _).sum_eq

theorem totals : Totals self.config (self.order.map self.ended) self.generator := totals_of_report self.generated

theorem mode_publishes : self.config.mode ≠ .connections := by
  have publishes := self.publishes
  rw [self.mode, RunSpec.generatorMode]
  cases kind : self.context.spec.kind with
  | throughput | latency | counted =>
    intro same
    cases same
  | connections =>
    rw [kind] at publishes
    cases publishes

private theorem arrival_sent {arrival : Arrival} (member : arrival ∈ arrivals self.recorded self.calls) : arrival.key ∈ self.sent := by
  obtain ⟨call, kept, found⟩ := List.mem_filterMap.mp member
  obtain ⟨payload, handedOver, decoded⟩ := Call.arrival_payload found
  obtain ⟨connId, inside, publication, published, rfl⟩ :=
    self.written call ((List.dropWhile_sublist _).subset kept) payload handedOver
  rw [Stamp.decode_encode] at decoded
  refine List.mem_flatMap.mpr ⟨connId, inside, List.mem_map.mpr ⟨publication, published, ?_⟩⟩
  rw [Publication.key, Arrival.key, Option.some.inj decoded]

variable {self}

section Valid
variable (balanced : Balanced self.record)
include balanced

variable {connId : UInt32}

theorem returned (member : connId ∈ connIds self.config.connections) :
    (self.ended connId).1 = .returned := by
  have place : self.ended connId ∈ self.order.map self.ended := List.mem_map_of_mem (self.joined.mem_iff.mpr member)
  have unpanicked := self.totals.unpanicked _ place
  have stalled : self.generator.stalled = 0 := balanced.stalled
  rw [self.totals.stalled, Nat.add_eq_zero_iff, List.count_eq_zero] at stalled
  cases how : (self.ended connId).1 with
  | returned => rfl
  | cancelled => exact absurd (how ▸ List.mem_map_of_mem place) stalled.2
  | panicked cause =>
    rw [how] at unpanicked
    cases unpanicked

theorem completed (law : hdr.Behaviour) (member : connId ∈ connIds self.config.connections) :
    Completed packetIdsLawful self.config connId (self.ended connId).2 :=
  (self.ends connId member).completed law packetIdsLawful self.totals.valid (mem_connIds.mp member)
    (returned balanced member)

theorem offered_eq (law : hdr.Behaviour) : self.generator.offered = self.sent.length := by
  rw [self.totals.offered, self.sum_joined, sent, List.length_flatMap]
  refine congrArg List.sum (List.map_congr_left fun connId member => ?_)
  rw [(completed balanced law member).offered, List.length_map, handed]

theorem reported_clean : self.delivery.foreign = 0 ∧ self.delivery.duplicates = 0 ∧ self.delivery.delivered ≤ u64Max := by
  have foreign : self.delivery.foreign = 0 :=
    (congrArg DeliveryReport.foreign self.dropping).symm.trans balanced.foreign
  have duplicates : self.delivery.duplicates = 0 :=
    (congrArg DeliveryReport.duplicates self.dropping).symm.trans balanced.duplicates
  obtain ⟨recorder, _, made⟩ := Option.bind_eq_some_iff.mp self.reported
  exact ⟨foreign, duplicates, (Recorder.clean_of_report made foreign duplicates).2⟩

theorem delivered_eq : self.delivery.delivered = self.generator.offered ∧ self.generator.offered ≤ u64Max ∧
    self.endpoint.delivery.dropped.getD 0 = 0 := by
  have dropped : self.endpoint.delivery.dropped.getD 0 = 0 := balanced.dropped self.publishes
  have same : self.endpoint.delivery.delivered = self.delivery.delivered :=
    (congrArg DeliveryReport.delivered self.dropping).trans rfl
  have within : saturatingAdd self.endpoint.delivery.delivered (self.endpoint.delivery.dropped.getD 0) ≤
      self.generator.offered := balanced.within self.publishes
  have unresolved : self.generator.offered - self.endpoint.delivery.delivered - self.endpoint.delivery.dropped.getD 0 = 0 :=
    balanced.unresolved self.publishes
  have small := (reported_clean balanced).2.2
  rw [same, dropped] at within unresolved
  unfold saturatingAdd at within
  omega

private theorem received_perm (law : hdr.Behaviour) : self.received.Perm self.sent ∧ self.received.Nodup ∧
    deliveries self.calls = self.sent.length := by
  obtain ⟨foreign, duplicates, _⟩ := reported_clean balanced
  obtain ⟨delivered, small, _⟩ := delivered_eq balanced
  have size := offered_eq balanced law
  obtain ⟨all, counted, once⟩ := reportAfter_once law self.reported foreign duplicates (size ▸ small)
    fun arrival => self.arrival_sent
  have subset : self.received ⊆ self.sent := by
    intro key member
    obtain ⟨arrival, arrived, rfl⟩ := List.mem_map.mp member
    exact self.arrival_sent arrived
  exact ⟨(List.subperm_of_subset once subset).perm_of_length_le (by rw [List.length_map]; omega), once, by omega⟩

theorem missed_none (member : connId ∈ connIds self.config.connections) :
    self.config.mode = .throughput ∨ (self.ended connId).2.counters.missedSlots = 0 := by
  have missed := balanced.missed
  change self.context.spec.kind.isOpenLoop = true → self.generator.missedSlots = 0 at missed
  have closed := self.mode_publishes
  rw [self.mode, RunSpec.generatorMode] at closed ⊢
  rw [self.totals.missed, self.sum_joined] at missed
  cases kind : self.context.spec.kind with
  | throughput => exact .inl rfl
  | latency | counted => exact .inr (eq_zero_of_sum (missed (by rw [kind]; rfl)) connId member)
  | connections =>
    rw [kind] at closed
    exact absurd rfl closed

theorem acknowledged (law : hdr.Behaviour) (reliable : self.config.qos = 1) (member : connId ∈ connIds self.config.connections) :
    ((ackedIds (self.ended connId).2.log).map some).Perm ((self.handed connId).map Publication.packetId) := by
  have books (connId : UInt32) (member : connId ∈ connIds self.config.connections) :=
    (completed balanced law member).acks reliable (missed_none balanced member)
  have quality : self.context.spec.qos = some 1 := by
    have same := self.qos.symm.trans reliable
    unfold RunSpec.generatorQos at same
    cases level : self.context.spec.qos with
    | none =>
      rw [level] at same
      cases same
    | some value =>
      rw [level] at same
      exact congrArg some same
  have acked : self.generator.acked = some self.generator.offered := balanced.acked quality self.publishes
  rw [self.totals.acked self.mode_publishes reliable, self.totals.offered, self.sum_joined, self.sum_joined] at acked
  have even := eq_of_sum_le (fun connId member => ((books connId member).1.acknowledged (books connId member).2).1)
    (Option.some.inj acked).ge connId member
  obtain ⟨own, none⟩ := books connId member
  have perm := (own.acknowledged none).2 even
  rw [own.handed] at perm
  refine (perm.map some).trans (.of_eq (map_some_filterMap ?_))
  rw [← own.handed, ← own.offered, (completed balanced law member).offered]

private theorem scheduled (law : hdr.Behaviour) {rate : UInt64} (paced : self.config.mode = .latency rate)
    (member : connId ∈ connIds self.config.connections) {slotK : Nat} (due : slotK ∈ ownDue self.config connId rate.toNat) :
    ⟨connId, .ofNat slotK, .ofNat (dueAt self.config connId rate.toNat slotK)⟩ ∈ (self.handed connId).map Publication.stamp := by
  have connect : self.generator.connectErrors = 0 := balanced.connect
  rw [self.totals.connect, self.sum_joined] at connect
  have missed := (missed_none balanced member).resolve_left fun closed => by
    rw [paced] at closed
    cases closed
  have all := (completed balanced law member).slots rate paced missed (eq_zero_of_sum connect connId member)
  rw [handed, all]
  refine List.mem_map.mpr ⟨slotK, List.mem_range.mpr ?_, rfl⟩
  exact (GenConfig.paced_of_validate paced self.totals.valid).lt_ownSlots.mpr due

end Valid

/-- A run judged valid delivered every publish exactly once. Whatever is lost, repeated,
reordered or delayed on the way and whichever writes fail: with no reason against the run
the recorder received the publishes handed to the sockets, each once, and nothing else;
none was dropped and the totals are equal as numbers; every QoS 1 publish was acknowledged;
every slot of an open-loop schedule was sent. -/
theorem delivered_exactly_once (law : hdr.Behaviour) (self : PublishingRun hdr f64) (valid : reconcile self.record = []) :
    self.received.Perm self.sent ∧ self.received.Nodup ∧
    self.delivery.foreign = 0 ∧ deliveries self.calls = self.received.length ∧
    self.endpoint.delivery.dropped.getD 0 = 0 ∧
    self.endpoint.delivery.delivered + self.endpoint.delivery.dropped.getD 0 = self.generator.offered ∧
    self.generator.offered = self.sent.length ∧
    (∀ connId ∈ connIds self.config.connections,
      (self.handed connId).map Publication.key = numbered connId 0 (self.handed connId).length ∧
      (self.config.qos = 1 →
        ((ackedIds (self.ended connId).2.log).map some).Perm ((self.handed connId).map Publication.packetId)) ∧
      ∀ rate, self.config.mode = .latency rate → ∀ slotK ∈ ownDue self.config connId rate.toNat,
        ⟨connId, .ofNat slotK, .ofNat (dueAt self.config connId rate.toNat slotK)⟩ ∈
          (self.handed connId).map Publication.stamp) := by
  have balanced := balanced_of_reconcile valid
  obtain ⟨perm, once, all⟩ := received_perm balanced law
  obtain ⟨delivered, _, dropped⟩ := delivered_eq balanced
  have same : self.endpoint.delivery.delivered = self.delivery.delivered :=
    (congrArg DeliveryReport.delivered self.dropping).trans rfl
  refine ⟨perm, once, (reported_clean balanced).1, by rw [all, perm.length_eq], dropped, ?_, offered_eq balanced law,
    fun connId member => ⟨(completed balanced law member).keys, fun reliable => acknowledged balanced law reliable member,
      fun rate paced slotK due => scheduled balanced law paced member due⟩⟩
  rw [same, dropped, delivered, Nat.add_zero]

end PublishingRun

def exactNumbers : F64 where
  Value := Rat
  ofNat number := number
  literal mantissa decimals := mkRat mantissa (10 ^ decimals)
  sub one two := one - two
  mul one two := one * two
  div one two := one / two
  abs value := if value < 0 then -value else value
  lt one two := decide (one < two)
  le one two := decide (one ≤ two)
  ceil value := value.ceil.toNat
  debug _ := ""
  tenths _ := ""

def oneSecondRun : RunContext exactNumbers where
  spec := ⟨.smoke, .tokio, 1, some 1, .throughput, none, 0, 0⟩
  host := ⟨.none, ⟨"", ""⟩, ⟨"", "", "", "", false, []⟩⟩
  constants := ⟨0, 1, 1, 2, 1, false⟩
  harnessErrors := []
  build := .release
  timing := ⟨1000000000, ⟨1000000000, 2000000000⟩⟩
  driver := none
  cpu := none
  syscalls := none
  nowNs := 0
  startedAtUnix := 0

def oneSecondConfig : GenConfig where
  mode := .throughput
  qos := 1
  connections := 2
  qos1Window := 2
  originNs := 1000000000
  window := ⟨1000000000, 2000000000⟩
  drainGraceNs := 2000000000
  window_fits := ⟨Nat.le_of_ble_eq_true rfl, Nat.le_of_ble_eq_true rfl⟩

private theorem second_nonzero : (65 : UInt16) ≠ 0 := by decide

/-- A window of two publishes, acknowledged the other way round. -/
def twoPublishes (moment : Nat) : Moment where
  nowNs := if moment < 10 then 1000000000 else 2000000000
  frames := if moment = 11 then [.puback ⟨65, second_nonzero⟩, .puback firstId] else []
  written := .done
  session := none
  elapsed := true
  aborted := false

def twoPublishesRan (connId : UInt32) : Option (TaskEnd × World unitBuckets packetIds) :=
  taskEnd (runThroughputConnection oneSecondConfig connId 5 (World.spawned unitBuckets packetIds twoPublishes))

def twoPublishesEnd (connId : UInt32) : TaskEnd × World unitBuckets packetIds :=
  (twoPublishesRan connId).getD (.cancelled, World.spawned unitBuckets packetIds twoPublishes)

private theorem twoPublishes_ends : ∀ connId ∈ connIds 2, Ends oneSecondConfig connId twoPublishes (twoPublishesEnd connId) := by
  have ran : ∀ connId ∈ connIds 2, (twoPublishesRan connId).isSome := List.all_eq_true.mp (by decide +kernel)
  exact fun connId member =>
    ⟨5, _, rfl, (Option.some_get (ran connId member)).symm.trans (congrArg some (Option.get_eq_getD _))⟩

def fourDeliveries : List Call :=
  [.arm 1000000000 ⟨1000000000, 2000000000⟩ 1000000000,
    .recordOnTopic topic (Stamp.encode ⟨1, 0, 1000000000⟩) 1000000400 1,
    .recordOnTopic topic (Stamp.encode ⟨0, 1, 1000000000⟩) 1000000700 2,
    .recordOnTopic topic (Stamp.encode ⟨0, 0, 1000000000⟩) 1000000700 2,
    .recordOnTopic topic (Stamp.encode ⟨1, 1, 1000000000⟩) 1000000900 1]

def fourDelivered : DeliveryReport := ⟨4, 0, 0, 0, 0, none, ⟨1, [4]⟩, [(400, 1), (700, 2), (900, 1)]⟩

private theorem fourDeliveries_reported : reportAfter unitBuckets 2 fourDeliveries = some fourDelivered := by decide +kernel

private theorem fourDeliveries_written : ∀ call ∈ fourDeliveries, ∀ payload ∈ call.payload,
    ∃ connId ∈ connIds 2, ∃ publication ∈ (twoPublishesEnd connId).2.handed, payload = publication.stamp.encode := by
  have found : ∀ call ∈ fourDeliveries, ∀ payload ∈ call.payload, ((connIds 2).any fun connId =>
      (twoPublishesEnd connId).2.handed.any fun publication => payload == publication.stamp.encode) = true := by decide +kernel
  simpa only [List.any_eq_true, beq_iff_eq] using found

def fourOffered : GenReport := ⟨none, none, 4, some 4, 0, 0, 0, 0, 0, none, none, []⟩

private theorem fourOffered_generated :
    runGenerator oneSecondConfig ⟨0, true, false⟩ ([1, 0].map twoPublishesEnd) = some (.ok fourOffered) := by
  decide +kernel

def fourPublishesRun : PublishingRun unitBuckets exactNumbers where
  context := oneSecondRun
  config := oneSecondConfig
  env _ := twoPublishes
  ended := twoPublishesEnd
  order := [1, 0]
  around := ⟨0, true, false⟩
  generator := fourOffered
  recorded := 2
  calls := fourDeliveries
  delivery := fourDelivered
  endpoint := ⟨fourDelivered, none⟩
  publishes := rfl
  mode := rfl
  qos := rfl
  ends := twoPublishes_ends
  joined := by decide
  generated := fourOffered_generated
  reported := fourDeliveries_reported
  dropping := rfl
  written := fourDeliveries_written

theorem delivered_exactly_once_four : reconcile fourPublishesRun.record = [] ∧
    fourPublishesRun.received.Perm fourPublishesRun.sent ∧ fourPublishesRun.received = [(1, 0), (0, 1), (0, 0), (1, 1)] ∧
    ((ackedIds (fourPublishesRun.ended 1).2.log).map some).Perm ((fourPublishesRun.handed 1).map Publication.packetId) := by
  have valid : reconcile fourPublishesRun.record = [] := by decide +kernel
  obtain ⟨once, _, _, _, _, _, _, each⟩ := PublishingRun.delivered_exactly_once unitBucketsBehaviour fourPublishesRun valid
  have member : (1 : UInt32) ∈ connIds fourPublishesRun.config.connections := by decide
  exact ⟨valid, once, by decide +kernel, (each 1 member).2.1 (by decide)⟩

end UringMqtt.Bench

import UringMqtt.Proofs.RecorderMerge
import UringMqtt.Proofs.RecorderRun

/-! The recorder's report is exact for any order of calls. -/

namespace UringMqtt.Bench
open Lib

def byConnection (connections : UInt32) (received : List Arrival) : List (List Arrival) :=
  (List.range connections.toNat).map fun number => received.filter fun arrival => arrival.stamp.connId.toNat = number

section Classes
variable {connections : UInt32} {received : List Arrival}

theorem byConnection_perm (inside : ∀ arrival ∈ received, arrival.stamp.connId < connections) :
    (byConnection connections received).flatten.Perm received :=
  perm_classes (fun arrival : Arrival => arrival.stamp.connId.toNat) received connections.toNat inside

private theorem firsts_byConnection_perm (inside : ∀ arrival ∈ received, arrival.stamp.connId < connections) :
    ((byConnection connections received).map (firsts Arrival.key)).flatten.Perm (firsts Arrival.key received) := by
  have same : (byConnection connections received).map (firsts Arrival.key) =
      byConnection connections (firsts Arrival.key received) := by
    rw [byConnection, byConnection, List.map_map]
    apply List.map_congr_left
    intro number _
    exact (Firsts.filter_firsts fun key : UInt32 × UInt64 => decide (key.1.toNat = number)).symm
  rw [same]
  exact byConnection_perm fun arrival member => inside arrival (Firsts.sublist.subset member)

private theorem sum_tally (window : Window) (kept : List (List Arrival)) (fate : Fate) :
    (kept.map fun own => tally window own fate).sum = tally window kept.flatten fate := by
  induction kept with
  | nil => rfl
  | cons own rest ih =>
    rw [List.map_cons, List.sum_cons, ih, List.flatten_cons, tally, tally, tally, List.countP_append]

private theorem sum_firsts (classes : List (List Arrival)) :
    (classes.map fun own => (firsts Arrival.key own).length).sum = (classes.map (firsts Arrival.key)).flatten.length := by
  rw [List.length_flatten, List.map_map]
  rfl

private theorem sum_repeated (classes : List (List Arrival)) :
    (classes.map fun own => (firsts Arrival.key own).length).sum +
      (classes.map fun own => own.length - (firsts Arrival.key own).length).sum = classes.flatten.length := by
  induction classes with
  | nil => rfl
  | cons own rest ih =>
    have fewer : (firsts Arrival.key own).length ≤ own.length := Firsts.sublist.length_le
    simp only [List.map_cons, List.sum_cons, List.flatten_cons, List.length_append]
    omega

end Classes

private theorem Tallied.classes {hdr : Hdr} {law : hdr.Behaviour} {connections : UInt32} {calls : List Call}
    {recorder : Recorder hdr} (counts : Tallied law connections calls recorder) (setting : Nat × Window)
    (chosen : armedBy calls = none ∨ armedBy calls = some setting) :
    List.Forall₂ (fun own shard => ∃ conn, Shard.Recorded law setting.1 setting.2 conn shard own)
      (byConnection connections (arrivals connections calls)) recorder.shards := by
  have sizes : (byConnection connections (arrivals connections calls)).length = recorder.shards.length := by
    rw [byConnection, List.length_map, List.length_range, counts.size]
  refine List.forall₂_iff_get.mpr ⟨sizes, fun number below within => ?_⟩
  have small : number < connections.toNat := counts.size ▸ within
  have exact : (UInt32.ofNat number).toNat = number :=
    UInt32.toNat_ofNat_of_lt' (Nat.lt_trans small connections.toNat_lt)
  refine ⟨UInt32.ofNat number, ?_⟩
  have recorded := counts.shards setting chosen (.ofNat number) (recorder.shards.get ⟨number, within⟩)
    (by rw [exact]; exact List.getElem?_eq_getElem within)
  have own : (byConnection connections (arrivals connections calls)).get ⟨number, below⟩ =
      ownArrivals (.ofNat number) (arrivals connections calls) := by
    simp only [byConnection, List.get_eq_getElem, List.getElem_map, List.getElem_range, ownArrivals]
    apply List.filter_congr
    intro arrival _
    rw [decide_eq_decide, ← UInt32.toNat_inj, exact]
  rwa [own]

def reportAfter (hdr : Hdr) (connections : UInt32) (calls : List Call) : Option DeliveryReport :=
  (calls.foldlM Recorder.call (Recorder.new hdr connections)).bind Recorder.report

/-- A report that counts exactly the first arrivals in `kept`. -/
structure Exact {hdr : Hdr} (law : hdr.Behaviour) (setting : Nat × Window) (kept : List Arrival) (report : DeliveryReport) :
    Prop where
  delivered : report.delivered = kept.length
  anomalies : report.clockAnomalies = tally setting.2 kept .anomaly
  overRange : report.latencyOverRange = tally setting.2 kept .overRange
  dropped : report.dropped = none
  timeline : Bins.Logged setting.1 (kept.map Arrival.second) report.timeline.originSec report.timeline.counts
  latency : ∃ merged, Merged law merged (Multiset.map law.top (latencies setting.2 kept)) ∧
    report.latency = (merged.map hdr.buckets).getD []

section Reports
variable {hdr : Hdr} {law : hdr.Behaviour} {connections : UInt32} {calls : List Call} {recorder : Recorder hdr}

private theorem outside_tally (window : Window) (kept : List Arrival) :
    (kept.countP fun arrival =>
      arrival.stamp.scheduledNs.toNat ≤ arrival.nowNs ∧ ¬window.contains arrival.stamp.scheduledNs.toNat) =
      tally window kept .outside := by
  apply List.countP_congr
  intro arrival _
  simp only [decide_eq_true_eq, Arrival.fate]
  by_cases early : arrival.stamp.scheduledNs.toNat > arrival.nowNs
  · simp [early, Nat.not_le.mpr early]
  · by_cases inside : window.contains arrival.stamp.scheduledNs.toNat
    · simp only [early, inside, if_true, if_false, not_true_eq_false, and_false, false_iff]
      split <;> simp
    · simp [early, inside, Nat.not_lt.mp early]

variable {samples : Multiset Nat} {setting : Nat × Window}

theorem Merged.total {merged : Option hdr.Histogram} (held : Merged law merged samples) :
    (((merged.map hdr.buckets).getD []).map Prod.snd).sum = samples.card := by
  rw [← held.samples]
  cases merged with
  | none => rfl
  | some histogram => exact law.buckets_total histogram

private theorem Merged.buckets_unique {one two : Option hdr.Histogram} (first : Merged law one samples)
    (second : Merged law two samples) : (one.map hdr.buckets).getD [] = (two.map hdr.buckets).getD [] := by
  have same := first.samples.trans second.samples.symm
  cases one with
  | none =>
    cases two with
    | none => rfl
    | some other => exact absurd same.symm (second.filled other rfl)
  | some histogram =>
    cases two with
    | none => exact absurd same (first.filled histogram rfl)
    | some other => exact law.buckets_determined histogram other same

theorem Exact.perm {setting : Nat × Window} {kept other : List Arrival} {report : DeliveryReport}
    (exact : Exact law setting kept report) (same : kept.Perm other) : Exact law setting other report := by
  have fates (fate : Fate) : tally setting.2 kept fate = tally setting.2 other fate := same.countP_eq _
  have samples : (latencies setting.2 kept : Multiset Nat) = latencies setting.2 other :=
    Multiset.coe_eq_coe.mpr ((same.filter _).map _)
  have seconds : (kept.map Arrival.second).Perm (other.map Arrival.second) := same.map _
  constructor
  · rw [exact.delivered, same.length_eq]
  · rw [exact.anomalies, fates]
  · rw [exact.overRange, fates]
  · exact exact.dropped
  · exact exact.timeline.perm seconds
  · rw [← samples]
    exact exact.latency

private theorem Exact.unique {kept : List Arrival} {one two : DeliveryReport}
    (first : Exact law setting kept one) (second : Exact law setting kept two)
    (duplicates : one.duplicates = two.duplicates) (foreign : one.foreign = two.foreign) : one = two := by
  obtain ⟨mergedOne, heldOne, latencyOne⟩ := first.latency
  obtain ⟨mergedTwo, heldTwo, latencyTwo⟩ := second.latency
  have latency : one.latency = two.latency := by rw [latencyOne, latencyTwo, heldOne.buckets_unique heldTwo]
  have delivered : one.delivered = two.delivered := first.delivered.trans second.delivered.symm
  have anomalies : one.clockAnomalies = two.clockAnomalies := first.anomalies.trans second.anomalies.symm
  have overRange : one.latencyOverRange = two.latencyOverRange := first.overRange.trans second.overRange.symm
  have dropped : one.dropped = two.dropped := first.dropped.trans second.dropped.symm
  obtain ⟨origin, counts⟩ := first.timeline.unique second.timeline
  obtain ⟨_, _, _, _, _, _, ⟨_, _⟩, _⟩ := one
  obtain ⟨_, _, _, _, _, _, ⟨_, _⟩, _⟩ := two
  simp_all

private theorem report_exact {kept : List (List Arrival)}
    (counted : Counted law setting.1 setting.2 kept recorder.shards) (short : kept.flatten.length ≤ u64Max)
    (origin : (recorder.armed.map Prod.fst).getD 0 = setting.1) : ∃ report,
      recorder.report = some report ∧ report.foreign = recorder.foreign ∧
        report.duplicates = recorder.shards.foldl (fun sum shard => saturatingAdd sum shard.duplicates) 0 ∧
        Exact law setting kept.flatten report := by
  have fates (fate : Fate) : (kept.map fun own => tally setting.2 own fate).sum ≤ u64Max := by
    rw [sum_tally]
    exact Nat.le_trans List.countP_le_length short
  have delivered := total_exact Shard.delivered List.length counted (fun own shard holds => holds.delivered)
    (by rwa [← List.length_flatten])
  have anomalies := total_exact Shard.anomalies _ counted (fun own shard holds => holds.anomalies) (fates .anomaly)
  have overRange := total_exact Shard.overRange _ counted (fun own shard holds => holds.overRange) (fates .overRange)
  have seconds : ((kept.filter (· ≠ [])).map (·.map Arrival.second)).flatten = kept.flatten.map Arrival.second := by
    rw [← List.map_flatten, flatten_nonempty]
  have timeline := merged_logged (counted_rows counted) (by rwa [seconds, List.length_map])
  obtain ⟨merged, folded, held⟩ := merged_samples counted merged_none (by simpa using short)
  rw [Recorder.report, folded]
  refine ⟨_, rfl, rfl, rfl, ?_, ?_, ?_, rfl, ?_, merged, ?_, rfl⟩
  · rw [List.length_flatten]
    exact delivered
  · rw [← sum_tally]
    exact anomalies
  · rw [← sum_tally]
    exact overRange
  · rw [← seconds]
    rw [origin]
    exact timeline
  · simpa using held

theorem Tallied.report (counts : Tallied law connections calls recorder) (room : deliveries calls ≤ u64Max) :
    ∃ report, recorder.report = some report ∧
      report.foreign + (arrivals connections calls).length = deliveries calls ∧
      report.delivered + report.duplicates = (arrivals connections calls).length ∧
      Exact law ((armedBy calls).getD (0, ⟨0, 0⟩)) (firsts Arrival.key (arrivals connections calls)) report := by
  generalize chosen : (armedBy calls).getD (0, ⟨0, 0⟩) = setting
  have either : armedBy calls = none ∨ armedBy calls = some setting := by
    rw [← chosen]
    cases armedBy calls with
    | none => exact .inl rfl
    | some held => exact .inr rfl
  have origin : (recorder.armed.map Prod.fst).getD 0 = setting.1 := by
    rw [counts.armed, ← chosen]
    cases armedBy calls <;> rfl
  have related := counts.classes setting either
  have inside : ∀ arrival ∈ arrivals connections calls, arrival.stamp.connId < connections := fun _ => arrivals_inside
  have all := byConnection_perm inside
  have perm := firsts_byConnection_perm inside
  have foreign := counts.foreign
  generalize arrivals connections calls = received at *
  generalize byConnection connections received = classes at *
  have counted : Counted law setting.1 setting.2 (classes.map (firsts Arrival.key)) recorder.shards :=
    List.forall₂_map_left_iff.mpr (related.imp fun own shard recorded => recorded.elim fun _ held => held.kept)
  have repeated := sum_repeated classes
  rw [all.length_eq, sum_firsts] at repeated
  have duplicates := total_exact Shard.duplicates (fun own => own.length - (firsts Arrival.key own).length)
    related (fun own shard recorded => recorded.elim fun _ held => by have := held.duplicates; omega) (by omega)
  obtain ⟨report, reported, foreigns, duplicated, exact⟩ := report_exact counted (by omega) origin
  refine ⟨report, reported, by rw [foreigns]; exact foreign, ?_, exact.perm perm⟩
  rw [exact.delivered, duplicated, duplicates]
  exact repeated

private theorem reportAfter_exact (law : hdr.Behaviour) (connections : UInt32) (calls : List Call)
    (few : deliveries calls < 2 ^ 64) : ∃ report,
      reportAfter hdr connections calls = some report ∧
      report.foreign + (arrivals connections calls).length = deliveries calls ∧
      report.delivered + report.duplicates = (arrivals connections calls).length ∧
      Exact law ((armedBy calls).getD (0, ⟨0, 0⟩)) (firsts Arrival.key (arrivals connections calls)) report := by
  have room : deliveries calls ≤ u64Max := Nat.le_sub_one_of_lt few
  obtain ⟨recorder, reached, counts⟩ := Tallied.run law connections calls room
  obtain ⟨report, reported, rest⟩ := counts.report room
  refine ⟨report, ?_, rest⟩
  rw [reportAfter, reached]
  exact reported

/-- The report is exact for any calls in any order. Two orders in which each number
has the same first arrival, with as many arrivals and as many calls, give one report. -/
theorem report_counts_first_arrivals (law : hdr.Behaviour) (connections : UInt32) (calls : List Call)
    (few : deliveries calls < 2 ^ 64) : ∃ report,
      reportAfter hdr connections calls = some report ∧
      report.delivered = ((arrivals connections calls).map Arrival.key).toFinset.card ∧
      report.delivered + report.duplicates = (arrivals connections calls).length ∧
      report.foreign + (arrivals connections calls).length = deliveries calls ∧
      (∀ second, Bins.count report.timeline.originSec report.timeline.counts second =
        (firsts Arrival.key (arrivals connections calls)).countP fun arrival => arrival.second = second) ∧
      (∀ originSec window, armedBy calls = some (originSec, window) →
        (report.latency.map Prod.snd).sum + report.latencyOverRange + report.clockAnomalies +
          ((firsts Arrival.key (arrivals connections calls)).countP fun arrival =>
            arrival.stamp.scheduledNs.toNat ≤ arrival.nowNs ∧ ¬window.contains arrival.stamp.scheduledNs.toNat) =
          report.delivered) ∧
      ∀ other, armedBy other = armedBy calls → deliveries other = deliveries calls →
        (arrivals connections other).length = (arrivals connections calls).length →
        (∀ key, (arrivals connections other).find? (fun arrival => arrival.key = key) =
          (arrivals connections calls).find? (fun arrival => arrival.key = key)) →
        reportAfter hdr connections other = some report := by
  obtain ⟨report, reported, foreign, total, exact⟩ := reportAfter_exact law connections calls few
  refine ⟨report, reported, ?_, total, foreign, fun second => ?_, fun originSec window armed => ?_, ?_⟩
  · rw [exact.delivered, Firsts.length_firsts]
  · rw [exact.timeline.counted, List.count, List.countP_map]
    apply List.countP_congr
    intro arrival _
    simp
  · rw [armed] at exact
    obtain ⟨merged, held, latency⟩ := exact.latency
    rw [latency, held.total, Multiset.card_map, Multiset.coe_card, length_latencies, exact.overRange, exact.anomalies,
      exact.delivered, outside_tally]
    exact tally_total window _
  · intro other armed calledAsOften arrivedAsOften sameFirsts
    obtain ⟨second, reportedToo, foreignToo, totalToo, exactToo⟩ :=
      reportAfter_exact law connections other (calledAsOften ▸ few)
    have same : second = report := by
      rw [armed] at exactToo
      have delivered := exact.delivered
      have deliveredToo := (exactToo.perm (Firsts.perm_of_same_first sameFirsts)).delivered
      apply Exact.unique (exactToo.perm (Firsts.perm_of_same_first sameFirsts)) exact <;> omega
    rw [reportedToo, same]

end Reports

def mixedCalls : List Call :=
  [ .record (Stamp.encode ⟨0, 0, 5000000000⟩) 3000000000 1,
    .arm 5000000000 ⟨5000000000, 6000000000⟩ 5000000000,
    .record (Stamp.encode ⟨0, 0, 5000000000⟩) 4000000000 1,
    .record (Stamp.encode ⟨0, 0, 5000000000⟩) 5000001200 1,
    .recordOnTopic topic (Stamp.encode ⟨1, 600, 5000000000⟩) 5000001500 2,
    .recordOnTopic "other" (Stamp.encode ⟨1, 601, 5000000000⟩) 5000001500 2 ]

theorem report_counts_first_arrivals_mixed : deliveries mixedCalls < 2 ^ 64 ∧ ∃ report,
    reportAfter unitBuckets 2 mixedCalls = some report ∧ report.delivered = 2 ∧ report.duplicates = 1 ∧
      report.foreign = 2 ∧ Bins.count report.timeline.originSec report.timeline.counts 4 = 1 := by
  have few : deliveries mixedCalls < 2 ^ 64 := by decide
  refine ⟨few, ?_⟩
  obtain ⟨report, reported, delivered, total, foreign, seconds, _⟩ :=
    report_counts_first_arrivals unitBucketsBehaviour 2 mixedCalls few
  have received : (arrivals 2 mixedCalls).length = 3 := by decide +kernel
  have distinct : ((arrivals 2 mixedCalls).map Arrival.key).toFinset.card = 2 := by decide +kernel
  have early : ((firsts Arrival.key (arrivals 2 mixedCalls)).countP fun arrival => arrival.second = 4) = 1 := by
    decide +kernel
  have called : deliveries mixedCalls = 5 := by decide
  refine ⟨report, reported, by omega, by omega, by omega, ?_⟩
  rw [seconds, early]

end UringMqtt.Bench

import UringMqtt.Proofs.ShardTally
import Mathlib.Data.List.Forall2

/-! Merging the shards into one report loses and doubles nothing: the timelines are
laid over each other second by second, the histograms add up. -/

namespace UringMqtt.Bench
open Lib

private theorem count_foldl_modify (target offset : Nat) (counts : List Nat) (done : Nat) (row : List Nat) (place : Nat)
    (inside : offset + done + counts.length ≤ row.length)
    (room : Bins.count target row place + Bins.count (target + offset + done) counts place ≤ u64Max) :
    Bins.count target
        ((counts.zipIdx done).foldl (fun row entry => row.modify (offset + entry.2) (saturatingAdd · entry.1)) row) place =
      Bins.count target row place + Bins.count (target + offset + done) counts place := by
  induction counts generalizing done row with
  | nil => rw [Bins.count_nil, Nat.add_zero, List.zipIdx_nil, List.foldl_nil]
  | cons head rest ih =>
    rw [List.length_cons] at inside
    rw [Bins.count_cons] at room ⊢
    have added := @Bins.count_modify target row (offset + done) (by omega) (saturatingAdd · head) place
    rw [← Nat.add_assoc] at added
    have remaining := ih (done + 1) (row.modify (offset + done) (saturatingAdd · head))
      (by rw [List.length_modify]; omega)
    rw [added, ← Nat.add_assoc] at remaining
    rw [List.zipIdx_cons, List.foldl_cons]
    by_cases here : place = target + offset + done
    · have none_after : Bins.count (target + offset + done + 1) rest place = 0 := Bins.count_outside (.inl (by omega))
      rw [if_pos here] at room remaining ⊢
      rw [none_after, Saturating.saturatingAdd_exact room] at remaining
      exact remaining room
    · rw [if_neg here] at room remaining ⊢
      exact remaining room

theorem mergeTimeline_length {target origin : Nat} (timeline counts : List Nat) (below : target ≤ origin) :
    target + (mergeTimeline target timeline (origin, counts)).length =
      max (target + timeline.length) (origin + counts.length) := by
  have kept (entries : List (Nat × Nat)) (row : List Nat) :
      (entries.foldl (fun row entry => row.modify (origin - target + entry.2) (saturatingAdd · entry.1)) row).length =
        row.length := by
    induction entries generalizing row with
    | nil => rfl
    | cons entry rest ih => rw [List.foldl_cons, ih, List.length_modify]
  rw [mergeTimeline, kept, length_resized]
  dsimp only
  omega

theorem mergeTimeline_count {target origin : Nat} (timeline counts : List Nat) (below : target ≤ origin) (place : Nat)
    (room : Bins.count target timeline place + Bins.count origin counts place ≤ u64Max) :
    Bins.count target (mergeTimeline target timeline (origin, counts)) place =
      Bins.count target timeline place + Bins.count origin counts place := by
  have shifted : target + (origin - target) + 0 = origin := by omega
  have same : Bins.count target (resized timeline (origin - target + counts.length)) place =
      Bins.count target timeline place := Bins.count_grown_up _ place
  have added := count_foldl_modify target (origin - target) counts 0
    (resized timeline (origin - target + counts.length)) place (by rw [length_resized]; omega)
    (by rwa [shifted, same])
  rwa [shifted, same] at added

section Rows
variable {start target : Nat} {classes : List (List Nat)} {rows : List (Nat × List Nat)}

abbrev Rows (start : Nat) (classes : List (List Nat)) (rows : List (Nat × List Nat)) : Prop :=
  List.Forall₂ (fun events row => Bins.Logged start events row.1 row.2) classes rows

private theorem origins_low (related : Rows start classes rows) (before : List Nat) :
    (rows.map Prod.fst).foldl min (Bins.low start before) = Bins.low start (before ++ classes.flatten) := by
  induction related generalizing before with
  | nil => rw [List.flatten_nil, List.append_nil, List.map_nil, List.foldl_nil]
  | cons logged _ ih =>
    rw [List.map_cons, List.foldl_cons, logged.low, ← Bins.low_append, ih, List.flatten_cons, List.append_assoc]

private theorem merged_rows (related : Rows start classes rows) (before timeline : List Nat)
    (reach : target + timeline.length = Bins.high start before)
    (counted : ∀ place, Bins.count target timeline place = before.count place)
    (below : ∀ row ∈ rows, target ≤ row.1) (room : (before ++ classes.flatten).length ≤ u64Max) :
    target + (rows.foldl (mergeTimeline target) timeline).length = Bins.high start (before ++ classes.flatten) ∧
      ∀ place, Bins.count target (rows.foldl (mergeTimeline target) timeline) place =
        (before ++ classes.flatten).count place := by
  induction related generalizing before timeline with
  | nil =>
    rw [List.flatten_nil, List.append_nil, List.foldl_nil]
    exact ⟨reach, counted⟩
  | @cons events row classes rows logged _ ih =>
    rw [List.flatten_cons, ← List.append_assoc] at room ⊢
    have lower := below row List.mem_cons_self
    apply ih
    · rw [mergeTimeline_length _ _ lower, reach, logged.high, Bins.high_append]
    · intro place
      have total : before.count place + events.count place ≤ u64Max := by
        rw [← List.count_append]
        exact Nat.le_trans List.count_le_length (Nat.le_trans (List.sublist_append_left _ _).length_le room)
      rw [mergeTimeline_count _ _ lower, counted, logged.counted, List.count_append]
      rwa [counted, logged.counted]
    · exact fun other member => below other (List.mem_cons_of_mem _ member)
    · exact room

theorem merged_logged (related : Rows start classes rows) (room : classes.flatten.length ≤ u64Max) :
    Bins.Logged start classes.flatten ((rows.map Prod.fst).min?.getD start)
      (rows.foldl (mergeTimeline ((rows.map Prod.fst).min?.getD start)) []) := by
  cases related with
  | nil => exact Bins.Logged.empty
  | @cons events row classes rows logged related =>
    have earliest : ((row :: rows).map Prod.fst).min? = some (Bins.low start (events ++ classes.flatten)) := by
      rw [← origins_low related, ← logged.low]
      rfl
    have below : ∀ other ∈ row :: rows, Bins.low start (events ++ classes.flatten) ≤ other.1 :=
      fun other member => (List.min?_eq_some_iff.mp earliest).2 other.1 (List.mem_map_of_mem member)
    rw [earliest, Option.getD_some]
    have lower := below row List.mem_cons_self
    obtain ⟨reach, counted⟩ := merged_rows related events
      (mergeTimeline (Bins.low start (events ++ classes.flatten)) [] row)
      (by
        rw [mergeTimeline_length _ _ lower, ← logged.high, List.length_nil]
        omega)
      (fun place => by
        rw [mergeTimeline_count _ _ lower, Bins.count_nil, Nat.zero_add, logged.counted]
        rw [Bins.count_nil, Nat.zero_add, logged.counted]
        exact Nat.le_trans List.count_le_length (Nat.le_trans (List.sublist_append_left _ _).length_le room))
      (fun other member => below other (List.mem_cons_of_mem _ member)) room
    exact ⟨rfl, reach, counted⟩

end Rows

section Shards
variable {hdr : Hdr} {law : hdr.Behaviour} {start : Nat} {window : Window} {kept : List (List Arrival)}
  {shards : List (Shard hdr)}

abbrev Counted (law : hdr.Behaviour) (start : Nat) (window : Window) (kept : List (List Arrival))
    (shards : List (Shard hdr)) : Prop :=
  List.Forall₂ (fun own shard => Shard.Holds law start window shard own) kept shards

theorem total_exact (weight : Shard hdr → Nat) (expected : List Arrival → Nat)
    {relation : List Arrival → Shard hdr → Prop} (related : List.Forall₂ relation kept shards)
    (each : ∀ own shard, relation own shard → weight shard = expected own)
    (room : (kept.map expected).sum ≤ u64Max) :
    shards.foldl (fun sum shard => saturatingAdd sum (weight shard)) 0 = (kept.map expected).sum := by
  have weights : shards.map weight = kept.map expected := by
    clear room
    induction related with
    | nil => rfl
    | cons counted _ ih => rw [List.map_cons, List.map_cons, each _ _ counted, ih]
  rw [Saturating.foldl_exact weight shards 0 (by rwa [weights, Nat.zero_add]), weights, Nat.zero_add]

theorem counted_rows (counted : Counted law start window kept shards) :
    Rows start ((kept.filter (· ≠ [])).map (·.map Arrival.second))
      (shards.filterMap fun shard => shard.timelineOriginSec.map (·, shard.timeline)) := by
  induction counted with
  | nil => exact .nil
  | @cons own shard kept shards holds _ ih =>
    cases opened : shard.timelineOriginSec with
    | none =>
      rw [List.filter_cons_of_neg (by simpa using holds.opened.mp opened), List.filterMap_cons_none (by rw [opened]; rfl)]
      exact ih
    | some origin =>
      have nonempty : own ≠ [] := fun empty => Option.some_ne_none origin (opened.symm.trans (holds.opened.mpr empty))
      have logged := holds.timeline
      rw [opened] at logged
      rw [List.filter_cons_of_pos (by simpa using nonempty),
        List.filterMap_cons_some (b := (origin, shard.timeline)) (by rw [opened]; rfl), List.map_cons]
      exact .cons logged ih

theorem flatten_nonempty (kept : List (List Arrival)) : (kept.filter (· ≠ [])).flatten = kept.flatten := by
  induction kept with
  | nil => rfl
  | cons own rest ih =>
    by_cases empty : own = []
    · rw [List.filter_cons_of_neg (by simpa using empty), ih, empty, List.flatten_cons, List.nil_append]
    · rw [List.filter_cons_of_pos (by simpa using empty), List.flatten_cons, List.flatten_cons, ih]

structure Merged (law : hdr.Behaviour) (merged : Option hdr.Histogram) (samples : Multiset Nat) : Prop where
  samples : (merged.map law.samples).getD 0 = samples
  filled : ∀ histogram, merged = some histogram → law.samples histogram ≠ 0

theorem merged_none : Merged law none 0 := by
  refine ⟨rfl, fun histogram held => ?_⟩
  cases held

private theorem mergeHistogram_merged {target : Option hdr.Histogram} {samples : Multiset Nat} {latency : hdr.Histogram}
    (merged : Merged law target samples) (filled : law.samples latency ≠ 0)
    (room : samples.card + (law.samples latency).card ≤ u64Max) : ∃ after,
      mergeHistogram target latency = some after ∧ Merged law after (samples + law.samples latency) := by
  cases target with
  | none =>
    have none_before : samples = 0 := merged.samples.symm
    subst samples
    refine ⟨some latency, rfl, (Multiset.zero_add _).symm, ?_⟩
    intro histogram same
    cases same
    exact filled
  | some histogram =>
    have held : law.samples histogram = samples := merged.samples
    subst samples
    obtain ⟨after, added, total⟩ := law.add_samples histogram latency room
    refine ⟨some after, by rw [mergeHistogram, added]; rfl, total, ?_⟩
    intro other same
    cases same
    rw [total]
    exact fun zero => filled (Multiset.le_zero.mp (zero ▸ Multiset.le_add_left _ _))

theorem merged_samples (counted : Counted law start window kept shards) {target : Option hdr.Histogram}
    {samples : Multiset Nat} (merged : Merged law target samples)
    (room : samples.card + kept.flatten.length ≤ u64Max) : ∃ after,
      (shards.filterMap Shard.latency).foldlM mergeHistogram target = some after ∧
        Merged law after (samples + Multiset.map law.top (latencies window kept.flatten)) := by
  induction counted generalizing target samples with
  | nil => exact ⟨target, rfl, by simpa [latencies] using merged⟩
  | @cons own shard kept shards holds _ ih =>
    have split : samples + Multiset.map law.top (latencies window (own :: kept).flatten) =
        samples + Multiset.map law.top (latencies window own) + Multiset.map law.top (latencies window kept.flatten) := by
      rw [List.flatten_cons, latencies_append, ← Multiset.coe_add, Multiset.map_add, Multiset.add_assoc]
    have few : (Multiset.map law.top (latencies window own)).card ≤ own.length := by
      rw [← holds.samples]
      exact Shard.card_samples holds
    rw [List.flatten_cons, List.length_append] at room
    rw [split]
    have held := holds.samples
    cases latency : shard.latency with
    | none =>
      rw [latency] at held
      rw [List.filterMap_cons_none latency, ← held]
      apply ih
      · simpa using merged
      · simpa using (by omega : samples.card + kept.flatten.length ≤ u64Max)
    | some histogram =>
      rw [latency] at held
      change law.samples histogram = _ at held
      obtain ⟨after, added, more⟩ := mergeHistogram_merged merged (holds.filled histogram latency)
        (by rw [held]; omega)
      rw [List.filterMap_cons_some latency, List.foldlM_cons, added, ← held]
      apply ih more
      rw [Multiset.card_add, held]
      omega

end Shards
end UringMqtt.Bench

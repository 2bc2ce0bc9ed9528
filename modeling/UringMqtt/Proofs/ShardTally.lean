import UringMqtt.Bench.Recorder
import UringMqtt.Lib.Bins
import UringMqtt.Lib.Firsts
import Mathlib.Algebra.BigOperators.Group.Finset.Basic
import Mathlib.Data.List.Sort
import Mathlib.Data.Multiset.Count

/-! What one shard of the recorder has counted: the first arrival of each number,
each in its second, and each as a sample, over the range, an anomaly or outside the
window. -/

namespace UringMqtt.Bench
open Lib

/-- hdrhistogram's documented behaviour, as far as the recorder needs it. A histogram
holds its samples as the values its buckets report, and a value below its bound is
counted exactly while the counters have room. -/
structure Hdr.Behaviour (hdr : Hdr) where
  top : Nat → Nat
  samples : hdr.Histogram → Multiset Nat
  new_samples : samples hdr.new = 0
  record_samples : ∀ histogram value, 1 ≤ value → value ≤ latencyMaxNs → (samples histogram).card + 1 ≤ u64Max →
    ∃ after, hdr.record histogram value = some after ∧ samples after = top value ::ₘ samples histogram
  add_samples : ∀ one two, (samples one).card + (samples two).card ≤ u64Max →
    ∃ after, hdr.add one two = some after ∧ samples after = samples one + samples two
  buckets_total : ∀ histogram, ((hdr.buckets histogram).map Prod.snd).sum = (samples histogram).card
  buckets_determined : ∀ one two, samples one = samples two → hdr.buckets one = hdr.buckets two

/-- A bucket for each value, as the histogram has them below 2048. -/
def unitBuckets : Hdr where
  Histogram := List Nat
  new := []
  record samples value := some (value :: samples)
  add one two := some (one ++ two)
  buckets samples := (samples.dedup.insertionSort (· ≤ ·)).map fun value => (value, samples.count value)

private theorem sum_unitBuckets (samples : List Nat) : ((unitBuckets.buckets samples).map Prod.snd).sum = samples.length := by
  have sorted := (List.perm_insertionSort (· ≤ ·) samples.dedup).map fun value => samples.count value
  rw [← List.sum_map_count_dedup_eq_length, ← sorted.sum_eq]
  exact congrArg List.sum (List.map_map ..)

private theorem unitBuckets_perm {one two : List Nat} (same : one.Perm two) : unitBuckets.buckets one = unitBuckets.buckets two := by
  have sorted : (one.dedup.insertionSort (· ≤ ·)).Perm (two.dedup.insertionSort (· ≤ ·)) :=
    (List.perm_insertionSort _ _).trans (same.dedup.trans (List.perm_insertionSort _ _).symm)
  have values := sorted.eq_of_pairwise (fun _ _ _ _ => Nat.le_antisymm) (List.pairwise_insertionSort _ _)
    (List.pairwise_insertionSort _ _)
  simp only [unitBuckets, values, same.count_eq]

def unitBucketsBehaviour : unitBuckets.Behaviour where
  top value := value
  samples := Multiset.ofList
  new_samples := rfl
  record_samples _ _ _ _ _ := ⟨_, rfl, rfl⟩
  add_samples _ _ _ := ⟨_, rfl, rfl⟩
  buckets_total := sum_unitBuckets
  buckets_determined _ _ same := unitBuckets_perm (Multiset.coe_eq_coe.mp same)

/-- A delivery that belongs to the run: its stamp and the clock it was recorded at. -/
structure Arrival where
  stamp : Stamp
  nowNs : Nat
deriving DecidableEq

inductive Fate
  | anomaly
  | overRange
  | sample
  | outside
deriving DecidableEq

namespace Arrival

def key (self : Arrival) : UInt32 × UInt64 := (self.stamp.connId, self.stamp.seq)

def second (self : Arrival) : Nat := self.nowNs / oneSecondNs

def latency (self : Arrival) : Nat := self.nowNs - self.stamp.scheduledNs.toNat

def fate (self : Arrival) (window : Window) : Fate :=
  if self.stamp.scheduledNs.toNat > self.nowNs then .anomaly
  else if window.contains self.stamp.scheduledNs.toNat then
    if self.latency > latencyMaxNs then .overRange else .sample
  else .outside

end Arrival

def tally (window : Window) (arrivals : List Arrival) (fate : Fate) : Nat :=
  arrivals.countP fun arrival => arrival.fate window = fate

def latencies (window : Window) (arrivals : List Arrival) : List Nat :=
  (arrivals.filter fun arrival => arrival.fate window = .sample).map fun arrival => max arrival.latency 1

theorem latencies_append (window : Window) (arrivals more : List Arrival) :
    latencies window (arrivals ++ more) = latencies window arrivals ++ latencies window more := by
  rw [latencies, List.filter_append, List.map_append, latencies, latencies]

theorem length_latencies (window : Window) (arrivals : List Arrival) :
    (latencies window arrivals).length = tally window arrivals .sample := by
  rw [latencies, List.length_map, tally, List.countP_eq_length_filter]

theorem tally_total (window : Window) (arrivals : List Arrival) :
    tally window arrivals .sample + tally window arrivals .overRange + tally window arrivals .anomaly +
      tally window arrivals .outside = arrivals.length := by
  unfold tally
  induction arrivals with
  | nil => rfl
  | cons arrival rest ih =>
    simp only [List.countP_cons, List.length_cons]
    cases arrival.fate window <;> simp <;> omega

theorem tally_snoc (window : Window) (arrivals : List Arrival) (arrival : Arrival) (fate : Fate) :
    tally window (arrivals ++ [arrival]) fate =
      tally window arrivals fate + if arrival.fate window = fate then 1 else 0 := by
  simp [tally, List.countP_append, List.countP_cons]

theorem length_resized (counts : List Nat) (length : Nat) : (resized counts length).length = max counts.length length := by
  rw [resized, List.length_append, List.length_replicate]
  omega

namespace Shard
variable {hdr : Hdr}

def marked (self : Shard hdr) (seq : Nat) : Bool :=
  match self.seen (seq / seqChunkSeqs) with
  | some words => Bitset.mem words (seq % seqChunkSeqs)
  | none => false

private theorem marked_words (self : Shard hdr) (seq : Nat) :
    self.marked seq =
      Bitset.mem ((self.seen (seq / seqChunkSeqs)).getD (Vector.replicate seqChunkWords 0)) (seq % seqChunkSeqs) := by
  unfold marked
  cases self.seen (seq / seqChunkSeqs) with
  | some words => rfl
  | none => exact (Bitset.mem_replicate_zero _).symm

private theorem marked_entered (self : Shard hdr) (chunk : Nat) (words : Chunk) (other : Nat) :
    marked { self with seen := fun place => if place = chunk then some words else self.seen place } other =
      if other / seqChunkSeqs = chunk then Bitset.mem words (other % seqChunkSeqs) else self.marked other := by
  unfold marked
  by_cases here : other / seqChunkSeqs = chunk <;> simp [here]

private theorem same_number {one two : Nat} (chunk : one / seqChunkSeqs = two / seqChunkSeqs) :
    one % seqChunkSeqs = two % seqChunkSeqs ↔ one = two := by
  constructor
  · intro offset
    rw [← Nat.div_add_mod one seqChunkSeqs, ← Nat.div_add_mod two seqChunkSeqs, chunk, offset]
  · intro same
    rw [same]

theorem setSeqBit_spec (self : Shard hdr) (seq : Nat) : ∃ seen,
    self.setSeqBit seq = (self.marked seq, { self with seen }) ∧
      ∀ other, marked { self with seen } other = (decide (other = seq) || self.marked other) := by
  generalize words_eq : (self.seen (seq / seqChunkSeqs)).getD (Vector.replicate seqChunkWords 0) = words
  have inside := chunk_word_inside seq
  have known (other : Nat) (chunk : other / seqChunkSeqs = seq / seqChunkSeqs) :
      self.marked other = Bitset.mem words (other % seqChunkSeqs) := by
    rw [marked_words, chunk, words_eq]
  have read : words[seq % seqChunkSeqs / 64] &&& Bitset.mask 64 (seq % seqChunkSeqs % 64) = 0 ↔
      self.marked seq = false := by
    rw [known seq rfl]
    exact Bitset.and_mask_eq_zero_iff_mem words _ (by decide) inside
  have apart (other : Nat) (chunk : other / seqChunkSeqs ≠ seq / seqChunkSeqs) : other ≠ seq :=
    fun same => chunk (by rw [same])
  simp only [setSeqBit, words_eq, Fin.getElem_fin]
  by_cases before : self.marked seq = true
  · rw [if_pos fun zero => Bool.false_ne_true ((read.mp zero).symm.trans before)]
    refine ⟨_, Prod.ext_iff.mpr ⟨before.symm, rfl⟩, fun other => ?_⟩
    rw [marked_entered]
    split
    next chunk =>
      rw [← known other chunk]
      by_cases same : other = seq
      · rw [same, before, Bool.or_true]
      · simp [same]
    next chunk => simp [apart other chunk]
  · have clear : self.marked seq = false := by simpa using before
    rw [if_neg (fun nonzero => nonzero (read.mpr clear))]
    refine ⟨_, Prod.ext_iff.mpr ⟨clear.symm, rfl⟩, fun other => ?_⟩
    rw [marked_entered]
    split
    next chunk =>
      rw [Bitset.mem_insert words _ _ (by decide) inside, known other chunk]
      simp only [same_number chunk]
      by_cases same : other = seq <;> simp [same]
    next chunk => simp [apart other chunk]

private theorem bumpTimeline_logged {start : Nat} {events : List Nat} (self : Shard hdr) (nowNs : Nat)
    (logged : Bins.Logged start events (self.timelineOriginSec.getD start) self.timeline)
    (room : events.length + 1 ≤ u64Max) : ∃ origin row,
      self.bumpTimeline nowNs start = { self with timelineOriginSec := some origin, timeline := row } ∧
        Bins.Logged start (events ++ [nowNs / oneSecondNs]) origin row := by
  refine ⟨_, _, rfl, ?_⟩
  generalize self.timelineOriginSec.getD start = base at logged
  generalize nowNs / oneSecondNs = nowSec
  generalize grown_eq : (if nowSec < base then List.replicate (base - nowSec) 0 ++ self.timeline else self.timeline) = grown
  have counted (place : Nat) : Bins.count (min base nowSec) grown place = events.count place := by
    rw [← logged.counted, ← grown_eq]
    split
    next early =>
      rw [Nat.min_eq_right (Nat.le_of_lt early)]
      simpa [Nat.sub_sub_self (Nat.le_of_lt early)] using
        Bins.count_grown_down (Nat.sub_le base nowSec) place
    next later => rw [Nat.min_eq_left (Nat.not_lt.mp later)]
  have reach : min base nowSec + grown.length = Bins.high start events := by
    rw [← logged.high, ← grown_eq]
    split
    next early =>
      rw [List.length_append, List.length_replicate]
      omega
    next later => rw [Nat.min_eq_left (Nat.not_lt.mp later)]
  constructor
  · rw [Bins.low_snoc, logged.low]
  · rw [List.length_modify, length_resized, Bins.high_snoc, ← reach]
    omega
  · intro place
    rw [Bins.count_modify (by rw [length_resized]; omega), resized, Bins.count_grown_up, counted,
      List.count_append, List.count_singleton]
    have few : events.count place + 1 ≤ u64Max :=
      Nat.le_trans (Nat.add_le_add_right List.count_le_length 1) room
    by_cases here : place = nowSec
    · rw [if_pos (by omega), Saturating.saturatingAdd_exact few]
      simp [here]
    · rw [if_neg (by omega)]
      simp [Ne.symm here]

/-- The shard has counted exactly the arrivals in `kept`. -/
structure Holds (law : hdr.Behaviour) (start : Nat) (window : Window) (shard : Shard hdr) (kept : List Arrival) : Prop where
  delivered : shard.delivered = kept.length
  anomalies : shard.anomalies = tally window kept .anomaly
  overRange : shard.overRange = tally window kept .overRange
  opened : shard.timelineOriginSec = none ↔ kept = []
  timeline : Bins.Logged start (kept.map Arrival.second) (shard.timelineOriginSec.getD start) shard.timeline
  samples : (shard.latency.map law.samples).getD 0 = Multiset.map law.top (latencies window kept)
  filled : ∀ histogram, shard.latency = some histogram → law.samples histogram ≠ 0

/-- The shard has seen the arrivals of its connection and counted the first of each number. -/
structure Recorded (law : hdr.Behaviour) (start : Nat) (window : Window) (conn : UInt32) (shard : Shard hdr)
    (arrivals : List Arrival) : Prop where
  seen : ∀ seq : UInt64, shard.marked seq.toNat = true ↔ (conn, seq) ∈ arrivals.map Arrival.key
  kept : Holds law start window shard (firsts Arrival.key arrivals)
  duplicates : shard.duplicates + (firsts Arrival.key arrivals).length = arrivals.length

variable {law : hdr.Behaviour} {start : Nat} {window : Window} {conn : UInt32} {shard : Shard hdr}

theorem recorded_new : Recorded law start window conn (new : Shard hdr) [] := by
  refine ⟨fun seq => ?_, ⟨rfl, rfl, rfl, by simp [new], Bins.Logged.empty, rfl, ?_⟩, rfl⟩
  · simp [marked, new]
  · intro histogram held
    cases held

theorem card_samples {kept : List Arrival} (holds : Holds law start window shard kept) :
    ((shard.latency.map law.samples).getD 0).card ≤ kept.length := by
  rw [holds.samples, Multiset.card_map, Multiset.coe_card, length_latencies]
  exact List.countP_le_length

private theorem samples_getD (latency : Option hdr.Histogram) :
    law.samples (latency.getD hdr.new) = (latency.map law.samples).getD 0 := by
  cases latency with
  | none => exact law.new_samples
  | some histogram => rfl

private theorem latencies_snoc (kept : List Arrival) (arrival : Arrival) :
    latencies window (kept ++ [arrival]) =
      latencies window kept ++ if arrival.fate window = .sample then [max arrival.latency 1] else [] := by
  rw [latencies_append]
  unfold latencies
  by_cases sampled : arrival.fate window = .sample <;> simp [sampled]

private theorem countFirst_holds {kept : List Arrival} (arrival : Arrival) (holds : Holds law start window shard kept)
    (room : kept.length + 1 ≤ u64Max) : ∃ after,
      shard.countFirst arrival.stamp start window arrival.nowNs = some after ∧
        after.seen = shard.seen ∧ after.duplicates = shard.duplicates ∧
        Holds law start window after (kept ++ [arrival]) := by
  obtain ⟨origin, row, bumped, logged⟩ := bumpTimeline_logged
    { shard with delivered := saturatingAdd shard.delivered 1 } arrival.nowNs holds.timeline
    (by rwa [List.length_map])
  have delivered : saturatingAdd shard.delivered 1 = (kept ++ [arrival]).length := by
    rw [holds.delivered, Saturating.saturatingAdd_exact room, List.length_append, List.length_singleton]
  have opened : some origin = none ↔ kept ++ [arrival] = [] := by simp
  have timeline : Bins.Logged start ((kept ++ [arrival]).map Arrival.second) origin row := by
    rwa [List.map_append]
  have exact (fate : Fate) : saturatingAdd (tally window kept fate) 1 = tally window kept fate + 1 :=
    Saturating.saturatingAdd_exact (Nat.le_trans (Nat.add_le_add_right List.countP_le_length 1) room)
  have anomalies := holds.anomalies
  have overRange := holds.overRange
  have unsampled (found : arrival.fate window ≠ .sample) :
      (shard.latency.map law.samples).getD 0 = Multiset.map law.top (latencies window (kept ++ [arrival])) := by
    rw [holds.samples, latencies_snoc, if_neg found, List.append_nil]
  simp only [countFirst, bumped]
  split
  next early =>
    have fate : arrival.fate window = .anomaly := if_pos early
    refine ⟨_, rfl, rfl, rfl, delivered, ?_, ?_, opened, timeline, unsampled (by rw [fate]; decide), holds.filled⟩ <;> grind [tally_snoc]
  next known =>
    split
    next inside =>
      split
      next late =>
        have fate : arrival.fate window = .overRange := by
          rw [Arrival.fate, if_neg known, if_pos inside]
          exact if_pos late
        refine ⟨_, rfl, rfl, rfl, delivered, ?_, ?_, opened, timeline, unsampled (by rw [fate]; decide), holds.filled⟩ <;>
          grind [tally_snoc]
      next within =>
        have fate : arrival.fate window = .sample := by
          rw [Arrival.fate, if_neg known, if_pos inside]
          exact if_neg within
        have few : (law.samples (shard.latency.getD hdr.new)).card + 1 ≤ u64Max := by
          rw [samples_getD]
          exact Nat.le_trans (Nat.add_le_add_right (card_samples holds) 1) room
        obtain ⟨histogram, added, after⟩ := law.record_samples (shard.latency.getD hdr.new) (max arrival.latency 1)
          (Nat.le_max_right _ _) (Nat.max_le.mpr ⟨Nat.not_lt.mp within, by decide⟩) few
        have recorded : hdr.record (shard.latency.getD hdr.new)
            (max (arrival.nowNs - arrival.stamp.scheduledNs.toNat) 1) = some histogram := added
        rw [recorded]
        refine ⟨_, rfl, rfl, rfl, delivered, by grind [tally_snoc], by grind [tally_snoc], opened, timeline, ?_, ?_⟩
        · rw [latencies_snoc, if_pos fate]
          change law.samples histogram = _
          rw [after, samples_getD, holds.samples, ← Multiset.coe_add, Multiset.map_add, Multiset.add_comm]
          rfl
        · intro held same
          cases same
          rw [after]
          exact Multiset.cons_ne_zero
    next outside =>
      have fate : arrival.fate window = .outside := by
        rw [Arrival.fate, if_neg known, if_neg outside]
      refine ⟨_, rfl, rfl, rfl, delivered, ?_, ?_, opened, timeline, unsampled (by rw [fate]; decide), holds.filled⟩ <;> grind [tally_snoc]

theorem seen_snoc {arrivals : List Arrival} {arrival : Arrival} {seen : Nat → Option Chunk}
    (known : ∀ seq : UInt64, shard.marked seq.toNat = true ↔ (conn, seq) ∈ arrivals.map Arrival.key)
    (own : arrival.stamp.connId = conn)
    (marks : ∀ other, marked { shard with seen } other = (decide (other = arrival.stamp.seq.toNat) || shard.marked other))
    (after : Shard hdr) (kept : after.seen = seen) (seq : UInt64) :
    after.marked seq.toNat = true ↔ (conn, seq) ∈ (arrivals ++ [arrival]).map Arrival.key := by
  have same : after.marked seq.toNat = marked { shard with seen } seq.toNat := by
    simp only [marked, kept]
  have key : arrival.key = (conn, arrival.stamp.seq) := by rw [Arrival.key, own]
  rw [same, marks, Bool.or_eq_true, known, decide_eq_true_iff, UInt64.toNat_inj, List.map_append,
    List.mem_append, List.map_singleton, List.mem_singleton, key, Prod.mk.injEq]
  tauto

theorem accept_recorded {arrivals : List Arrival} (arrival : Arrival) (thread : Nat)
    (recorded : Recorded law start window conn shard arrivals) (own : arrival.stamp.connId = conn)
    (room : arrivals.length + 1 ≤ u64Max) : ∃ after,
      shard.accept arrival.stamp start window arrival.nowNs thread = some after ∧
        Recorded law start window conn after (arrivals ++ [arrival]) := by
  have owned : Recorded law start window conn
      { shard with firstThread := some (shard.firstThread.getD thread) } arrivals :=
    ⟨recorded.seen, { recorded.kept with }, recorded.duplicates⟩
  unfold accept
  generalize { shard with firstThread := some (shard.firstThread.getD thread) } = current at owned
  obtain ⟨seen, read, marks⟩ := setSeqBit_spec current arrival.stamp.seq.toNat
  have fewer : (firsts Arrival.key arrivals).length ≤ arrivals.length := Firsts.sublist.length_le
  have duplicates := owned.duplicates
  have known : current.marked arrival.stamp.seq.toNat = true ↔
      arrival.key ∈ (firsts Arrival.key arrivals).map Arrival.key := by
    rw [owned.seen, Firsts.mem_keys, Arrival.key, own]
  simp only [read]
  cases repeated : current.marked arrival.stamp.seq.toNat with
  | true =>
    have same : firsts Arrival.key (arrivals ++ [arrival]) = firsts Arrival.key arrivals := by
      rw [Firsts.firsts_snoc, if_pos (known.mp repeated)]
    have more : saturatingAdd current.duplicates 1 = current.duplicates + 1 :=
      Saturating.saturatingAdd_exact (by omega)
    refine ⟨_, rfl, seen_snoc owned.seen own marks _ rfl, ?_, ?_⟩
    · rw [same]
      exact { owned.kept with }
    · rw [same, List.length_append, List.length_singleton, ← duplicates]
      change saturatingAdd current.duplicates 1 + _ = _
      rw [more, Nat.add_right_comm]
  | false =>
    have fresh : firsts Arrival.key (arrivals ++ [arrival]) = firsts Arrival.key arrivals ++ [arrival] := by
      rw [Firsts.firsts_snoc, if_neg]
      rw [← known, repeated]
      exact Bool.false_ne_true
    have kept : Holds law start window { current with seen } (firsts Arrival.key arrivals) := { owned.kept with }
    obtain ⟨after, counted, same, untouched, holds⟩ := countFirst_holds arrival kept (by omega)
    refine ⟨after, counted, seen_snoc owned.seen own marks after same, ?_, ?_⟩
    · rw [fresh]
      exact holds
    · rw [fresh, untouched, List.length_append, List.length_append, ← duplicates, Nat.add_assoc]

end Shard
end UringMqtt.Bench

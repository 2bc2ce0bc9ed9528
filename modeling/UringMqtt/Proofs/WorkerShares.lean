import Mathlib.Algebra.Order.BigOperators.Group.List
import UringMqtt.Bench.Json
import UringMqtt.Bench.WorkerLoads
import UringMqtt.Lib.Classes
import UringMqtt.Proofs.AttemptLaws
import UringMqtt.Proofs.RecorderRun

/-! The worker loads divide the run: a connection belongs to the thread of its first
accepted call, with all it delivers. -/

namespace UringMqtt.Bench
open Lib

/-- hdrhistogram's counters saturate, so a value or a histogram within the recorder's
bounds is always taken. -/
structure Hdr.Accepts (hdr : Hdr) : Prop where
  record : ∀ histogram value, 1 ≤ value → value ≤ latencyMaxNs → (hdr.record histogram value).isSome
  add : ∀ one two, (hdr.add one two).isSome

def handed (connections : UInt32) (calls : List Call) : List (Arrival × Nat) :=
  (calls.dropWhile fun call => call.arming.isNone).filterMap fun call => (call.arrival connections).map (·, call.thread)

def ownHanded (conn : UInt32) (taken : List (Arrival × Nat)) : List (Arrival × Nat) :=
  taken.filter fun call => call.1.stamp.connId = conn

def firstThread (connections : UInt32) (calls : List Call) (conn : UInt32) : Option Nat :=
  (ownHanded conn (handed connections calls)).head?.map Prod.snd

/-- How many numbers a connection delivered, by whatever threads. -/
def ownDelivered (connections : UInt32) (calls : List Call) (conn : UInt32) : Nat :=
  (firsts Arrival.key (ownArrivals conn (arrivals connections calls))).length

def connectionList (connections : UInt32) : List UInt32 := (List.range connections.toNat).map UInt32.ofNat

private theorem handed_snoc (connections : UInt32) (calls : List Call) (call : Call) :
    handed connections (calls ++ [call]) = handed connections calls ++
      if (armedBy calls).isSome then ((call.arrival connections).map (·, call.thread)).toList else [] := by
  refine armed_snoc (fun call arms => ?_) calls call
  rw [call.arming_arrival connections arms]
  rfl

theorem handed_arrivals (connections : UInt32) (calls : List Call) :
    (handed connections calls).map Prod.fst = arrivals connections calls := by
  rw [handed, arrivals, List.map_filterMap]
  apply List.filterMap_congr
  intro call _
  cases call.arrival connections <;> rfl

theorem ownHanded_arrivals (connections : UInt32) (calls : List Call) (conn : UInt32) :
    (ownHanded conn (handed connections calls)).map Prod.fst = ownArrivals conn (arrivals connections calls) := by
  rw [← handed_arrivals, ownArrivals, List.filter_map]
  rfl

/-! ### A shard -/

section Shards
variable {hdr : Hdr} {conn : UInt32} {shard : Shard hdr}

namespace Shard

structure Taken (conn : UInt32) (shard : Shard hdr) (own : List (Arrival × Nat)) : Prop where
  first : shard.firstThread = own.head?.map Prod.snd
  seen : ∀ seq : UInt64, shard.marked seq.toNat = true ↔ (conn, seq) ∈ (own.map Prod.fst).map Arrival.key
  delivered : shard.delivered = min (firsts Arrival.key (own.map Prod.fst)).length u64Max

private theorem taken_new : Taken conn (new : Shard hdr) [] := by
  refine ⟨rfl, fun seq => ?_, rfl⟩
  simp [marked, new]

private theorem countFirst_taken (accepts : hdr.Accepts) (shard : Shard hdr) (stamp : Stamp) (originSec : Nat) (window : Window) (nowNs : Nat) :
    ∃ after, shard.countFirst stamp originSec window nowNs = some after ∧ after.firstThread = shard.firstThread ∧
      after.seen = shard.seen ∧ after.delivered = saturatingAdd shard.delivered 1 := by
  unfold countFirst
  dsimp only
  split
  · exact ⟨_, rfl, rfl, rfl, rfl⟩
  split
  · split
    · exact ⟨_, rfl, rfl, rfl, rfl⟩
    next inside =>
      have bound : max (nowNs - stamp.scheduledNs.toNat) 1 ≤ latencyMaxNs := by
        unfold latencyMaxNs at inside ⊢
        omega
      obtain ⟨histogram, recorded⟩ := Option.isSome_iff_exists.mp (accepts.record
        ((bumpTimeline { shard with delivered := saturatingAdd shard.delivered 1 } nowNs originSec).latency.getD hdr.new) _
        (Nat.le_max_right _ _) bound)
      rw [recorded]
      exact ⟨_, rfl, rfl, rfl, rfl⟩
  · exact ⟨_, rfl, rfl, rfl, rfl⟩

private theorem accept_taken (accepts : hdr.Accepts) {own : List (Arrival × Nat)} (taken : Taken conn shard own) (arrival : Arrival)
    (thread originSec : Nat) (window : Window) (same : arrival.stamp.connId = conn) : ∃ after,
      shard.accept arrival.stamp originSec window arrival.nowNs thread = some after ∧ Taken conn after (own ++ [(arrival, thread)]) := by
  have first : some (shard.firstThread.getD thread) = (own ++ [(arrival, thread)]).head?.map Prod.snd := by
    rw [taken.first]
    cases own <;> rfl
  unfold accept
  obtain ⟨seen, read, marks⟩ := setSeqBit_spec { shard with firstThread := some (shard.firstThread.getD thread) } arrival.stamp.seq.toNat
  have known : shard.marked arrival.stamp.seq.toNat = true ↔
      arrival.key ∈ (firsts Arrival.key (own.map Prod.fst)).map Arrival.key := by
    rw [taken.seen, Firsts.mem_keys, Arrival.key, same]
  have ownMarks : ∀ other, marked { shard with firstThread := some (shard.firstThread.getD thread), seen } other =
      (decide (other = arrival.stamp.seq.toNat) || shard.marked other) := marks
  have seenAfter (after : Shard hdr) (kept : after.seen = seen) (seq : UInt64) :
      after.marked seq.toNat = true ↔ (conn, seq) ∈ ((own ++ [(arrival, thread)]).map Prod.fst).map Arrival.key := by
    rw [List.map_append]
    exact seen_snoc taken.seen same ownMarks after kept seq
  simp only [read]
  have current : marked { shard with firstThread := some (shard.firstThread.getD thread) } arrival.stamp.seq.toNat =
      shard.marked arrival.stamp.seq.toNat := rfl
  rw [current]
  cases again : shard.marked arrival.stamp.seq.toNat with
  | true =>
    refine ⟨_, rfl, first, seenAfter _ rfl, ?_⟩
    rw [List.map_append, List.map_singleton, Firsts.firsts_snoc, if_pos (known.mp again)]
    exact taken.delivered
  | false =>
    have fresh : ¬arrival.key ∈ (firsts Arrival.key (own.map Prod.fst)).map Arrival.key := by
      rw [← known, again]
      exact Bool.false_ne_true
    obtain ⟨after, counted, sameThread, sameSeen, delivered⟩ := countFirst_taken accepts
      { shard with firstThread := some (shard.firstThread.getD thread), seen } arrival.stamp originSec window arrival.nowNs
    refine ⟨after, counted, by rw [sameThread, ← first], seenAfter after sameSeen, ?_⟩
    rw [delivered, List.map_append, List.map_singleton, Firsts.firsts_snoc, if_neg fresh, List.length_append]
    simp only [taken.delivered, saturatingAdd, List.length_singleton]
    omega

end Shard
end Shards

/-! ### A run -/

section Run
variable {hdr : Hdr} {connections : UInt32} {calls : List Call} {recorder : Recorder hdr}

structure Handled (connections : UInt32) (calls : List Call) (recorder : Recorder hdr) : Prop where
  armed : recorder.armed = armedBy calls
  size : recorder.shards.length = connections.toNat
  shards : ∀ conn shard, recorder.shards[conn.toNat]? = some shard → Shard.Taken conn shard (ownHanded conn (handed connections calls))

theorem Handled.fresh : Handled connections [] (Recorder.new hdr connections) := by
  refine ⟨rfl, List.length_replicate, fun conn shard found => ?_⟩
  have new : shard = .new := by
    rw [Recorder.new, List.getElem?_replicate] at found
    split at found
    next => exact (Option.some.inj found).symm
    next => cases found
  rw [new]
  exact Shard.taken_new

theorem Handled.step (accepts : hdr.Accepts) (handled : Handled connections calls recorder) (call : Call) : ∃ after,
    recorder.call call = some after ∧ Handled connections (calls ++ [call]) after := by
  rcases Recorder.call_cases handled.size call with ⟨after, called, same, armed, _, unknown⟩ | delivery
  · have none : handed connections (calls ++ [call]) = handed connections calls := by
      rw [handed_snoc]
      rcases unknown with unarmed | absent
      · rw [← handled.armed, unarmed]
        exact List.append_nil _
      · rw [absent]
        split <;> exact List.append_nil _
    refine ⟨after, called, by rw [armed, armedBy_snoc, handled.armed], by rw [same, handled.size], ?_⟩
    rw [same, none]
    exact handled.shards
  · obtain ⟨originSec, window, arrival, setting, found, _, disarms⟩ := delivery
    obtain ⟨shard, place, called⟩ := Recorder.call_arrival handled.size call setting found
    obtain ⟨after, accepted, taken⟩ := Shard.accept_taken accepts (handled.shards _ _ place) arrival call.thread originSec window rfl
    have more : handed connections (calls ++ [call]) = handed connections calls ++ [(arrival, call.thread)] := by
      rw [handed_snoc, ← handled.armed, setting, found]
      rfl
    refine ⟨_, by rw [called, accepted]; rfl, ?_, by rw [List.length_set, handled.size], ?_⟩
    · rw [armedBy_snoc, disarms, Option.or_none, ← handled.armed]
    · intro conn other position
      rw [more, ownHanded, List.filter_append]
      by_cases own : arrival.stamp.connId = conn
      · subst own
        rw [List.getElem?_set_self (List.getElem?_eq_some_iff.mp place).1] at position
        cases position
        simpa [ownHanded] using taken
      · have apart : arrival.stamp.connId.toNat ≠ conn.toNat := fun equal => own (UInt32.toNat_inj.mp equal)
        rw [List.getElem?_set_ne apart] at position
        simpa [ownHanded, own] using handled.shards conn other position

theorem Handled.run (accepts : hdr.Accepts) (connections : UInt32) (calls : List Call) : ∃ recorder,
    calls.foldlM Recorder.call (Recorder.new hdr connections) = some recorder ∧ Handled connections calls recorder := by
  induction calls using List.reverseRecOn with
  | nil => exact ⟨_, rfl, .fresh⟩
  | append_singleton calls call ih =>
    obtain ⟨before, reached, handled⟩ := ih
    obtain ⟨after, called, more⟩ := handled.step accepts call
    refine ⟨after, ?_, more⟩
    rw [List.foldlM_append, reached]
    simpa using called

theorem Handled.inOrder (handled : Handled connections calls recorder) :
    List.Forall₂ (fun conn shard => shard.firstThread = firstThread connections calls conn ∧
      shard.delivered = min (ownDelivered connections calls conn) u64Max) (connectionList connections) recorder.shards := by
  have sizes : (connectionList connections).length = recorder.shards.length := by
    rw [connectionList, List.length_map, List.length_range, handled.size]
  refine List.forall₂_iff_get.mpr ⟨sizes, fun number below within => ?_⟩
  have small : number < connections.toNat := handled.size ▸ within
  have exact : (UInt32.ofNat number).toNat = number := UInt32.toNat_ofNat_of_lt' (Nat.lt_trans small connections.toNat_lt)
  have here : (connectionList connections).get ⟨number, below⟩ = UInt32.ofNat number := by
    simp [connectionList]
  have taken := handled.shards (.ofNat number) (recorder.shards.get ⟨number, within⟩)
    (by rw [exact]; exact List.getElem?_eq_getElem within)
  rw [here]
  refine ⟨taken.first, ?_⟩
  rw [taken.delivered, ownHanded_arrivals, ownDelivered]

end Run

/-! ### The groups -/

section Groups
variable {hdr : Hdr} {owner : UInt32 → Option Nat} {weight : UInt32 → Nat} {done : List UInt32} {groups : List (WorkerGroup hdr)}

theorem mergeHistogram_accepts (accepts : hdr.Accepts) (target : Option hdr.Histogram) (latency : hdr.Histogram) :
    ∃ merged, mergeHistogram target latency = some merged := by
  cases target with
  | none => exact ⟨_, rfl⟩
  | some histogram =>
    obtain ⟨sum, added⟩ := Option.isSome_iff_exists.mp (accepts.add histogram latency)
    exact ⟨some sum, by rw [mergeHistogram, added]; rfl⟩

private theorem WorkerGroup.enter_accepts (accepts : hdr.Accepts) (group : WorkerGroup hdr) (shard : Shard hdr) : ∃ latency,
    group.enter shard = some ⟨group.thread, group.connections + 1, saturatingAdd group.delivered shard.delivered, latency⟩ := by
  unfold WorkerGroup.enter
  cases shard.latency with
  | none => exact ⟨_, rfl⟩
  | some latency =>
    obtain ⟨merged, added⟩ := mergeHistogram_accepts accepts group.latency latency
    exact ⟨merged, by simp [added]⟩

/-- A group holds its thread's connections among those seen. -/
structure Share (owner : UInt32 → Option Nat) (weight : UInt32 → Nat) (done : List UInt32) (group : WorkerGroup hdr) : Prop where
  connections : group.connections.toNat = (classOf owner done group.thread).length
  delivered : group.delivered = min ((classOf owner done group.thread).map weight).sum u64Max

/-- The groups are the threads of the connections seen, each with its own. -/
structure Grouped (owner : UInt32 → Option Nat) (weight : UInt32 → Nat) (done : List UInt32) (groups : List (WorkerGroup hdr)) : Prop where
  threads : groups.map WorkerGroup.thread = keysOf owner done
  shares : ∀ group ∈ groups, Share owner weight done group

variable {group : WorkerGroup hdr} {conn : UInt32} {shard : Shard hdr}

theorem Share.other (share : Share owner weight done group) (other : owner conn ≠ some group.thread) :
    Share owner weight (done ++ [conn]) group := by
  have same : classOf owner (done ++ [conn]) group.thread = classOf owner done group.thread := Classes.classOf_snoc_other other
  exact ⟨by rw [same, share.connections], by rw [same, share.delivered]⟩

private theorem Share.enter (share : Share owner weight done group)
    (same : owner conn = some group.thread) (delivered : shard.delivered = min (weight conn) u64Max)
    (room : done.length + 1 < 2 ^ 32) (latency : Option hdr.Histogram) :
    Share owner weight (done ++ [conn])
      (⟨group.thread, group.connections + 1, saturatingAdd group.delivered shard.delivered, latency⟩ : WorkerGroup hdr) := by
  have more : classOf owner (done ++ [conn]) group.thread = classOf owner done group.thread ++ [conn] :=
    Classes.classOf_snoc_same same
  have one : UInt32.toNat 1 = 1 := rfl
  have few : (classOf owner done group.thread).length ≤ done.length := List.length_filter_le _ _
  constructor
  · simp only [more, List.length_append, List.length_singleton, UInt32.toNat_add, share.connections, one]
    exact Nat.mod_eq_of_lt (by omega)
  · simp only [more, List.map_append, List.sum_append, List.map_singleton, List.sum_singleton, share.delivered, delivered, saturatingAdd]
    omega

private theorem groupShard_enters (accepts : hdr.Accepts) {front back : List (WorkerGroup hdr)} {group : WorkerGroup hdr} {shard : Shard hdr}
    (first : shard.firstThread = some group.thread) (absent : group.thread ∉ front.map WorkerGroup.thread)
    (listed : groups = front ++ group :: back ∨ groups = front ∧ back = [] ∧ group = ⟨group.thread, 0, 0, none⟩) : ∃ latency,
      groupShard groups shard = some (front ++
        ⟨group.thread, group.connections + 1, saturatingAdd group.delivered shard.delivered, latency⟩ :: back) := by
  obtain ⟨latency, entered⟩ := group.enter_accepts accepts shard
  refine ⟨latency, ?_⟩
  have missed : (front.findIdx fun other => decide (other.thread = group.thread)) = front.length := by
    rw [List.findIdx_eq_length]
    intro other member
    exact decide_eq_false fun same => absent (List.mem_map.mpr ⟨other, member, same⟩)
  have present : (if groups.findIdx (fun other => decide (other.thread = group.thread)) < groups.length then groups
        else groups ++ [⟨group.thread, 0, 0, none⟩]) = front ++ group :: back ∧
      groups.findIdx (fun other => decide (other.thread = group.thread)) = front.length := by
    rcases listed with rfl | ⟨rfl, rfl, new⟩
    · have found : (front ++ group :: back).findIdx (fun other => decide (other.thread = group.thread)) = front.length := by
        rw [List.findIdx_append, missed, if_neg (Nat.lt_irrefl _), List.findIdx_cons]
        simp
      rw [found, if_pos (by simp)]
      exact ⟨rfl, rfl⟩
    · rw [missed, if_neg (Nat.lt_irrefl _), ← new]
      exact ⟨rfl, rfl⟩
  simp only [groupShard, first]
  rw [present.1, present.2]
  simp [entered]

theorem Grouped.step (accepts : hdr.Accepts) (grouped : Grouped owner weight done groups)
    (first : shard.firstThread = owner conn) (delivered : shard.delivered = min (weight conn) u64Max) (room : done.length + 1 < 2 ^ 32) :
    ∃ after, groupShard groups shard = some after ∧ Grouped owner weight (done ++ [conn]) after := by
  cases thread : owner conn with
  | none =>
    refine ⟨groups, by rw [groupShard, first, thread], ?_, fun group member => ?_⟩
    · rw [grouped.threads, Classes.keysOf_snoc_none thread]
    · exact (grouped.shares group member).other (by rw [thread]; exact (Option.some_ne_none _).symm)
  | some thread' =>
    have keys := @Classes.keysOf_snoc_some _ _ _ owner done _ _ thread
    have others {list : List (WorkerGroup hdr)} (part : list ⊆ groups) (absent : thread' ∉ list.map WorkerGroup.thread) :
        ∀ group ∈ list, Share owner weight (done ++ [conn]) group := by
      intro group member
      refine (grouped.shares group (part member)).other fun same => absent ?_
      rw [Option.some.inj (thread.symm.trans same)]
      exact List.mem_map_of_mem member
    by_cases known : thread' ∈ keysOf owner done
    · -- The thread has a group: it stands once in the list.
      rw [← grouped.threads] at known
      obtain ⟨group, member, rfl⟩ := List.mem_map.mp known
      obtain ⟨front, back, rfl⟩ := List.append_of_mem member
      have nodup : ((front ++ group :: back).map WorkerGroup.thread).Nodup := grouped.threads ▸ Classes.nodup_keysOf
      rw [List.map_append, List.map_cons, List.nodup_middle, List.nodup_cons, List.mem_append, not_or] at nodup
      obtain ⟨⟨before, behind⟩, _⟩ := nodup
      obtain ⟨latency, entered⟩ := groupShard_enters accepts (first.trans thread) before (.inl rfl)
      refine ⟨_, entered, ?_, ?_⟩
      · rw [keys, ← grouped.threads, if_pos known, List.map_append, List.map_append, List.map_cons, List.map_cons]
      · intro other among
        rcases List.mem_append.mp among with left | right
        · exact others (List.subset_append_left _ _) before other left
        rcases List.mem_cons.mp right with rfl | right
        · exact (grouped.shares group member).enter thread delivered room latency
        · exact others (fun _ inside => List.mem_append_right _ (List.mem_cons_of_mem _ inside)) behind other right
    · have absent : thread' ∉ groups.map WorkerGroup.thread := grouped.threads ▸ known
      have empty : Share owner weight done (⟨thread', 0, 0, none⟩ : WorkerGroup hdr) := by
        refine ⟨?_, ?_⟩ <;> rw [Classes.classOf_eq_nil known] <;> rfl
      obtain ⟨latency, entered⟩ := @groupShard_enters hdr groups accepts groups [] ⟨thread', 0, 0, none⟩ shard (first.trans thread) absent
        (.inr ⟨rfl, rfl, rfl⟩)
      refine ⟨_, entered, ?_, ?_⟩
      · rw [keys, if_neg known, List.map_append, grouped.threads]
        rfl
      · intro other among
        rcases List.mem_append.mp among with left | right
        · exact others (List.Subset.refl _) absent other left
        · rw [List.mem_singleton.mp right]
          exact empty.enter thread delivered room latency

theorem Grouped.run (accepts : hdr.Accepts) {rest : List UInt32} {shards : List (Shard hdr)}
    (inOrder : List.Forall₂ (fun conn shard => shard.firstThread = owner conn ∧ shard.delivered = min (weight conn) u64Max) rest shards)
    (grouped : Grouped owner weight done groups) (room : done.length + rest.length < 2 ^ 32) :
    ∃ after, shards.foldlM groupShard groups = some after ∧ Grouped owner weight (done ++ rest) after := by
  induction inOrder generalizing done groups with
  | nil => exact ⟨groups, rfl, by rwa [List.append_nil]⟩
  | @cons conn shard rest shards here _ ih =>
    rw [List.length_cons] at room
    obtain ⟨next, entered, more⟩ := grouped.step accepts here.1 here.2 (by omega)
    obtain ⟨after, folded, last⟩ := ih more (by rw [List.length_append, List.length_singleton]; omega)
    refine ⟨after, ?_, by rwa [List.append_cons]⟩
    rw [List.foldlM_cons, entered]
    exact folded

end Groups

/-! ### The loads -/

theorem WorkerLoad.before_iff {first second : WorkerLoad} : first.before second = true ↔
    second.connections < first.connections ∨ second.connections = first.connections ∧ second.delivered ≤ first.delivered := by
  have counts : (compare second.delivered first.delivered).isLE = true ↔ second.delivered ≤ first.delivered := Nat.isLE_compare
  have numbers : compare second.connections first.connections = compareOfLessAndEq second.connections first.connections := rfl
  unfold WorkerLoad.before
  rw [numbers, compareOfLessAndEq]
  split
  next less => simp [less]
  next less =>
    split
    next same => simp [same, counts]
    next differs => simp [less, differs]

section Loads
variable {hdr : Hdr} (connections : UInt32) (calls : List Call)

def threads : List Nat := keysOf (firstThread connections calls) (connectionList connections)

def served (thread : Nat) : List UInt32 := classOf (firstThread connections calls) (connectionList connections) thread

variable {connections calls}

variable {conn : UInt32} {recorder : Recorder hdr}

private theorem ownDelivered_eq_zero (none : firstThread connections calls conn = none) : ownDelivered connections calls conn = 0 := by
  have empty : ownHanded conn (handed connections calls) = [] := by
    rw [firstThread, Option.map_eq_none_iff, List.head?_eq_none_iff] at none
    exact none
  rw [ownDelivered, ← ownHanded_arrivals, empty]
  rfl

theorem mem_connectionList : conn ∈ connectionList connections ↔ conn < connections := by
  rw [connectionList, List.mem_map]
  constructor
  · rintro ⟨number, inside, rfl⟩
    have small := List.mem_range.mp inside
    rw [UInt32.lt_iff_toNat_lt, UInt32.toNat_ofNat_of_lt' (Nat.lt_trans small connections.toNat_lt)]
    exact small
  · intro inside
    exact ⟨conn.toNat, List.mem_range.mpr (UInt32.lt_iff_toNat_lt.mp inside), UInt32.ofNat_toNat⟩

private theorem connectionList_nodup : (connectionList connections).Nodup := by
  refine List.Nodup.map_on (fun one first two second same => ?_) List.nodup_range
  have small {number : Nat} (inside : number ∈ List.range connections.toNat) : (UInt32.ofNat number).toNat = number :=
    UInt32.toNat_ofNat_of_lt' (Nat.lt_trans (List.mem_range.mp inside) connections.toNat_lt)
  rw [← small first, same, small second]

private theorem sum_ownDelivered_le :
    ((connectionList connections).map (ownDelivered connections calls)).sum ≤ (handed connections calls).length := by
  have classes := @Classes.sum_classes_of _ _ _ (fun arrival : Arrival => some arrival.stamp.connId) (arrivals connections calls) (fun _ => 1)
    (connectionList connections) connectionList_nodup
    (fun arrival member conn same => mem_connectionList.mpr (Option.some.inj same ▸ arrivals_inside member))
  have all : ((arrivals connections calls).filter fun arrival => (some arrival.stamp.connId).isSome) = arrivals connections calls :=
    List.filter_eq_self.mpr fun _ _ => rfl
  rw [all] at classes
  have each (conn : UInt32) : ownDelivered connections calls conn ≤
      ((classOf (fun arrival : Arrival => some arrival.stamp.connId) (arrivals connections calls) conn).map fun _ => 1).sum := by
    have same : classOf (fun arrival : Arrival => some arrival.stamp.connId) (arrivals connections calls) conn =
        ownArrivals conn (arrivals connections calls) := by simp [classOf, ownArrivals]
    rw [same, ownDelivered]
    simpa using Firsts.sublist.length_le
  calc ((connectionList connections).map (ownDelivered connections calls)).sum
      ≤ _ := List.sum_le_sum fun conn _ => each conn
    _ = ((arrivals connections calls).map fun _ => 1).sum := classes
    _ = (handed connections calls).length := by
      rw [List.map_const', List.sum_replicate, smul_eq_mul, Nat.mul_one, ← handed_arrivals, List.length_map]

private theorem sum_served :
    ((threads connections calls).map fun thread => ((served connections calls thread).map (ownDelivered connections calls)).sum).sum =
    ((connectionList connections).map (ownDelivered connections calls)).sum := by
  rw [threads]
  unfold served
  rw [Classes.sum_classes]
  induction connectionList connections with
  | nil => rfl
  | cons conn rest ih =>
    cases first : firstThread connections calls conn with
    | none =>
      rw [List.filter_cons_of_neg (by rw [first]; exact Bool.false_ne_true), ih, List.map_cons, List.sum_cons, ownDelivered_eq_zero first,
        Nat.zero_add]
    | some => rw [List.filter_cons_of_pos (by rw [first]; rfl), List.map_cons, List.sum_cons, ih, List.map_cons, List.sum_cons]

theorem Handled.report (accepts : hdr.Accepts) (handled : Handled connections calls recorder) : ∃ report,
    recorder.report = some report ∧
      report.delivered = min ((connectionList connections).map (ownDelivered connections calls)).sum u64Max := by
  have merges (latencies : List hdr.Histogram) (target : Option hdr.Histogram) :
      ∃ merged, latencies.foldlM mergeHistogram target = some merged := by
    induction latencies generalizing target with
    | nil => exact ⟨target, rfl⟩
    | cons latency rest ih =>
      obtain ⟨next, merged⟩ := mergeHistogram_accepts accepts target latency
      rw [List.foldlM_cons, merged]
      exact ih next
  obtain ⟨merged, folded⟩ := merges (recorder.shards.filterMap Shard.latency) none
  have weights : recorder.shards.map Shard.delivered =
      (connectionList connections).map fun conn => min (ownDelivered connections calls conn) u64Max := by
    have inOrder := handled.inOrder
    generalize connectionList connections = list at inOrder
    generalize recorder.shards = shards at inOrder
    induction inOrder with
    | nil => rfl
    | cons here _ ih => rw [List.map_cons, List.map_cons, here.2, ih]
  rw [Recorder.report, folded]
  refine ⟨_, rfl, ?_⟩
  change recorder.shards.foldl _ 0 = _
  rw [Saturating.foldl_eq_min Shard.delivered recorder.shards (Nat.zero_le _), weights, Nat.zero_add, Saturating.min_sum_min]

private theorem Handled.workerLoads (accepts : hdr.Accepts) (handled : Handled connections calls recorder) (f64 : F64)
    (workers : Nat) : ∃ busy,
      recorder.workerLoads f64 workers = some (busy ++ List.replicate (workers - busy.length) .zero) ∧
      (busy.map fun load => (load.connections.toNat, load.delivered)).Perm ((threads connections calls).map fun thread =>
        ((served connections calls thread).length, min ((served connections calls thread).map (ownDelivered connections calls)).sum u64Max)) ∧
      busy.Pairwise fun first second => first.before second = true := by
  have empty : @Grouped hdr (firstThread connections calls) (ownDelivered connections calls) [] [] :=
    ⟨rfl, fun _ member => absurd member List.not_mem_nil⟩
  have few : ([] : List UInt32).length + (connectionList connections).length < 2 ^ 32 := by
    rw [connectionList, List.length_map, List.length_range, List.length_nil, Nat.zero_add]
    exact connections.toNat_lt
  obtain ⟨groups, folded, grouped⟩ := empty.run accepts handled.inOrder few
  rw [List.nil_append] at grouped
  refine ⟨sortBy WorkerLoad.before (groups.map (WorkerGroup.load f64)), by rw [Recorder.workerLoads, folded]; rfl, ?_, ?_⟩
  · have shares : groups.map (fun group => (group.connections.toNat, group.delivered)) = (threads connections calls).map fun thread =>
        ((served connections calls thread).length, min ((served connections calls thread).map (ownDelivered connections calls)).sum u64Max) := by
      rw [threads, ← grouped.threads, List.map_map]
      apply List.map_congr_left
      intro group member
      rw [(grouped.shares group member).connections, (grouped.shares group member).delivered]
      rfl
    have sorted := (@sortBy_perm _ WorkerLoad.before (groups.map (WorkerGroup.load f64))).map
      fun load => (load.connections.toNat, load.delivered)
    rw [← shares]
    rw [List.map_map] at sorted
    exact sorted
  · refine sortBy_sorted (fun first second third => ?_) (fun first second => ?_) _
    all_goals simp only [WorkerLoad.before_iff, UInt32.lt_iff_toNat_lt, ← UInt32.toNat_inj]
    all_goals omega

/-- The worker loads of a run, whatever threads made its calls in whatever order. There is
one busy entry for each thread that made the first accepted call of some connection, with
those connections and all they delivered; the others are zero. So the entries add up to the
connections with an accepted call and to the report's deliveries, which are counted in 64
bits, and they come in descending order. -/
theorem worker_loads_partition (accepts : hdr.Accepts) (f64 : F64) (connections : UInt32) (calls : List Call) (workers : Nat) :
    ∃ recorder report loads busy,
      calls.foldlM Recorder.call (Recorder.new hdr connections) = some recorder ∧ recorder.report = some report ∧
      recorder.workerLoads f64 workers = some loads ∧
      loads = busy ++ List.replicate (workers - busy.length) .zero ∧ (∀ load ∈ busy, 1 ≤ load.connections) ∧
      loads.length = max (threads connections calls).length workers ∧
      (busy.map fun load => (load.connections.toNat, load.delivered)).Perm ((threads connections calls).map fun thread =>
        ((served connections calls thread).length,
          min ((served connections calls thread).map (ownDelivered connections calls)).sum u64Max)) ∧
      (∀ conn < connections, ownHanded conn (handed connections calls) ≠ [] →
        ∃! thread, thread ∈ threads connections calls ∧ conn ∈ served connections calls thread) ∧
      (loads.map fun load => load.connections.toNat).sum =
        ((connectionList connections).filter fun conn => ownHanded conn (handed connections calls) ≠ []).length ∧
      min (loads.map WorkerLoad.delivered).sum u64Max = report.delivered ∧
      ((handed connections calls).length < 2 ^ 64 → (loads.map WorkerLoad.delivered).sum = report.delivered) ∧
      loads.Pairwise fun first second => second.connections < first.connections ∨
        second.connections = first.connections ∧ second.delivered ≤ first.delivered := by
  obtain ⟨recorder, reached, handled⟩ := Handled.run accepts connections calls
  obtain ⟨report, reported, total⟩ := handled.report accepts
  obtain ⟨busy, listed, shares, sorted⟩ := handled.workerLoads accepts f64 workers
  have known (conn : UInt32) : ownHanded conn (handed connections calls) ≠ [] ↔ (firstThread connections calls conn).isSome := by
    rw [firstThread]
    cases ownHanded conn (handed connections calls) <;> simp
  have lengths : busy.length = (threads connections calls).length := by simpa using shares.length_eq
  have some_ (load : WorkerLoad) (member : load ∈ busy) : 1 ≤ load.connections := by
    obtain ⟨thread, made, same⟩ := List.mem_map.mp (shares.subset (List.mem_map_of_mem member))
    have nonempty : 0 < (served connections calls thread).length := List.length_pos_iff.mpr (Classes.classOf_ne_nil made)
    have count : load.connections.toNat = (served connections calls thread).length := (congrArg Prod.fst same).symm
    rw [UInt32.le_iff_toNat_le, count]
    exact nonempty
  have padding (weight : WorkerLoad → Nat) (zero : weight .zero = 0) :
      ((busy ++ List.replicate (workers - busy.length) WorkerLoad.zero).map weight).sum = (busy.map weight).sum := by
    rw [List.map_append, List.sum_append, List.map_replicate, zero, List.sum_replicate, smul_zero, Nat.add_zero]
  have delivered : (busy.map WorkerLoad.delivered).sum = ((threads connections calls).map fun thread =>
      min ((served connections calls thread).map (ownDelivered connections calls)).sum u64Max).sum := by
    simpa [Function.comp_def] using (shares.map Prod.snd).sum_eq
  have capped := Saturating.min_sum_min
    (fun thread => ((served connections calls thread).map (ownDelivered connections calls)).sum) (threads connections calls)
  rw [sum_served, ← total, ← delivered] at capped
  refine ⟨recorder, report, _, busy, reached, reported, listed, rfl, some_, ?_, shares, fun conn inside called => ?_, ?_, ?_, fun few => ?_, ?_⟩
  · rw [List.length_append, List.length_replicate, lengths]
    omega
  · obtain ⟨thread, first⟩ := Option.isSome_iff_exists.mp ((known conn).mp called)
    have member : conn ∈ connectionList connections := mem_connectionList.mpr inside
    refine ⟨thread, ⟨Classes.mem_keysOf.mpr ⟨conn, member, first⟩, List.mem_filter.mpr ⟨member, decide_eq_true first⟩⟩, ?_⟩
    rintro other ⟨_, also⟩
    exact Option.some.inj ((of_decide_eq_true (List.mem_filter.mp also).2).symm.trans first)
  · have counts : (busy.map fun load => load.connections.toNat).sum =
        ((threads connections calls).map fun thread => ((served connections calls thread).map fun _ => 1).sum).sum := by
      simpa [Function.comp_def] using (shares.map Prod.fst).sum_eq
    have chosen : ((connectionList connections).filter fun conn => decide (ownHanded conn (handed connections calls) ≠ [])) =
        (connectionList connections).filter fun conn => (firstThread connections calls conn).isSome := by
      apply List.filter_congr
      intro conn _
      simp only [known, Bool.decide_eq_true]
    rw [padding (fun load => load.connections.toNat) rfl, counts, chosen, threads]
    unfold served
    rw [Classes.sum_classes]
    simp
  · rw [padding WorkerLoad.delivered rfl]
    exact capped
  · have most : (busy.map WorkerLoad.delivered).sum ≤ (handed connections calls).length := by
      rw [delivered]
      refine Nat.le_trans (List.sum_le_sum fun thread _ => Nat.min_le_left _ _) ?_
      rw [sum_served]
      exact sum_ownDelivered_le
    rw [padding WorkerLoad.delivered rfl, ← capped, Nat.min_eq_left]
    exact Nat.le_trans most (Nat.le_sub_one_of_lt few)
  · refine List.pairwise_append.mpr ⟨sorted.imp WorkerLoad.before_iff.mp, ?_, fun load member other zero => ?_⟩
    · exact List.pairwise_replicate.mpr (.inr (.inr ⟨rfl, Nat.le_refl _⟩))
    · rw [(List.mem_replicate.mp zero).2]
      refine .inl (UInt32.lt_iff_toNat_lt.mpr ?_)
      exact UInt32.le_iff_toNat_le.mp (some_ load member)

end Loads

def sharedCalls : List Call :=
  [ .record (Stamp.encode ⟨2, 0, 5000000000⟩) 4000000000 7,
    .arm 5000000000 ⟨5000000000, 6000000000⟩ 5000000000,
    .record (Stamp.encode ⟨0, 0, 5000000000⟩) 5000000100 7,
    .record (Stamp.encode ⟨1, 0, 5000000000⟩) 5000000200 8,
    .record (Stamp.encode ⟨0, 1, 5000000000⟩) 5000000300 8,
    .record (Stamp.encode ⟨0, 2, 5000000000⟩) 5000000400 8,
    .record (Stamp.encode ⟨2, 0, 5000000000⟩) 5000000500 8 ]

theorem worker_loads_partition_shared : unitBuckets.Accepts ∧ ∃ recorder report loads,
    sharedCalls.foldlM Recorder.call (Recorder.new unitBuckets 4) = some recorder ∧ recorder.report = some report ∧
      recorder.workerLoads binary64 3 = some loads ∧ loads.length = 3 ∧
      (loads.map fun load => load.connections.toNat).sum = 3 ∧ (loads.map WorkerLoad.delivered).sum = report.delivered := by
  have accepts : unitBuckets.Accepts := ⟨fun _ _ _ _ => rfl, fun _ _ => rfl⟩
  refine ⟨accepts, ?_⟩
  obtain ⟨recorder, report, loads, _, reached, reported, listed, _, _, length, _, _, connections, _, delivered, _⟩ :=
    worker_loads_partition accepts binary64 4 sharedCalls 3
  have groups : (threads 4 sharedCalls).length = 2 := by decide +kernel
  have called : ((connectionList 4).filter fun conn => ownHanded conn (handed 4 sharedCalls) ≠ []).length = 3 := by decide +kernel
  have few : (handed 4 sharedCalls).length < 2 ^ 64 := by decide +kernel
  exact ⟨recorder, report, loads, reached, reported, listed, by rw [length, groups]; rfl, by rw [connections, called], delivered few⟩

example : (threads 4 sharedCalls).map (fun thread => (thread, served 4 sharedCalls thread)) = [(7, [0]), (8, [1, 2])] ∧
    ownDelivered 4 sharedCalls 0 = 3 := by decide +kernel

end UringMqtt.Bench

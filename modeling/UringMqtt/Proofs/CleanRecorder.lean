import UringMqtt.Proofs.RecorderExact

/-! A recorder that counted nothing foreign and nothing twice. Both counts only grow, so
neither happened at any time, and however many calls there were, every one was the
first arrival of its number. -/

namespace UringMqtt.Bench
open Lib

variable {hdr : Hdr}

namespace Shard
variable {shard after : Shard hdr} {stamp : Stamp} {originSec nowNs thread : Nat} {window : Window}

private theorem countFirst_duplicates (counted : shard.countFirst stamp originSec window nowNs = some after) :
    after.duplicates = shard.duplicates := by
  unfold countFirst at counted
  dsimp only at counted
  split at counted
  · cases counted
    rfl
  · split at counted
    · split at counted
      · cases counted
        rfl
      · obtain ⟨histogram, _, same⟩ := Option.bind_eq_some_iff.mp counted
        cases same
        rfl
    · cases counted
      rfl

theorem accept_duplicates (accepted : shard.accept stamp originSec window nowNs thread = some after) :
    after.duplicates = if shard.marked stamp.seq.toNat then saturatingAdd shard.duplicates 1 else shard.duplicates := by
  obtain ⟨seen, entered, _⟩ := setSeqBit_spec { shard with firstThread := some (shard.firstThread.getD thread) } stamp.seq.toNat
  rw [show marked { shard with firstThread := some (shard.firstThread.getD thread) } stamp.seq.toNat =
    shard.marked stamp.seq.toNat from rfl] at entered
  cases before : shard.marked stamp.seq.toNat with
  | true =>
    simp only [accept, entered, before] at accepted
    cases accepted
    rfl
  | false =>
    simp only [accept, entered, before] at accepted
    exact (countFirst_duplicates accepted).trans rfl

end Shard

namespace Recorder

structure Clean (recorder : Recorder hdr) : Prop where
  foreign : recorder.foreign = 0
  duplicates : ∀ shard ∈ recorder.shards, shard.duplicates = 0

variable {self after : Recorder hdr} {payload : Bytes} {nowNs thread : Nat}

private theorem record_either (recorded : self.record payload nowNs thread = some after) :
    after = self.noteForeign ∨ ∃ (stamp : Stamp) (originSec : Nat) (window : Window) (shard entered : Shard hdr),
      self.shards[stamp.connId.toNat]? = some shard ∧ shard.accept stamp originSec window nowNs thread = some entered ∧
      after = { self with shards := self.shards.set stamp.connId.toNat entered } := by
  unfold record at recorded
  split at recorded
  · exact .inl (Option.some.inj recorded).symm
  next originSec window _ =>
    split at recorded
    · exact .inl (Option.some.inj recorded).symm
    next stamp _ =>
      split at recorded
      · exact .inl (Option.some.inj recorded).symm
      next shard place =>
        obtain ⟨entered, accepted, same⟩ := Option.bind_eq_some_iff.mp recorded
        exact .inr ⟨stamp, originSec, window, shard, entered, place, accepted, (Option.some.inj same).symm⟩

private theorem Clean.of_record (clean : after.Clean) (recorded : self.record payload nowNs thread = some after) : self.Clean := by
  rcases record_either recorded with rfl | ⟨stamp, originSec, window, shard, entered, place, accepted, rfl⟩
  · exact absurd clean.foreign (Nat.succ_ne_zero _)
  · refine ⟨clean.foreign, fun other member => ?_⟩
    obtain ⟨index, position⟩ := List.getElem?_of_mem member
    by_cases here : stamp.connId.toNat = index
    · rw [here, position] at place
      cases place
      have later : entered ∈ self.shards.set index entered :=
        List.mem_of_getElem? (List.getElem?_set_self (List.getElem?_eq_some_iff.mp position).1)
      have none := clean.duplicates entered (here ▸ later)
      rw [Shard.accept_duplicates accepted] at none
      split at none
      · exact (Saturating.saturatingAdd_eq_zero.mp none).1
      · exact none
    · exact clean.duplicates other (List.mem_of_getElem? ((List.getElem?_set_ne here).trans position))

private theorem Clean.of_call {call : Call} (clean : after.Clean) (called : self.call call = some after) :
    self.Clean := by
  cases call with
  | arm originNs window nowNs =>
    rw [call_arm] at called
    cases called
    exact ⟨clean.foreign, clean.duplicates⟩
  | record payload nowNs thread => exact clean.of_record called
  | recordOnTopic on payload nowNs thread =>
    rw [Recorder.call, recordOnTopic] at called
    split at called
    · exact clean.of_record called
    · cases called
      exact absurd clean.foreign (Nat.succ_ne_zero _)

theorem clean_of_report {recorder : Recorder hdr} {report : DeliveryReport} (reported : recorder.report = some report)
    (foreign : report.foreign = 0) (duplicates : report.duplicates = 0) : recorder.Clean ∧ report.delivered ≤ u64Max := by
  obtain ⟨merged, _, same⟩ := Option.bind_eq_some_iff.mp reported
  cases same
  exact ⟨⟨foreign, (Saturating.foldl_eq_zero duplicates).2⟩, Saturating.foldl_le _ _ (Nat.zero_le _)⟩

end Recorder

/-- The calls on a clean recorder: every delivery arrived, and no number twice. -/
structure Once (law : hdr.Behaviour) (connections : UInt32) (calls : List Call) (recorder : Recorder hdr) : Prop where
  tallied : Tallied law connections calls recorder
  all : deliveries calls = (arrivals connections calls).length
  once : ((arrivals connections calls).map Arrival.key).Nodup

variable {law : hdr.Behaviour} {connections : UInt32} {calls : List Call} {before recorder : Recorder hdr}

variable {written : List (UInt32 × UInt64)} {call : Call}

theorem arrivals_few (once : ((arrivals connections calls).map Arrival.key).Nodup)
    (own : ∀ arrival ∈ arrivals connections calls, arrival.key ∈ written) :
    (arrivals connections calls).length ≤ written.length := by
  rw [← List.length_map Arrival.key]
  refine (List.subperm_of_subset once fun key member => ?_).length_le
  obtain ⟨arrival, received, rfl⟩ := List.mem_map.mp member
  exact own arrival received

theorem Once.fresh (once : Once law connections calls before) (clean : recorder.Clean) {arrival : Arrival}
    (armed : before.armed ≠ none) (found : call.arrival connections = some arrival)
    (called : before.call call = some recorder) : arrival.key ∉ (arrivals connections calls).map Arrival.key := by
  obtain ⟨⟨originSec, window⟩, setting⟩ := Option.ne_none_iff_exists'.mp armed
  obtain ⟨shard, place, result⟩ := Recorder.call_arrival once.tallied.size call setting found
  rw [called] at result
  obtain ⟨entered, accepted, same⟩ := Option.map_eq_some_iff.mp result.symm
  intro again
  have recorded := once.tallied.shards _ (.inr (once.tallied.armed.symm.trans setting)) _ _ place
  have marked : shard.marked arrival.stamp.seq.toNat = true := by
    rw [recorded.seen]
    obtain ⟨earlier, received, key⟩ := List.mem_map.mp again
    refine List.mem_map.mpr ⟨earlier, List.mem_filter.mpr ⟨received, ?_⟩, key⟩
    exact decide_eq_true (congrArg Prod.fst key)
  have counted := Shard.accept_duplicates accepted
  rw [if_pos marked] at counted
  have member : entered ∈ recorder.shards := by
    rw [← same]
    exact List.mem_of_getElem? (List.getElem?_set_self (List.getElem?_eq_some_iff.mp place).1)
  rw [clean.duplicates entered member] at counted
  exact Nat.one_ne_zero (Saturating.saturatingAdd_eq_zero.mp counted.symm).2

theorem Once.step (once : Once law connections calls before) (clean : recorder.Clean)
    (called : before.call call = some recorder) (small : written.length ≤ u64Max)
    (own : ∀ arrival ∈ arrivals connections (calls ++ [call]), arrival.key ∈ written) :
    Once law connections (calls ++ [call]) recorder := by
  have list : deliveries (calls ++ [call]) = (arrivals connections (calls ++ [call])).length ∧
      ((arrivals connections (calls ++ [call])).map Arrival.key).Nodup := by
    rw [deliveries_snoc, arrivals_snoc, once.all]
    cases delivered : call.delivers with
    | false =>
      have none : call.arrival connections = none := by
        cases call with
        | arm => rfl
        | record | recordOnTopic => cases delivered
      simpa [none] using once.once
    | true =>
      by_cases unknown : before.armed = none ∨ call.arrival connections = none
      · rw [Recorder.call_foreign once.tallied.size call delivered unknown] at called
        cases called
        exact absurd clean.foreign (Nat.succ_ne_zero _)
      · obtain ⟨armed, isArrival⟩ := not_or.mp unknown
        obtain ⟨arrival, found⟩ := Option.ne_none_iff_exists'.mp isArrival
        have new := once.fresh clean armed found called
        rw [once.tallied.armed] at armed
        rw [if_pos (Option.isSome_iff_ne_none.mpr armed), found]
        refine ⟨by rw [List.length_append]; rfl, ?_⟩
        rw [List.map_append, List.nodup_append]
        refine ⟨once.once, List.nodup_singleton _, fun key old other same equal => new ?_⟩
        rw [List.mem_singleton.mp same] at equal
        exact equal ▸ old
  have room : deliveries (calls ++ [call]) ≤ u64Max := by
    rw [list.1]
    exact Nat.le_trans (arrivals_few list.2 own) small
  obtain ⟨after, again, tallied⟩ := once.tallied.step call room
  rw [called] at again
  cases again
  exact ⟨tallied, list.1, list.2⟩

theorem Recorder.Clean.run (law : hdr.Behaviour) (clean : recorder.Clean)
    (reached : calls.foldlM Recorder.call (Recorder.new hdr connections) = some recorder)
    (small : written.length ≤ u64Max)
    (own : ∀ arrival ∈ arrivals connections calls, arrival.key ∈ written) : Once law connections calls recorder := by
  induction calls using List.reverseRecOn generalizing recorder with
  | nil =>
    cases reached
    exact ⟨.fresh, rfl, List.nodup_nil⟩
  | append_singleton calls call ih =>
    rw [List.foldlM_append] at reached
    obtain ⟨before, earlier, called⟩ := Option.bind_eq_some_iff.mp reached
    have called : before.call call = some recorder := by simpa using called
    have known : ∀ arrival ∈ arrivals connections calls, arrival.key ∈ written := by
      intro arrival received
      apply own
      rw [arrivals_snoc]
      exact List.mem_append_left _ received
    exact (ih (clean.of_call called) earlier known).step clean called small own

theorem reportAfter_once (law : hdr.Behaviour) {report : DeliveryReport} (reported : reportAfter hdr connections calls = some report)
    (foreign : report.foreign = 0) (duplicates : report.duplicates = 0)
    (small : written.length ≤ u64Max) (own : ∀ arrival ∈ arrivals connections calls, arrival.key ∈ written) :
    deliveries calls = (arrivals connections calls).length ∧ report.delivered = (arrivals connections calls).length ∧
      ((arrivals connections calls).map Arrival.key).Nodup := by
  obtain ⟨recorder, reached, made⟩ := Option.bind_eq_some_iff.mp reported
  have once := (Recorder.clean_of_report made foreign duplicates).1.run law reached small own
  have room : deliveries calls ≤ u64Max := by
    rw [once.all]
    exact Nat.le_trans (arrivals_few once.once own) small
  obtain ⟨again, exact, _, total, _⟩ := once.tallied.report room
  rw [made] at exact
  cases exact
  exact ⟨once.all, by omega, once.once⟩

end UringMqtt.Bench

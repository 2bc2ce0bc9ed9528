import UringMqtt.Proofs.ShardTally

/-! A recorder under any list of calls. Each call is one step under its shard's lock,
so a concurrent use of the recorder is such a list. -/

namespace UringMqtt.Bench
open Lib

inductive Call
  | arm (originNs : Nat) (window : Window) (nowNs : Nat)
  | record (payload : Bytes) (nowNs thread : Nat)
  | recordOnTopic (on : String) (payload : Bytes) (nowNs thread : Nat)

/-- The arrival a payload stands for at a recorder of that many connections. -/
def arrivalOf (connections : UInt32) (payload : Bytes) (nowNs : Nat) : Option Arrival :=
  match Stamp.decode payload with
  | none => none
  | some stamp => if stamp.connId < connections then some ⟨stamp, nowNs⟩ else none

namespace Call

/-- The second of the origin and the window, if the call is an acceptable arm. -/
def arming : Call → Option (Nat × Window)
  | .arm originNs window nowNs =>
    if Recorder.skew originNs nowNs ≤ armOriginSkewMaxNs ∧ originNs ≤ window.startNs ∧ window.startNs < window.endNs ∧
        window.endNs - originNs ≤ windowMaxSpanNs then
      some (originNs / oneSecondNs, window)
    else none
  | .record .. | .recordOnTopic .. => none

def delivers : Call → Bool
  | .arm .. => false
  | .record .. | .recordOnTopic .. => true

/-- The arrival of a call with a decodable stamp of the run on the benchmark topic. -/
def arrival (connections : UInt32) : Call → Option Arrival
  | .arm .. => none
  | .record payload nowNs _ => arrivalOf connections payload nowNs
  | .recordOnTopic on payload nowNs _ => if on = topic then arrivalOf connections payload nowNs else none

def thread : Call → Nat
  | .arm .. => 0
  | .record _ _ thread | .recordOnTopic _ _ _ thread => thread

end Call

def armedBy (calls : List Call) : Option (Nat × Window) := calls.findSome? Call.arming

def arrivals (connections : UInt32) (calls : List Call) : List Arrival :=
  (calls.dropWhile fun call => call.arming.isNone).filterMap (Call.arrival connections)

def deliveries (calls : List Call) : Nat := calls.countP Call.delivers

theorem armedBy_snoc (calls : List Call) (call : Call) : armedBy (calls ++ [call]) = (armedBy calls).or call.arming := by
  rw [armedBy, List.findSome?_append, List.findSome?_singleton]
  rfl

theorem deliveries_snoc (calls : List Call) (call : Call) :
    deliveries (calls ++ [call]) = deliveries calls + if call.delivers then 1 else 0 := by
  rw [deliveries, List.countP_append, List.countP_singleton]
  rfl

theorem Call.arming_arrival (connections : UInt32) (call : Call) (arms : call.arming.isSome) :
    call.arrival connections = none := by
  cases call with
  | arm => rfl
  | record | recordOnTopic => cases arms

theorem armed_snoc {β : Type} {take : Call → Option β} (quiet : ∀ call, call.arming.isSome → take call = none) (calls : List Call)
    (call : Call) :
    ((calls ++ [call]).dropWhile fun call => call.arming.isNone).filterMap take =
      (calls.dropWhile fun call => call.arming.isNone).filterMap take ++
        if (armedBy calls).isSome then (take call).toList else [] := by
  induction calls with
  | nil =>
    cases arms : call.arming with
    | none => simp [armedBy, arms]
    | some setting =>
      have none_yet := quiet call (by rw [arms]; rfl)
      simp [armedBy, arms, none_yet]
  | cons first rest ih =>
    cases arms : first.arming with
    | none =>
      have later : armedBy (first :: rest) = armedBy rest := by simp [armedBy, arms]
      simpa [arms, later] using ih
    | some setting =>
      have here : (armedBy (first :: rest)).isSome := by simp [armedBy, arms]
      rw [if_pos here]
      simp only [List.cons_append, List.dropWhile_cons, arms, Option.isNone_some, Bool.false_eq_true, if_false]
      rw [← List.cons_append, List.filterMap_append]
      cases found : take call <;> simp [found]

theorem arrivals_snoc (connections : UInt32) (calls : List Call) (call : Call) :
    arrivals connections (calls ++ [call]) =
      arrivals connections calls ++ if (armedBy calls).isSome then (call.arrival connections).toList else [] :=
  armed_snoc (Call.arming_arrival connections) calls call

variable {connections : UInt32}

theorem arrivalOf_stamp {payload : Bytes} {nowNs : Nat} {arrival : Arrival}
    (found : arrivalOf connections payload nowNs = some arrival) :
    Stamp.decode payload = some arrival.stamp ∧ arrival.nowNs = nowNs ∧ arrival.stamp.connId < connections := by
  unfold arrivalOf at found
  split at found
  next => cases found
  next stamp decoded =>
    split at found
    next inside =>
      cases found
      exact ⟨decoded, rfl, inside⟩
    next => cases found

private theorem Call.arrival_inside {call : Call} {arrival : Arrival}
    (found : call.arrival connections = some arrival) : arrival.stamp.connId < connections := by
  cases call with
  | arm => cases found
  | record => exact (arrivalOf_stamp found).2.2
  | recordOnTopic on payload nowNs thread =>
    by_cases matching : on = topic
    · rw [Call.arrival, if_pos matching] at found
      exact (arrivalOf_stamp found).2.2
    · rw [Call.arrival, if_neg matching] at found
      cases found

theorem arrivals_inside {calls : List Call} {arrival : Arrival}
    (member : arrival ∈ arrivals connections calls) : arrival.stamp.connId < connections := by
  obtain ⟨call, _, found⟩ := List.mem_filterMap.mp member
  exact Call.arrival_inside found

namespace Recorder
variable {hdr : Hdr}

def call (self : Recorder hdr) : Call → Option (Recorder hdr)
  | .arm originNs window nowNs =>
    match self.armAt originNs window nowNs with
    | .ok armed => some armed
    | .error _ => some self
  | .record payload nowNs thread => self.record payload nowNs thread
  | .recordOnTopic on payload nowNs thread => self.recordOnTopic on payload nowNs thread

theorem call_arm (self : Recorder hdr) (originNs : Nat) (window : Window) (nowNs : Nat) :
    self.call (.arm originNs window nowNs) =
      some { self with armed := self.armed.or (Call.arm originNs window nowNs).arming } := by
  have refused (none : (Call.arm originNs window nowNs).arming = none)
      (answer : ∃ text, self.armAt originNs window nowNs = .error text) :
      self.call (.arm originNs window nowNs) =
        some { self with armed := self.armed.or (Call.arm originNs window nowNs).arming } := by
    obtain ⟨text, answer⟩ := answer
    rw [call, answer, none, Option.or_none]
  by_cases far : skew originNs nowNs > armOriginSkewMaxNs
  · exact refused (if_neg (by omega)) ⟨_, if_pos far⟩
  by_cases before : window.startNs < originNs
  · apply refused (if_neg (by omega))
    rw [armAt, if_neg far, if_pos before]
    exact ⟨_, rfl⟩
  by_cases improper : window.startNs ≥ window.endNs
  · apply refused (if_neg (by omega))
    rw [armAt, if_neg far, if_neg before, if_pos improper]
    exact ⟨_, rfl⟩
  by_cases long : window.endNs - originNs > windowMaxSpanNs
  · apply refused (if_neg (by omega))
    rw [armAt, if_neg far, if_neg before, if_neg improper, if_pos long]
    exact ⟨_, rfl⟩
  have acceptable : (Call.arm originNs window nowNs).arming = some (originNs / oneSecondNs, window) :=
    if_pos (by omega)
  rw [acceptable, call, armAt, if_neg far, if_neg before, if_neg improper, if_neg long]
  obtain ⟨armed, shards, foreign⟩ := self
  cases armed <;> rfl

variable {connections : UInt32} {self : Recorder hdr}

variable {payload : Bytes} {nowNs originSec : Nat} {window : Window}

section
variable (size : self.shards.length = connections.toNat)
include size

private theorem record_foreign (thread : Nat)
    (unknown : self.armed = none ∨ arrivalOf connections payload nowNs = none) :
    self.record payload nowNs thread = some self.noteForeign := by
  unfold record
  split
  next => rfl
  next originSec window armed =>
    have absent : arrivalOf connections payload nowNs = none :=
      unknown.resolve_left fun unarmed => Option.some_ne_none _ (armed.symm.trans unarmed)
    unfold arrivalOf at absent
    split
    next => rfl
    next stamp decoded =>
      rw [decoded] at absent
      have outside : ¬stamp.connId < connections := by simpa using absent
      rw [List.getElem?_eq_none (by rw [size]; exact Nat.not_lt.mp outside)]

private theorem record_arrival (thread : Nat)
    {arrival : Arrival} (armed : self.armed = some (originSec, window))
    (found : arrivalOf connections payload nowNs = some arrival) :
    ∃ shard, self.shards[arrival.stamp.connId.toNat]? = some shard ∧
      self.record payload nowNs thread = (shard.accept arrival.stamp originSec window arrival.nowNs thread).map
        fun after => { self with shards := self.shards.set arrival.stamp.connId.toNat after } := by
  obtain ⟨decoded, rfl, inside⟩ := arrivalOf_stamp found
  have within : arrival.stamp.connId.toNat < self.shards.length := by
    rw [size]
    exact inside
  refine ⟨_, List.getElem?_eq_getElem within, ?_⟩
  simp only [record, armed, decoded, List.getElem?_eq_getElem within]
  cases Shard.accept _ arrival.stamp originSec window arrival.nowNs thread <;> rfl

theorem call_foreign (call : Call) (delivers : call.delivers)
    (unknown : self.armed = none ∨ call.arrival connections = none) : self.call call = some self.noteForeign := by
  cases call with
  | arm => cases delivers
  | record payload nowNs thread => exact record_foreign size thread unknown
  | recordOnTopic on payload nowNs thread =>
    by_cases matching : on = topic
    · rw [Call.arrival, if_pos matching] at unknown
      rw [Recorder.call, recordOnTopic, if_pos matching, record_foreign size thread unknown]
    · rw [Recorder.call, recordOnTopic, if_neg matching]

theorem call_arrival (call : Call)
    {arrival : Arrival} (armed : self.armed = some (originSec, window)) (found : call.arrival connections = some arrival) :
    ∃ shard, self.shards[arrival.stamp.connId.toNat]? = some shard ∧
      self.call call = (shard.accept arrival.stamp originSec window arrival.nowNs call.thread).map
        fun after => { self with shards := self.shards.set arrival.stamp.connId.toNat after } := by
  cases call with
  | arm => cases found
  | record payload nowNs thread => exact record_arrival size thread armed found
  | recordOnTopic on payload nowNs thread =>
    by_cases matching : on = topic
    · rw [Call.arrival, if_pos matching] at found
      rw [Recorder.call, recordOnTopic, if_pos matching]
      exact record_arrival size thread armed found
    · rw [Call.arrival, if_neg matching] at found
      cases found

theorem call_cases (call : Call) :
    (∃ after, self.call call = some after ∧ after.shards = self.shards ∧ after.armed = self.armed.or call.arming ∧
      after.foreign = self.foreign + (if call.delivers then 1 else 0) ∧
      (self.armed = none ∨ call.arrival connections = none)) ∨
    ∃ originSec window arrival, self.armed = some (originSec, window) ∧ call.arrival connections = some arrival ∧
      call.delivers ∧ call.arming = none := by
  cases delivered : call.delivers with
  | false =>
    cases call with
    | arm originNs window nowNs => exact .inl ⟨_, self.call_arm originNs window nowNs, rfl, rfl, rfl, .inr rfl⟩
    | record | recordOnTopic => cases delivered
  | true =>
    have disarms : call.arming = none := by
      cases call with
      | arm => cases delivered
      | record | recordOnTopic => rfl
    by_cases unknown : self.armed = none ∨ call.arrival connections = none
    · refine .inl ⟨_, call_foreign size call delivered unknown, rfl, ?_, rfl, unknown⟩
      rw [disarms, Option.or_none]
      rfl
    · obtain ⟨isArmed, isArrival⟩ := not_or.mp unknown
      obtain ⟨⟨originSec, window⟩, setting⟩ := Option.ne_none_iff_exists'.mp isArmed
      obtain ⟨arrival, found⟩ := Option.ne_none_iff_exists'.mp isArrival
      exact .inr ⟨originSec, window, arrival, setting, found, rfl, disarms⟩

end

end Recorder

def ownArrivals (conn : UInt32) (received : List Arrival) : List Arrival :=
  received.filter fun arrival => arrival.stamp.connId = conn

/-- What the calls have left in the recorder. Before it is armed its shards are as new
for any origin and window. -/
structure Tallied {hdr : Hdr} (law : hdr.Behaviour) (connections : UInt32) (calls : List Call) (recorder : Recorder hdr) :
    Prop where
  armed : recorder.armed = armedBy calls
  foreign : recorder.foreign + (arrivals connections calls).length = deliveries calls
  size : recorder.shards.length = connections.toNat
  shards : ∀ setting, armedBy calls = none ∨ armedBy calls = some setting →
    ∀ conn shard, recorder.shards[conn.toNat]? = some shard →
      Shard.Recorded law setting.1 setting.2 conn shard (ownArrivals conn (arrivals connections calls))

namespace Tallied
variable {hdr : Hdr} {law : hdr.Behaviour} {connections : UInt32} {calls : List Call} {recorder : Recorder hdr}

theorem fresh : Tallied law connections [] (Recorder.new hdr connections) := by
  refine ⟨rfl, rfl, List.length_replicate, fun setting _ conn shard found => ?_⟩
  have new : shard = .new := by
    rw [Recorder.new, List.getElem?_replicate] at found
    split at found
    next => exact (Option.some.inj found).symm
    next => cases found
  rw [new]
  exact Shard.recorded_new

section
variable (counts : Tallied law connections calls recorder)
include counts

private theorem unchanged (call : Call)
    (none : (if (armedBy calls).isSome then (call.arrival connections).toList else []) = []) (after : Recorder hdr)
    (same : after.shards = recorder.shards) (armed : after.armed = armedBy (calls ++ [call]))
    (foreign : after.foreign = recorder.foreign + if call.delivers then 1 else 0) :
    Tallied law connections (calls ++ [call]) after := by
  have received : arrivals connections (calls ++ [call]) = arrivals connections calls := by
    rw [arrivals_snoc, none, List.append_nil]
  refine ⟨armed, ?_, by rw [same, counts.size], fun setting either => ?_⟩
  · rw [received, foreign, deliveries_snoc, ← counts.foreign, Nat.add_right_comm]
  · rw [same, received]
    apply counts.shards
    rw [armedBy_snoc] at either
    rcases before : armedBy calls with _ | held
    · exact .inl rfl
    · rw [before] at either
      exact either

theorem entered (call : Call) {originSec : Nat} {window : Window}
    {arrival : Arrival} (armed : recorder.armed = some (originSec, window))
    (found : call.arrival connections = some arrival) (delivers : call.delivers) (disarms : call.arming = none)
    (room : deliveries (calls ++ [call]) ≤ u64Max) : ∃ after,
      recorder.call call = some after ∧ Tallied law connections (calls ++ [call]) after := by
  obtain ⟨shard, place, called⟩ := Recorder.call_arrival counts.size call armed found
  have setting : armedBy calls = some (originSec, window) := counts.armed.symm.trans armed
  have received : arrivals connections (calls ++ [call]) = arrivals connections calls ++ [arrival] := by
    rw [arrivals_snoc, setting, found]
    rfl
  have same : armedBy (calls ++ [call]) = armedBy calls := by rw [armedBy_snoc, disarms, Option.or_none]
  have total := counts.foreign
  rw [deliveries_snoc, if_pos delivers] at room
  have few : (ownArrivals arrival.stamp.connId (arrivals connections calls)).length ≤ (arrivals connections calls).length :=
    List.length_filter_le _ _
  obtain ⟨after, accepted, recorded⟩ := Shard.accept_recorded arrival call.thread
    (counts.shards _ (.inr setting) _ _ place) rfl (by omega)
  refine ⟨_, by rw [called, accepted]; rfl, by rw [same]; exact counts.armed, ?_, ?_, ?_⟩
  · rw [received, deliveries_snoc, if_pos delivers, ← total, List.length_append, ← Nat.add_assoc]
    rfl
  · rw [List.length_set]
    exact counts.size
  · rw [same, setting, received]
    intro chosen either conn other position
    obtain rfl : (originSec, window) = chosen := Option.some.inj (either.resolve_left (Option.some_ne_none _))
    rw [ownArrivals, List.filter_append]
    by_cases own : arrival.stamp.connId = conn
    · subst own
      rw [List.getElem?_set_self (List.getElem?_eq_some_iff.mp place).1] at position
      cases position
      simpa [ownArrivals] using recorded
    · have apart : arrival.stamp.connId.toNat ≠ conn.toNat := fun equal => own (UInt32.toNat_inj.mp equal)
      rw [List.getElem?_set_ne apart] at position
      simpa [ownArrivals, own] using counts.shards _ (.inr setting) conn other position

theorem step (call : Call)
    (room : deliveries (calls ++ [call]) ≤ u64Max) : ∃ after,
      recorder.call call = some after ∧ Tallied law connections (calls ++ [call]) after := by
  rcases Recorder.call_cases counts.size call with ⟨after, called, same, armed, foreign, unknown⟩ | delivery
  · refine ⟨after, called, counts.unchanged call ?_ after same ?_ foreign⟩
    · rcases unknown with unarmed | absent
      · rw [← counts.armed, unarmed]
        rfl
      · rw [absent]
        split <;> rfl
    · rw [armed, armedBy_snoc, counts.armed]
  · obtain ⟨originSec, window, arrival, setting, found, delivers, disarms⟩ := delivery
    exact counts.entered call setting found delivers disarms room

end

theorem run (law : hdr.Behaviour) (connections : UInt32) (calls : List Call) (room : deliveries calls ≤ u64Max) :
    ∃ recorder, calls.foldlM Recorder.call (Recorder.new hdr connections) = some recorder ∧
      Tallied law connections calls recorder := by
  induction calls using List.reverseRecOn with
  | nil => exact ⟨_, rfl, fresh⟩
  | append_singleton calls call ih =>
    have fewer : deliveries calls ≤ deliveries (calls ++ [call]) := by
      rw [deliveries_snoc]
      exact Nat.le_add_right _ _
    obtain ⟨before, reached, counts⟩ := ih (Nat.le_trans fewer room)
    obtain ⟨after, called, more⟩ := counts.step call room
    refine ⟨after, ?_, more⟩
    rw [List.foldlM_append, reached]
    simpa using called

end Tallied

end UringMqtt.Bench

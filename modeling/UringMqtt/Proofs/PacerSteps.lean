import UringMqtt.Bench.Pacer
import UringMqtt.Proofs.SlotGrid
import UringMqtt.Proofs.ShardTally

/-! What each part of the pacer does to the connection's accounts. -/

namespace UringMqtt.Bench
open Lib Run

variable {hdr : Hdr} {allocator : Allocator}

/-- The surroundings and the reader have gone on and `count` slots were missed; the
task's other accounts are untouched. -/
structure Moves (count : Nat) (before after : World hdr allocator) : Prop where
  env : after.env = before.env
  tick : before.tick ≤ after.tick
  missed : after.counters.missedSlots = before.counters.missedSlots + count
  offered : after.counters.offered = before.counters.offered
  overRange : after.counters.latenessOverRange = before.counters.latenessOverRange
  lateness : after.lateness = before.lateness
  handed : after.handed = before.handed
  completed : after.completed = before.completed

abbrev Quiet (before after : World hdr allocator) : Prop := Moves 0 before after

theorem Moves.refl (world : World hdr allocator) : Quiet world world := ⟨rfl, Nat.le_refl _, rfl, rfl, rfl, rfl, rfl, rfl⟩

theorem Moves.trans {one two three : World hdr allocator} {count more : Nat} (first : Moves count one two)
    (second : Moves more two three) : Moves (count + more) one three where
  env := second.env.trans first.env
  tick := Nat.le_trans first.tick second.tick
  missed := by rw [second.missed, first.missed, Nat.add_assoc]
  offered := second.offered.trans first.offered
  overRange := second.overRange.trans first.overRange
  lateness := second.lateness.trans first.lateness
  handed := second.handed.trans first.handed
  completed := second.completed.trans first.completed

private theorem readFrame_quiet (config : GenConfig) (world : World hdr allocator) (frame : Frame) :
    Quiet world (world.readFrame config frame) ∧ (world.readFrame config frame).tick = world.tick := by
  unfold World.readFrame
  split
  · exact ⟨.refl _, rfl⟩
  · cases frame with
    | puback packetId =>
      dsimp only
      split
      · split <;> exact ⟨⟨rfl, Nat.le_refl _, rfl, rfl, rfl, rfl, rfl, rfl⟩, rfl⟩
      · exact ⟨⟨rfl, Nat.le_refl _, rfl, rfl, rfl, rfl, rfl, rfl⟩, rfl⟩
    | other | undecodable | readFailed | endOfStream | panics =>
      exact ⟨⟨rfl, Nat.le_refl _, rfl, rfl, rfl, rfl, rfl, rfl⟩, rfl⟩

private theorem readFrames_quiet (config : GenConfig) (frames : List Frame) (world : World hdr allocator) :
    Quiet world (frames.foldl (World.readFrame config) world) ∧
      (frames.foldl (World.readFrame config) world).tick = world.tick := by
  induction frames generalizing world with
  | nil => exact ⟨.refl _, rfl⟩
  | cons frame rest ih =>
    obtain ⟨first, same⟩ := readFrame_quiet config world frame
    obtain ⟨later, again⟩ := ih (world.readFrame config frame)
    exact ⟨first.trans later, again.trans same⟩

section Asking
variable (config : GenConfig) (world : World hdr allocator) {stops : Stop → World hdr allocator → Prop}

theorem observe_ensures : Ensures (observe config) world
    (fun moment after => moment = world.env world.tick ∧ Quiet world after ∧ after.tick = world.tick + 1) stops := by
  obtain ⟨quiet, same⟩ := readFrames_quiet config (world.env world.tick).frames { world with tick := world.tick + 1 }
  refine ⟨rfl, ?_, same⟩
  exact { quiet with tick := by rw [same]; exact Nat.le_succ _ }

theorem monotonicNowNs_ensures : Ensures (monotonicNowNs config) world
    (fun now after => now = (world.env world.tick).nowNs ∧ Quiet world after ∧ after.tick = world.tick + 1) stops := by
  apply Ensures.bind (observe_ensures config world)
  rintro moment after ⟨rfl, rest⟩
  exact .pure ⟨rfl, rest⟩

theorem await_ensures (aborts : ∀ after, Quiet world after → stops .aborted after) : Ensures (await config) world
    (fun moment after => moment = world.env world.tick ∧ Quiet world after ∧ after.tick = world.tick + 1) stops := by
  apply Ensures.bind (observe_ensures config world)
  rintro moment after ⟨rfl, quiet, next⟩
  split
  · exact .bind (.throw (aborts after quiet)) fun _ _ => id
  · exact .pure ⟨rfl, quiet, next⟩

private theorem allocate_ensures : Ensures (allocate config) world (fun _ after => Quiet world after) stops := by
  apply Ensures.bind (observe_ensures config world)
  rintro moment after ⟨_, quiet, _⟩
  exact ⟨{ quiet with }⟩

theorem addMissedSlots_ensures (count : Nat) :
    Ensures (addMissedSlots count) world (fun _ after => Moves count world after) stops :=
  ⟨⟨rfl, Nat.le_refl _, rfl, rfl, rfl, rfl, rfl, rfl⟩⟩

end Asking

/-- Fuel for a loop that ends once the clock is past `endNs`: the clock is past it by
the time the fuel is used up. -/
structure Enough (endNs : Nat) (world : World hdr allocator) (fuel : Nat) : Prop where
  some : 1 ≤ fuel
  passes : ∀ moment, world.tick + fuel ≤ moment + 1 → endNs ≤ (world.env moment).nowNs

theorem Enough.next {endNs : Nat} {world after : World hdr allocator} {fuel moment : Nat}
    (enough : Enough endNs world (fuel + 1)) (env : after.env = world.env) (later : world.tick < after.tick)
    (seen : world.tick ≤ moment) (before : (world.env moment).nowNs < endNs) : Enough endNs after fuel := by
  constructor
  · apply Nat.one_le_iff_ne_zero.mpr
    rintro rfl
    have passed := enough.passes moment (by omega)
    omega
  · intro reached far
    rw [env]
    exact enough.passes reached (by omega)

section Pacing
variable {config : GenConfig} {connId : UInt32} {rate : Nat} {world : World hdr allocator}
  {stops : Stop → World hdr allocator → Prop}

theorem pacerWait_ensures (fuel dueNs : Nat) (early : dueNs ≤ config.window.endNs) (world : World hdr allocator) :
    Ensures (pacerWait config fuel dueNs) world (fun _ after => Quiet world after ∧ world.tick < after.tick)
      (fun reason after => Quiet world after ∧
        (reason = .aborted ∨ reason = .unfinished ∧ ¬Enough config.window.endNs world fuel)) := by
  induction fuel generalizing world with
  | zero =>
    refine Ensures.throw ⟨.refl _, .inr ⟨rfl, fun enough => ?_⟩⟩
    exact absurd enough.some (by omega)
  | succ fuel ih =>
    apply Ensures.bind (monotonicNowNs_ensures config world)
    rintro now read ⟨rfl, quiet, next⟩
    split
    · exact .pure ⟨quiet, by omega⟩
    next waiting =>
      refine Ensures.bind (await_ensures config read fun after more => ⟨quiet.trans more, .inl rfl⟩) ?_
      rintro moment woken ⟨rfl, more, again⟩
      have both : Quiet world woken := quiet.trans more
      apply (ih woken).weaken
      · rintro _ after ⟨rest, later⟩
        exact ⟨both.trans rest, by omega⟩
      · rintro reason after ⟨rest, cause⟩
        refine ⟨both.trans rest, cause.imp_right fun used => ⟨used.1, fun enough => used.2 ?_⟩⟩
        exact enough.next both.env (by omega) (Nat.le_refl world.tick) (by omega)

def dueAt (config : GenConfig) (connId : UInt32) (rate slotK : Nat) : Nat :=
  (slotDueNs connId.toNat slotK config.connections.toNat rate config.originNs.toNat).getD 0

section Paced
variable (paced : config.Paced rate) (member : connId < config.connections)
include paced

variable {slotK : Nat} {batch : List Slot} {after : World hdr allocator}

theorem dueAt_lt (inside : slotK < config.ownSlots connId rate) :
    dueAt config connId rate slotK < slotGridEndNs config.window := by
  obtain ⟨due, known, before⟩ := paced.lt_ownSlots.mp inside
  rw [dueAt, known]
  exact before

theorem countRemainingMissed_ensures (startK : Nat) (world : World hdr allocator) :
    Ensures (countRemainingMissed config connId rate startK) world
      (fun _ after => Moves (config.ownSlots connId rate - startK) world after) stops := by
  change Ensures (addMissedSlots (min (config.ownSlots connId rate - startK) u64Max)) world _ stops
  rw [Nat.min_eq_left (Nat.le_trans (Nat.sub_le _ _) paced.ownSlots_le)]
  exact addMissedSlots_ensures world _

private theorem skipPastDueMissed_ensures (inside : slotK ≤ config.ownSlots connId rate) (world : World hdr allocator) :
    Ensures (skipPastDueMissed config connId rate slotK) world
      (fun reached after => slotK ≤ reached ∧ reached ≤ config.ownSlots connId rate ∧ Moves (reached - slotK) world after)
      stops := by
  have small : config.ownSlots connId rate ≤ u64Max := paced.ownSlots_le
  apply Ensures.bind (monotonicNowNs_ensures config world)
  rintro now read ⟨rfl, quiet, _⟩
  dsimp only
  rw [show ownSlotCount connId.toNat config.connections.toNat (config.windowDueJCount rate) =
    config.ownSlots connId rate from rfl]
  generalize ownSlotCount connId.toNat config.connections.toNat _ = pastDue
  split
  next none => exact .pure ⟨Nat.le_refl _, inside, by rwa [Nat.sub_self]⟩
  next ahead =>
    apply Ensures.bind (addMissedSlots_ensures read _)
    intro _ after counted
    have reached : min (min pastDue (config.ownSlots connId rate)) u64Max = min pastDue (config.ownSlots connId rate) := by
      omega
    have skipped : min (min pastDue (config.ownSlots connId rate) - slotK) u64Max =
        min pastDue (config.ownSlots connId rate) - slotK := by
      omega
    rw [skipped] at counted
    have both := quiet.trans counted
    rw [Nat.zero_add] at both
    rw [reached]
    exact .pure ⟨by omega, by omega, both⟩

include member

theorem slotDue_ensures (inside : slotK ≤ config.ownSlots connId rate) (world : World hdr allocator)
    (panics : ¬config.SlotsFit rate → ∀ cause, stops (.panicked cause) world) :
    Ensures (slotDue config connId rate slotK) world
      (fun due after => after = world ∧ due = dueAt config connId rate slotK ∧
        (due < slotGridEndNs config.window ↔ slotK < config.ownSlots connId rate)) stops := by
  unfold slotDue
  cases known : slotDueNs connId.toNat slotK config.connections.toNat rate config.originNs.toNat with
  | none =>
    refine .throw (panics (fun fits => ?_) _)
    obtain ⟨due, some⟩ := paced.due_fits fits inside member
    cases known.symm.trans some
  | some due =>
    refine .pure ⟨rfl, by rw [dueAt, known]; rfl, ?_⟩
    rw [paced.lt_ownSlots, known]
    simp

/-- The batch takes slots in order from `slotK` on; what is skipped lies behind them. -/
structure Collected (config : GenConfig) (connId : UInt32) (rate slotK reached : Nat) (taken : List Slot) : Prop where
  dues : taken.map Prod.snd = (List.range' slotK taken.length).map (dueAt config connId rate)
  ids : config.qos = 1 → ∀ slot ∈ taken, slot.1 ≠ none
  passed : slotK + taken.length ≤ reached
  within : reached ≤ config.ownSlots connId rate

abbrev Collects (config : GenConfig) (connId : UInt32) (rate slotK : Nat) (batch : List Slot) (world : World hdr allocator)
    (result : Nat × List Slot) (after : World hdr allocator) : Prop :=
  ∃ taken, result.2 = batch ++ taken ∧ Collected config connId rate slotK result.1 taken ∧
    Moves (result.1 - (slotK + taken.length)) world after

omit paced member in
private theorem collects_nothing {reached : Nat} (onwards : slotK ≤ reached)
    (within : reached ≤ config.ownSlots connId rate) (moves : Moves (reached - slotK) world after) :
    Collects config connId rate slotK batch world (reached, batch) after :=
  ⟨[], (List.append_nil _).symm, ⟨rfl, fun _ _ none => absurd none List.not_mem_nil, onwards, within⟩, moves⟩

omit paced member in
private theorem collects_more {id : Option NonZeroU16} {current : World hdr allocator}
    {result : Nat × List Slot} (known : config.qos = 1 → id ≠ none) (quiet : Quiet world current)
    (rest : Collects config connId rate (slotK + 1) (batch ++ [(id, dueAt config connId rate slotK)]) current result after) :
    Collects config connId rate slotK batch world result after := by
  obtain ⟨taken, all, collected, moves⟩ := rest
  refine ⟨(id, dueAt config connId rate slotK) :: taken, ?_, ⟨?_, ?_, ?_, collected.within⟩, ?_⟩
  · rw [all, List.append_assoc, List.singleton_append]
  · rw [List.map_cons, List.length_cons, List.range'_succ, List.map_cons, collected.dues]
  · intro reliable slot either
    rcases List.mem_cons.mp either with rfl | later
    · exact known reliable
    · exact collected.ids reliable slot later
  · have passed := collected.passed
    rw [List.length_cons]
    omega
  · have both := quiet.trans moves
    rw [Nat.zero_add] at both
    rwa [List.length_cons, Nat.add_comm taken.length, ← Nat.add_assoc]

theorem latencyCollectBatch_ensures (room slotK : Nat) (batch : List Slot) (inside : slotK ≤ config.ownSlots connId rate)
    (world : World hdr allocator)
    (panics : ¬config.SlotsFit rate → ∀ cause after, Quiet world after → stops (.panicked cause) after) :
    Ensures (latencyCollectBatch config connId rate room slotK batch) world
      (Collects config connId rate slotK batch world) stops := by
  induction room generalizing slotK batch world with
  | zero => exact .pure (collects_nothing (Nat.le_refl _) inside (by rw [Nat.sub_self]; exact .refl _))
  | succ room ih =>
    apply Ensures.bind (slotDue_ensures paced member inside world fun unfit cause => panics unfit cause world (.refl _))
    rintro due current ⟨rfl, rfl, before⟩
    split
    · exact .pure (collects_nothing (Nat.le_refl _) inside (by rw [Nat.sub_self]; exact .refl _))
    next early =>
    have next : slotK + 1 ≤ config.ownSlots connId rate := before.mp (Nat.not_le.mp early)
    have advance : saturatingAdd slotK 1 = slotK + 1 :=
      Saturating.saturatingAdd_exact (Nat.le_trans next paced.ownSlots_le)
    apply Ensures.bind (monotonicNowNs_ensures config current)
    rintro now read ⟨rfl, quiet, _⟩
    split
    · exact .pure (collects_nothing (Nat.le_refl _) inside (by rwa [Nat.sub_self]))
    rw [advance]
    split
    · apply Ensures.bind (allocate_ensures config read)
      intro id allocated also
      have both : Quiet current allocated := quiet.trans also
      cases id with
      | none =>
        apply Ensures.bind (skipPastDueMissed_ensures paced inside allocated)
        rintro reached after ⟨onwards, within, moves⟩
        have all := both.trans moves
        rw [Nat.zero_add] at all
        exact .pure (collects_nothing onwards within all)
      | some id =>
        apply (ih (slotK + 1) _ next allocated fun unfit cause after more => panics unfit cause after (both.trans more)).weaken
        · exact fun result after rest => collects_more (fun _ => Option.some_ne_none id) both rest
        · exact fun _ _ stopped => stopped
    next other =>
      apply (ih (slotK + 1) _ next read fun unfit cause after more => panics unfit cause after (quiet.trans more)).weaken
      · exact fun result after rest => collects_more (fun same => absurd same other) quiet rest
      · exact fun _ _ stopped => stopped

end Paced

private theorem latencyReleaseBatchIds_ensures (batch : List Slot) (world : World hdr allocator) :
    Ensures (latencyReleaseBatchIds config batch) world (fun _ after => Quiet world after) stops := by
  unfold latencyReleaseBatchIds
  split
  · apply Ensures.bind (observe_ensures config world)
    rintro moment after ⟨_, quiet, _⟩
    exact .modify { quiet with }
  · exact .pure (.refl _)

theorem latencyDropBatch_ensures (paced : config.Paced rate) (batch : List Slot) (slotK : Nat) (world : World hdr allocator) :
    Ensures (latencyDropBatch config connId rate batch slotK) world
      (fun _ after => Moves (batch.length + (config.ownSlots connId rate - slotK)) world after) stops := by
  apply Ensures.bind (latencyReleaseBatchIds_ensures batch world)
  intro _ released quiet
  apply Ensures.bind (addMissedSlots_ensures released batch.length)
  intro _ counted dropped
  apply (countRemainingMissed_ensures paced slotK counted).weaken
  · intro _ after rest
    have all := (quiet.trans dropped).trans rest
    rwa [Nat.zero_add] at all
  · exact fun _ _ stopped => stopped

def encoded (config : GenConfig) (connId : UInt32) (seq : Nat) (batch : List Slot) : List Publication :=
  (batch.zipIdx seq).map fun entry =>
    ⟨if config.qos = 1 then entry.1.1 else none, ⟨connId, .ofNat entry.2, .ofNat entry.1.2⟩⟩

@[simp] theorem length_encoded (seq : Nat) (batch : List Slot) : (encoded config connId seq batch).length = batch.length := by
  rw [encoded, List.length_map, List.length_zipIdx]

private theorem slotPacketId_ensures (id : Option NonZeroU16) (known : config.qos = 1 → id ≠ none) (world : World hdr allocator) :
    Ensures (slotPacketId config id) world
      (fun packetId after => after = world ∧ packetId = if config.qos = 1 then id else none) stops := by
  unfold slotPacketId
  split
  next reliable =>
    cases id with
    | none => exact absurd rfl (known reliable)
    | some id => exact .pure ⟨rfl, rfl⟩
  next => exact .pure ⟨rfl, rfl⟩

theorem latencyEncodeBatch_ensures (batch : List Slot) (ids : config.qos = 1 → ∀ slot ∈ batch, slot.1 ≠ none) (seq : Nat)
    (room : seq + batch.length ≤ u64Max) (world : World hdr allocator) :
    Ensures (latencyEncodeBatch config connId batch seq) world
      (fun result after => after = world ∧ result = (encoded config connId seq batch, seq + batch.length)) stops := by
  induction batch generalizing seq with
  | nil => exact .pure ⟨rfl, rfl⟩
  | cons slot rest ih =>
    rw [List.length_cons] at room
    have advance : saturatingAdd seq 1 = seq + 1 := Saturating.saturatingAdd_exact (by omega)
    apply Ensures.bind (slotPacketId_ensures slot.1 (fun reliable => ids reliable slot List.mem_cons_self) world)
    rintro packetId current ⟨rfl, rfl⟩
    rw [advance]
    apply Ensures.bind (ih (fun reliable other member => ids reliable other (List.mem_cons_of_mem _ member)) (seq + 1)
      (by omega))
    rintro result after ⟨rfl, rfl⟩
    refine .pure ⟨rfl, Prod.ext_iff.mpr ⟨rfl, ?_⟩⟩
    rw [List.length_cons]
    dsimp only
    omega

private theorem recordLateness_ensures (law : hdr.Behaviour) {value : Nat} (positive : 1 ≤ value) (bounded : value ≤ latencyMaxNs)
    (world : World hdr allocator) (room : (law.samples world.lateness).card + 1 ≤ u64Max) :
    Ensures (recordLateness value) world (fun _ after => ∃ histogram, after = { world with lateness := histogram } ∧
      (law.samples histogram).card = (law.samples world.lateness).card + 1) stops := by
  obtain ⟨histogram, recorded, samples⟩ := law.record_samples world.lateness value positive bounded room
  apply Ensures.get_bind
  rw [recorded]
  exact .set ⟨histogram, rfl, by rw [samples, Multiset.card_cons]⟩

/-- The histogram and the count over the range have changed, together by `late`. -/
def Lateness (law : hdr.Behaviour) (late : Nat) (before after : World hdr allocator) : Prop :=
  ∃ histogram extra, after = { before with lateness := histogram, counters.latenessOverRange := extra } ∧
    (law.samples histogram).card + extra = (law.samples before.lateness).card + before.counters.latenessOverRange + late ∧
    (law.samples histogram).card ≤ (law.samples before.lateness).card + late

variable {law : hdr.Behaviour} {late : Nat} {writeBuf : List Publication} {batch : List Slot} {world : World hdr allocator}

private theorem Lateness.trans {one two three : World hdr allocator} {more : Nat}
    (first : Lateness law late one two) (second : Lateness law more two three) : Lateness law (late + more) one three := by
  obtain ⟨histogram, extra, rfl, total, most⟩ := first
  obtain ⟨final, last, rfl, sum, bound⟩ := second
  refine ⟨final, last, rfl, ?_, ?_⟩
  · dsimp only at sum
    omega
  · dsimp only at bound
    omega

private theorem recordSlotLateness_ensures (law : hdr.Behaviour) (sendNs due : Nat) (world : World hdr allocator)
    (room : (law.samples world.lateness).card + 1 ≤ u64Max) :
    Ensures (recordSlotLateness config sendNs due) world
      (fun _ after => Lateness law (if config.window.contains due then 1 else 0) world after) stops := by
  have inside : config.window.contains due = true ↔ due ≥ config.window.startNs ∧ due < config.window.endNs := by
    simp [Window.contains]
  simp only [recordSlotLateness, inside]
  split
  next =>
    split
    next => exact .modify ⟨world.lateness, _, rfl, rfl, Nat.le_add_right _ _⟩
    next within =>
      have bounded : max (sendNs - due) 1 ≤ latencyMaxNs := Nat.max_le.mpr ⟨Nat.not_lt.mp within, by decide⟩
      apply (recordLateness_ensures law (Nat.le_max_right _ 1) bounded world room).weaken
      · rintro _ after ⟨histogram, rfl, samples⟩
        refine ⟨histogram, world.counters.latenessOverRange, rfl, by omega, by omega⟩
      · exact fun _ _ stopped => stopped
  next => exact .pure ⟨_, _, rfl, rfl, Nat.le_refl _⟩

private theorem recordBatchLateness_ensures (law : hdr.Behaviour) (sendNs : Nat) (batch : List Slot) (world : World hdr allocator)
    (room : (law.samples world.lateness).card + batch.length ≤ u64Max) :
    Ensures (recordBatchLateness config sendNs batch) world
      (fun _ after => Lateness law (batch.countP fun slot => config.window.contains slot.2) world after) stops := by
  induction batch generalizing world with
  | nil => exact .pure ⟨_, _, rfl, rfl, Nat.le_refl _⟩
  | cons slot rest ih =>
    rw [List.length_cons] at room
    apply Ensures.bind (recordSlotLateness_ensures law sendNs slot.2 world (by omega))
    intro _ current first
    have most : (law.samples current.lateness).card ≤ (law.samples world.lateness).card + 1 := by
      obtain ⟨histogram, extra, rfl, _, most⟩ := first
      refine Nat.le_trans most (Nat.add_le_add_left ?_ _)
      split <;> decide
    apply (ih current (by omega)).weaken
    · intro _ after second
      rw [List.countP_cons, Nat.add_comm]
      exact first.trans second
    · exact fun _ _ stopped => stopped

/-- The batch was handed to the socket and counted as offered; `finished` of it has been
written, with `late` slots due in the window. -/
structure Hands (law : hdr.Behaviour) (writeBuf finished : List Publication) (late : Nat) (before after : World hdr allocator) :
    Prop where
  env : after.env = before.env
  tick : before.tick < after.tick
  missed : after.counters.missedSlots = before.counters.missedSlots
  offered : after.counters.offered = before.counters.offered + writeBuf.length
  handed : after.handed = before.handed ++ writeBuf
  completed : after.completed = before.completed ++ finished
  lateness : (law.samples after.lateness).card + after.counters.latenessOverRange =
    (law.samples before.lateness).card + before.counters.latenessOverRange + late

def Sends (law : hdr.Behaviour) (config : GenConfig) (batch : List Slot) (writeBuf : List Publication)
    (before : World hdr allocator) : SendOutcome → World hdr allocator → Prop
  | .windowEnded, after => Quiet before after
  | .sent, after => Hands law writeBuf writeBuf (batch.countP fun slot => config.window.contains slot.2) before after
  | .failed _, after => Hands law writeBuf [] 0 before after

private theorem Hands.quiet {finished : List Publication}
    {before middle after : World hdr allocator} (hands : Hands law writeBuf finished late before middle)
    (quiet : Quiet middle after) : Hands law writeBuf finished late before after where
  env := quiet.env.trans hands.env
  tick := Nat.lt_of_lt_of_le hands.tick quiet.tick
  missed := quiet.missed.trans hands.missed
  offered := quiet.offered.trans hands.offered
  handed := quiet.handed.trans hands.handed
  completed := quiet.completed.trans hands.completed
  lateness := by rw [quiet.lateness, quiet.overRange, hands.lateness]

private theorem beginWrite_ensures (law : hdr.Behaviour) {start : Nat}
    (size : writeBuf.length = batch.length) {read : World hdr allocator} (quiet : Quiet world read)
    (later : world.tick < read.tick) :
    Ensures (beginWrite config start batch writeBuf) read (fun _ after => Hands law writeBuf [] 0 world after ∧
      after.lateness = world.lateness) stops := by
  refine ⟨⟨⟨quiet.env, later, quiet.missed, ?_, ?_, ?_, ?_⟩, quiet.lateness⟩⟩
  · change read.counters.offered + batch.length = _
    rw [quiet.offered, size]
  · change read.handed ++ writeBuf = _
    rw [quiet.handed]
  · rw [List.append_nil]
    exact quiet.completed
  · change (law.samples read.lateness).card + read.counters.latenessOverRange = _
    rw [quiet.lateness, quiet.overRange, Nat.add_zero]

private theorem failBatch_ensures {cause : String} {current : World hdr allocator} (hands : Hands law writeBuf [] 0 world current) :
    Ensures (failBatch config batch cause) current (Sends law config batch writeBuf world) stops :=
  ⟨{ hands with }⟩

theorem latencySendBatch_ensures (law : hdr.Behaviour) (batch : List Slot) (writeBuf : List Publication)
    (size : writeBuf.length = batch.length) (world : World hdr allocator)
    (room : (law.samples world.lateness).card + batch.length ≤ u64Max) :
    Ensures (latencySendBatch config batch writeBuf) world (Sends law config batch writeBuf world)
      (fun reason after => reason = .aborted ∧ Hands law writeBuf [] 0 world after) := by
  apply Ensures.bind (monotonicNowNs_ensures config world)
  rintro start read ⟨rfl, quiet, next⟩
  split
  next => exact .pure quiet
  next =>
    apply Ensures.bind (beginWrite_ensures law size quiet (by omega))
    rintro _ begun ⟨hands, lateness⟩
    refine Ensures.bind (await_ensures config begun fun after more => ⟨rfl, hands.quiet more⟩) ?_
    rintro moment woken ⟨rfl, more, _⟩
    have both := hands.quiet more
    cases (begun.env begun.tick).written with
    | failed error => exact failBatch_ensures both
    | elapsed => exact failBatch_ensures both
    | done =>
      have noted : Hands law writeBuf writeBuf 0 world { woken with completed := woken.completed ++ writeBuf } :=
        { both with completed := by rw [both.completed, List.append_nil] }
      apply Ensures.modify_bind
      apply Ensures.bind (monotonicNowNs_ensures config _)
      rintro sendNs clocked ⟨rfl, still, _⟩
      have read : Hands law writeBuf writeBuf 0 world clocked := noted.quiet still
      have kept : clocked.lateness = world.lateness := by rw [still.lateness, more.lateness, lateness]
      apply Ensures.bind (recordBatchLateness_ensures law _ batch clocked (by rwa [kept]))
      rintro _ after ⟨histogram, extra, rfl, total, _⟩
      refine .pure { read with lateness := ?_ }
      rw [total, read.lateness, Nat.add_zero]

end Pacing
end UringMqtt.Bench

import UringMqtt.Proofs.AckSessions

/-! The acknowledgement account of an open-loop QoS 1 connection. Its pacer may give up
a batch it has already allocated ids for. -/

namespace UringMqtt.Bench
open Lib Run

variable {hdr : Hdr} {allocator : Allocator} {config : GenConfig} {law : allocator.Lawful}
  {world : World hdr allocator} {connId : UInt32} {rate : Nat}

abbrev slotIds (batch : List Slot) : List NonZeroU16 := batch.filterMap Prod.fst

private theorem latencyCollectBatch_takes (law : allocator.Lawful) (reliable : config.qos = 1) (room slotK : Nat) (batch : List Slot)
    (world : World hdr allocator) :
    Ensures (latencyCollectBatch config connId rate room slotK batch) world
      (fun result after => ∃ taken, result.2 = batch ++ taken ∧ (slotIds taken).length = taken.length ∧
        Takes config law (slotIds taken) world after)
      (Halts config law world) := by
  induction room generalizing slotK batch world with
  | zero => exact .pure ⟨[], (List.append_nil _).symm, rfl, .refl _⟩
  | succ room ih =>
    apply Ensures.bind (ensures_reads (reads_slotDue config law connId rate slotK) world)
    intro due current reads
    split
    · exact .pure ⟨[], (List.append_nil _).symm, rfl, reads⟩
    refine (ensures_reads (reads_monotonicNowNs config law) current).seq ?_ ?_
    · exact fun _ _ => Halts.after reads
    intro now clocked more
    have both : Reads config law world clocked := reads.trans more
    split
    · exact .pure ⟨[], (List.append_nil _).symm, rfl, both⟩
    refine (allocate_takes clocked).seq (fun _ _ => Halts.after both) ?_
    intro chosen allocated takes
    cases chosen with
    | none =>
      refine Ensures.bind ((ensures_reads (reads_skipPastDueMissed config law connId rate slotK) allocated).weaken
        (fun _ _ => id) fun _ _ => Halts.after (both.trans takes)) ?_
      exact fun reached after skips => .pure ⟨[], (List.append_nil _).symm, rfl, (both.trans takes).trans skips⟩
    | some packetId =>
      apply (ih _ _ allocated).weaken
      · rintro result after ⟨taken, all, whole, rest⟩
        refine ⟨(some packetId, due) :: taken, ?_, congrArg (· + 1) whole, (both.trans takes).trans rest⟩
        rw [all, List.append_assoc, List.singleton_append]
      · exact fun _ _ => Halts.after (both.trans takes)

private theorem latencyEncodeBatch_ids (reliable : config.qos = 1) (batch : List Slot) (seq : Nat) (world : World hdr allocator) :
    Ensures (latencyEncodeBatch config connId batch seq) world
      (fun result after => after = world ∧ result.1.filterMap Publication.packetId = slotIds batch ∧
        result.1.length = batch.length) (fun _ after => after = world) := by
  induction batch generalizing seq with
  | nil => exact .pure ⟨rfl, rfl, rfl⟩
  | cons slot rest ih =>
    obtain ⟨chosen, due⟩ := slot
    unfold latencyEncodeBatch slotPacketId
    rw [if_pos reliable]
    cases chosen with
    | none => exact .throw rfl
    | some packetId =>
      apply Ensures.bind (ih _)
      rintro result after ⟨rfl, ids, size⟩
      refine .pure ⟨rfl, ?_, congrArg (· + 1) size⟩
      change packetId :: result.1.filterMap Publication.packetId = packetId :: slotIds rest
      rw [ids]

theorem Offers.later {middle after : World hdr allocator} {writeBuf : List Publication} (reads : Reads config law world middle)
    (offers : Offers config law writeBuf middle after) : Offers config law writeBuf world after where
  ledger reliable ledger pending whole := by
    refine offers.ledger reliable (reads.ledger reliable ledger) ?_ whole
    rw [reads.pending, List.append_nil, pending]
  log := reads.log.trans offers.log
  pending := offers.pending
  handed := by rw [offers.handed, reads.handed]
  offered := by rw [offers.offered, reads.offered]
  stalled := offers.stalled.trans reads.stalled
  missed := Nat.le_trans reads.missed offers.missed

private theorem beginWrite_offers (law : allocator.Lawful) (start : Nat) {batch : List Slot} {writeBuf : List Publication}
    (size : writeBuf.length = batch.length) (world : World hdr allocator) {stops : Stop → World hdr allocator → Prop} :
    Ensures (beginWrite config start batch writeBuf) world (fun _ after => Offers config law writeBuf world after) stops := by
  refine ⟨⟨fun reliable ledger pending whole => ?_, List.prefix_append _ _, rfl, rfl, ?_, rfl, Nat.le_refl _⟩⟩
  · refine ledger.offer pending (whole.trans size) rfl rfl rfl rfl rfl rfl ?_ rfl
    simp only [reliable, if_true]
    rfl
  · rw [size]
    rfl

private theorem latencySendBatch_offers (law : allocator.Lawful) (reliable : config.qos = 1) (batch : List Slot)
    (writeBuf : List Publication) (size : writeBuf.length = batch.length) (world : World hdr allocator) :
    Ensures (latencySendBatch config batch writeBuf) world
      (fun outcome after => if outcome = .windowEnded then Reads config law world after
        else Offers config law writeBuf world after)
      (fun _ after => Reads config law world after ∨ Offers config law writeBuf world after) := by
  refine (reads_monotonicNowNs config law).seq (fun _ _ => .inl) ?_
  intro start clocked reads
  split
  · exact .pure reads
  apply Ensures.bind (beginWrite_offers law start size clocked)
  intro _ begun offers
  have offers := offers.later reads
  refine (reads_await config law).seq (fun _ _ more => .inr (offers.reads more)) ?_
  intro moment woken more
  have offers := offers.reads more
  have fails (cause : String) : Ensures (failBatch config batch cause) woken
      (fun outcome after => if outcome = .windowEnded then Reads config law world after
        else Offers config law writeBuf world after)
      (fun _ after => Reads config law world after ∨ Offers config law writeBuf world after) := by
    have kept : woken.counters.stalled + (if config.qos ≠ 1 then batch.length else 0) = woken.counters.stalled := by
      simp [reliable]
    refine ⟨?_⟩
    change Offers config law writeBuf world { woken with
      counters.stalled := woken.counters.stalled + (if config.qos ≠ 1 then batch.length else 0) }
    rw [kept]
    exact offers
  cases moment.written with
  | failed error => exact fails _
  | elapsed => exact fails _
  | done =>
    refine (reads_noteCompleted config law writeBuf).seq ?_ ?_
    · exact fun _ _ later => .inr (offers.reads later)
    intro _ noted later
    have offers := offers.reads later
    refine (reads_monotonicNowNs config law).seq ?_ ?_
    · exact fun _ _ still => .inr (offers.reads still)
    intro sendNs read still
    have offers := offers.reads still
    refine (reads_recordBatchLateness config law sendNs batch).seq ?_ ?_
    · exact fun _ _ last => .inr (offers.reads last)
    · exact fun _ _ last => .pure (offers.reads last)

/-! ### Giving up a batch -/

private theorem holds_released (law : allocator.Lawful) (ids : allocator.Ids) (batch : List NonZeroU16) (other : NonZeroU16) :
    law.holds (batch.foldl (fun ids id => (allocator.release ids id.get).2) ids) other =
      (law.holds ids other && !batch.contains other) := by
  induction batch generalizing ids with
  | nil => simp
  | cons id rest ih =>
    rw [List.foldl_cons, ih, (law.release_holds ids id).2, List.contains_cons]
    by_cases same : other = id <;> cases law.holds ids other <;> simp [same]

private theorem Ledger.giveUp (ledger : Ledger law world) (calm : Calm world.log) :
    Ledger law { world with
      ids := world.pending.foldl (fun ids id => (allocator.release ids id.get).2) world.ids
      pending := [] } := by
  refine { ledger with count := fun id => ?_ }
  have count := ledger.count id
  have within := ledger.within calm id
  dsimp only
  rw [holds_released, List.count_nil, Nat.add_zero]
  have most := Bool.toNat_le (law.holds world.ids id)
  by_cases member : id ∈ world.pending
  · have some := List.count_pos_iff.mpr member
    have given : (!world.pending.contains id) = false := by simpa using member
    rw [given, Bool.and_false, Bool.toNat_false]
    omega
  · have none := List.count_eq_zero_of_not_mem member
    have kept : (!world.pending.contains id) = true := by simpa using member
    rw [kept, Bool.and_true]
    omega

/-- The account of a pacer between two batches; or a PUBACK came for a batch that was then
given up, and its slots are counted missed. -/
def Paces (law : allocator.Lawful) (world : World hdr allocator) : Prop :=
  Ledger law world ∧ world.pending = [] ∧ world.counters.stalled = 0 ∨
    ¬Calm world.log ∧ 0 < world.counters.missedSlots

theorem Paces.reads (paces : Paces law world) (reliable : config.qos = 1) {after : World hdr allocator}
    (reads : Reads config law world after) : Paces law after := by
  apply paces.imp
  · rintro ⟨ledger, none, fresh⟩
    exact ⟨reads.ledger reliable ledger, by rw [reads.pending, none, List.append_nil], reads.stalled.trans fresh⟩
  · rintro ⟨stormy, some⟩
    exact ⟨fun calm => stormy fun entry member => calm entry (reads.log.subset member), Nat.lt_of_lt_of_le some reads.missed⟩

private theorem latencyDropBatch_paces (reliable : config.qos = 1) (batch : List Slot) (some : batch ≠ []) (slotK : Nat)
    (ledger : Ledger law world) (fresh : world.counters.stalled = 0) (pending : world.pending = slotIds batch) :
    Ensures (latencyDropBatch config connId rate batch slotK) world (fun _ after => Paces law after)
      (fun _ after => Ledger law after) := by
  have released : Ensures (latencyReleaseBatchIds config batch) world
      (fun _ after => (Calm after.log → Ledger law after) ∧ after.pending = [] ∧ after.counters.stalled = 0)
      (fun _ after => Ledger law after) := by
    unfold latencyReleaseBatchIds
    rw [if_pos reliable]
    refine (reads_observe config law).seq ?_ ?_
    · exact fun _ _ reads => reads.ledger reliable ledger
    intro moment current reads
    refine .modify ⟨fun calm => ?_, rfl, reads.stalled.trans fresh⟩
    have same : slotIds batch = current.pending := by rw [reads.pending, List.append_nil, pending]
    have given := (reads.ledger reliable ledger).giveUp calm
    rwa [← same] at given
  apply Ensures.bind released
  rintro _ current ⟨ledger, none, fresh⟩
  apply Ensures.modify_bind
  have counted : Paces law { current with counters.missedSlots := current.counters.missedSlots + batch.length } := by
    by_cases calm : Calm current.log
    · exact .inl ⟨{ ledger calm with }, none, fresh⟩
    · exact .inr ⟨calm, Nat.add_pos_right _ (List.length_pos_iff.mpr some)⟩
  exact .modify (counted.reads reliable (.beside id (Nat.le_add_right _ _)))

theorem pacerLoop_paces (reliable : config.qos = 1) (fuel slotK seq : Nat) (ledger : Ledger law world)
    (none : world.pending = []) (fresh : world.counters.stalled = 0) :
    Ensures (pacerLoop config connId rate fuel slotK seq) world (fun _ after => Paces law after)
      (fun _ after => Ledger law after) := by
  induction fuel generalizing slotK seq world with
  | zero => exact .throw ledger
  | succ fuel ih =>
    have paces : Paces law world := .inl ⟨ledger, none, fresh⟩
    have step {α : Type} {program : Gen hdr allocator α} (ran : Along (Reads config law) program) {current : World hdr allocator}
        (so_far : Reads config law world current) :
        Ensures program current (fun _ after => Reads config law world after) (fun _ after => Ledger law after) :=
      (Ensures.along ran).weaken (fun _ _ more => so_far.trans more) fun _ _ more =>
        (so_far.trans more).ledger reliable ledger
    apply Ensures.bind (step (reads_slotDue config law connId rate slotK) (.refl world))
    intro due current reads
    split
    · exact .pure (paces.reads reliable reads)
    apply Ensures.bind (step (reads_pacerWait config law fuel due) reads)
    intro _ waited reads
    apply Ensures.bind (step (reads_monotonicNowNs config law) reads)
    intro now clocked reads
    split
    · apply Ensures.bind (step (reads_addMissedSlots config law _) reads)
      exact fun _ _ reads => .pure (paces.reads reliable reads)
    refine (latencyCollectBatch_takes law reliable batchMax slotK [] clocked).seq ?_ ?_
    · rintro reason stopped ⟨taken, takes⟩
      exact (reads.trans takes).ledger reliable ledger
    rintro ⟨reached, batch⟩ full ⟨taken, same, whole, takes⟩
    obtain rfl : batch = taken := same
    have takes := reads.trans takes
    have held := takes.ledger reliable ledger
    have pending : full.pending = slotIds batch := by rw [takes.pending, none]; rfl
    have still : full.counters.stalled = 0 := takes.stalled.trans fresh
    dsimp only
    split
    next empty =>
      obtain rfl : batch = [] := List.isEmpty_iff.mp empty
      exact ih reached seq held pending still
    next some =>
    refine (latencyEncodeBatch_ids reliable batch seq full).seq ?_ ?_
    · rintro reason stopped rfl
      exact held
    rintro result encodedAt ⟨rfl, ids, size⟩
    have carried : encodedAt.pending = result.1.filterMap Publication.packetId := by rw [pending, ids]
    have complete : (result.1.filterMap Publication.packetId).length = result.1.length := by rw [ids, size, whole]
    refine (latencySendBatch_offers law reliable batch result.1 size encodedAt).seq ?_ ?_
    · rintro reason stopped (reads | offers)
      · exact reads.ledger reliable held
      · exact offers.ledger reliable held carried complete
    intro outcome sentAt sends
    have settles (offers : Offers config law result.1 encodedAt sentAt) :
        Ledger law sentAt ∧ sentAt.pending = [] ∧ sentAt.counters.stalled = 0 :=
      ⟨offers.ledger reliable held carried complete, offers.pending, offers.stalled.trans still⟩
    cases outcome with
    | sent =>
      obtain ⟨ledger, none, fresh⟩ := settles sends
      exact ih reached result.2 ledger none fresh
    | windowEnded =>
      have reads : Reads config law encodedAt sentAt := sends
      refine Ensures.bind (latencyDropBatch_paces reliable batch ?_ reached (reads.ledger reliable held)
        (reads.stalled.trans still) ?_) fun _ _ dropped => .pure dropped
      · exact fun empty => some (List.isEmpty_iff.mpr empty)
      · rw [reads.pending, pending, List.append_nil]
    | failed cause =>
      have kept : Paces law sentAt := .inl (settles sends)
      refine (reads_addMissedSlots config law _).seq ?_ ?_
      · exact fun _ _ reads => reads.ledger reliable (settles sends).1
      · exact fun _ _ reads => .pure (kept.reads reliable reads)

end UringMqtt.Bench

import UringMqtt.Proofs.AckLedger

/-! What the parts of a generator session do to its acknowledgement account and to the
publishes it has handed over. -/

namespace UringMqtt.Bench
open Lib Run

variable {hdr : Hdr} {allocator : Allocator} (config : GenConfig) (law : allocator.Lawful)

section Reading

theorem reads_reraise : Along (Reads config law) (reraiseReaderPanic : Gen hdr allocator Unit) := by
  refine .bind .get fun world => ?_
  cases world.readerPanic with
  | some cause => exact .throw _
  | none => exact .pure _

theorem reads_abortReader : Along (Reads config law) (abortReader config : Gen hdr allocator Unit) :=
  .bind (reads_await config law) fun _ =>
    .bind (.update fun _ => .beside (fun _ => rfl) (Nat.le_refl _)) fun _ => reads_reraise config law

private theorem reads_joinReaderBy : Along (Reads config law) (joinReaderBy config : Gen hdr allocator Unit) := by
  refine .bind (reads_await config law) fun _ => .bind .get fun world => ?_
  split
  · exact reads_abortReader config law
  · exact reads_reraise config law

theorem reads_disconnectAndJoin (failure : Option String) (reader : Bool) :
    Along (Reads config law) (disconnectAndJoin config failure reader : Gen hdr allocator _) := by
  have writes : Along (Reads config law) (writeDisconnect config failure.isSome : Gen hdr allocator _) := by
    unfold writeDisconnect
    split
    · exact .pure _
    · exact .bind (reads_await config law) fun _ => .pure _
  have joins : Along (Reads config law) (joinHandle config reader : Gen hdr allocator Unit) := by
    unfold joinHandle
    split
    · exact reads_joinReaderBy config law
    · exact .pure _
  exact .bind writes fun _ => .bind (reads_await config law) fun _ => .bind joins fun _ => .pure _

theorem reads_takePermit : Along (Reads config law) (takePermit : Gen hdr allocator Bool) := by
  refine .bind .get fun world => ?_
  split
  · exact .pure _
  · exact .bind (.update fun _ => .beside id (Nat.le_refl _)) fun _ => .pure _

private theorem reads_acquirePermit (fuel : Nat) : Along (Reads config law) (acquirePermit config fuel : Gen hdr allocator Bool) := by
  induction fuel with
  | zero => exact .throw _
  | succ fuel ih =>
    refine .bind (reads_await config law) fun moment => .bind (reads_takePermit config law) fun taken => ?_
    split
    · exact .pure _
    · split
      · exact .pure _
      · exact ih

private theorem reads_fillBatch (room taken : Nat) : Along (Reads config law) (fillBatch config room taken : Gen hdr allocator Nat) := by
  induction room generalizing taken with
  | zero => exact .pure _
  | succ room ih =>
    refine .bind (reads_observe config law) fun _ => .bind (reads_takePermit config law) fun more => ?_
    split
    · exact ih _
    · exact .pure _

private theorem reads_returnPermits (permits : Nat) : Along (Reads config law) (returnPermits permits : Gen hdr allocator Unit) :=
  .update fun _ => .beside id (Nat.le_refl _)

theorem reads_slotDue (connId : UInt32) (rate slotK : Nat) :
    Along (Reads config law) (slotDue config connId rate slotK : Gen hdr allocator Nat) := by
  unfold slotDue
  split
  · exact .pure _
  · exact .throw _

theorem reads_pacerWait (fuel dueNs : Nat) : Along (Reads config law) (pacerWait config fuel dueNs : Gen hdr allocator Unit) := by
  induction fuel with
  | zero => exact .throw _
  | succ fuel ih =>
    refine .bind (reads_monotonicNowNs config law) fun now => ?_
    split
    · exact .pure _
    · exact .bind (reads_await config law) fun _ => ih

theorem reads_skipPastDueMissed (connId : UInt32) (rate slotK : Nat) :
    Along (Reads config law) (skipPastDueMissed config connId rate slotK : Gen hdr allocator Nat) := by
  refine .bind (reads_monotonicNowNs config law) fun now => ?_
  dsimp only
  split
  · exact .pure _
  · exact .bind (reads_addMissedSlots config law _) fun _ => .pure _

private theorem reads_recordLateness (value : Nat) : Along (Reads config law) (recordLateness value : Gen hdr allocator Unit) := by
  refine Ensures.to_along fun world => .get_bind ?_
  cases hdr.record world.lateness value with
  | some histogram => exact .set (.beside id (Nat.le_refl _))
  | none => exact .throw (.refl _)

theorem reads_recordBatchLateness (sendNs : Nat) (batch : List Slot) :
    Along (Reads config law) (recordBatchLateness config sendNs batch : Gen hdr allocator Unit) := by
  induction batch with
  | nil => exact .pure _
  | cons slot rest ih =>
    refine .bind ?_ fun _ => ih
    unfold recordSlotLateness
    split
    · dsimp only
      split
      · exact .update fun _ => .beside id (Nat.le_refl _)
      · exact reads_recordLateness config law _
    · exact .pure _

end Reading

def Publication.key (self : Publication) : UInt32 × UInt64 := (self.stamp.connId, self.stamp.seq)

/-- The keys of the publishes numbered from `start` on; the numbers stop at the largest. -/
def numbered (connId : UInt32) (start count : Nat) : List (UInt32 × UInt64) :=
  (List.range' start count).map fun number => (connId, .ofNat (min number u64Max))

private theorem numbered_cons (connId : UInt32) (start count : Nat) :
    numbered connId start (count + 1) = (connId, .ofNat (min start u64Max)) :: numbered connId (start + 1) count := by
  rw [numbered, List.range'_succ, List.map_cons, numbered]

private theorem numbered_append (connId : UInt32) (start count more : Nat) :
    numbered connId start count ++ numbered connId (start + count) more = numbered connId start (count + more) := by
  rw [numbered, numbered, numbered, ← List.map_append, List.range'_append_1]

theorem saturatingAdd_min (number : Nat) : saturatingAdd (min number u64Max) 1 = min (number + 1) u64Max := by
  unfold saturatingAdd
  omega

section Batches
variable {config law} {world : World hdr allocator} {connId : UInt32}

theorem Ledger.allocate (ledger : Ledger law world) {id : NonZeroU16} (chosen : (allocator.allocate world.ids).1 = some id) :
    Ledger law { world with ids := (allocator.allocate world.ids).2, pending := world.pending ++ [id] } := by
  obtain ⟨unused, used⟩ := law.allocate_some world.ids id chosen
  refine { ledger with count := fun other => ?_ }
  have count := ledger.count other
  dsimp only
  rw [used, List.count_append]
  by_cases same : other = id
  · subst other
    rw [unused] at count
    rw [List.count_singleton_self]
    simpa [← Nat.add_assoc] using count
  · have apart : [id].count other = 0 := List.count_eq_zero.mpr (by simpa using same)
    simpa [same, apart] using count

private theorem takes_allocated (world : World hdr allocator) :
    Takes config law (allocator.allocate world.ids).1.toList world { world with
      ids := (allocator.allocate world.ids).2
      pending := world.pending ++ (allocator.allocate world.ids).1.toList } := by
  refine ⟨fun _ ledger => ?_, List.prefix_rfl, rfl, rfl, rfl, rfl, Nat.le_refl _, Nat.le_refl _, fun stopped => ⟨stopped, rfl⟩⟩
  cases chosen : (allocator.allocate world.ids).1 with
  | none =>
    rw [law.allocate_none world.ids chosen, Option.toList_none, List.append_nil]
    exact ledger
  | some id => exact ledger.allocate chosen

abbrev Halts (config : GenConfig) (law : allocator.Lawful) (world : World hdr allocator) (_ : Stop)
    (after : World hdr allocator) : Prop := ∃ taken, Takes config law taken world after

theorem ensures_reads {α : Type} {program : Gen hdr allocator α} (ran : Along (Reads config law) program)
    (world : World hdr allocator) :
    Ensures program world (fun _ after => Reads config law world after) (Halts config law world) :=
  (Ensures.along ran).weaken (fun _ _ => id) fun _ _ reads => ⟨[], reads⟩

theorem Halts.after {middle after : World hdr allocator} {taken : List NonZeroU16} {reason : Stop}
    (first : Takes config law taken world middle) (rest : Halts config law middle reason after) :
    Halts config law world reason after := by
  obtain ⟨more, later⟩ := rest
  exact ⟨taken ++ more, first.trans later⟩

theorem allocate_takes (world : World hdr allocator) :
    Ensures (allocate config) world (fun id after => Takes config law id.toList world after) (Halts config law world) := by
  apply Ensures.bind (ensures_reads (reads_observe config law) world)
  intro moment current reads
  exact ⟨reads.trans (takes_allocated current)⟩

structure Batch (connId : UInt32) (start : Nat) (result : List Publication × Nat) : Prop where
  keys : result.1.map Publication.key = numbered connId start result.1.length
  next : result.2 = min (start + result.1.length) u64Max

theorem Batch.nil (connId : UInt32) (start : Nat) : Batch connId start ([], min start u64Max) := ⟨rfl, rfl⟩

theorem Batch.cons {start now : Nat} {id : Option NonZeroU16} {rest : List Publication × Nat}
    (batch : Batch connId (start + 1) rest) :
    Batch connId start (⟨id, ⟨connId, .ofNat (min start u64Max), .ofNat now⟩⟩ :: rest.1, rest.2) := by
  constructor
  · rw [List.map_cons, batch.keys, List.length_cons, numbered_cons]
    rfl
  · rw [batch.next, List.length_cons]
    congr 1
    omega

private theorem encodeQos0Batch_ensures (law : allocator.Lawful) (room start : Nat) (world : World hdr allocator) :
    Ensures (encodeQos0Batch config connId room (min start u64Max)) world
      (fun result after => Batch connId start result ∧ result.1.length = room ∧
        Reads config law world after)
      (Halts config law world) := by
  induction room generalizing start world with
  | zero => exact .pure ⟨.nil connId start, rfl, .refl _⟩
  | succ room ih =>
    apply Ensures.bind (ensures_reads (reads_monotonicNowNs config law) world)
    intro now current reads
    rw [saturatingAdd_min]
    refine (ih (start + 1) current).seq (fun _ _ => Halts.after reads) ?_
    rintro rest after ⟨batch, size, more⟩
    exact .pure ⟨batch.cons, congrArg (· + 1) size, reads.trans more⟩

private theorem encodeQos1Batch_ensures (law : allocator.Lawful) (permits start : Nat) (world : World hdr allocator) :
    Ensures (encodeQos1Batch config connId permits (min start u64Max)) world
      (fun result after => Batch connId start result ∧
        (result.1.filterMap Publication.packetId).length = result.1.length ∧
        Takes config law (result.1.filterMap Publication.packetId) world after)
      (Halts config law world) := by
  induction permits generalizing start world with
  | zero => exact .pure ⟨.nil connId start, rfl, .refl _⟩
  | succ permits ih =>
    apply Ensures.bind (allocate_takes world)
    intro chosen allocated takes
    cases chosen with
    | none => exact .pure ⟨.nil connId start, rfl, takes⟩
    | some packetId =>
      refine (ensures_reads (reads_monotonicNowNs config law) allocated).seq ?_ ?_
      · exact fun _ _ => Halts.after takes
      intro now current reads
      rw [saturatingAdd_min]
      refine (ih (start + 1) current).seq (fun _ _ => Halts.after (takes.trans reads)) ?_
      rintro rest after ⟨batch, ids, more⟩
      exact .pure ⟨batch.cons, congrArg (· + 1) ids, (takes.trans reads).trans more⟩

/-- The batch was counted offered and handed to the socket, and the reader may have gone on. -/
structure Offers (config : GenConfig) (law : allocator.Lawful) (writeBuf : List Publication)
    (before after : World hdr allocator) : Prop where
  ledger : config.qos = 1 → Ledger law before → before.pending = writeBuf.filterMap Publication.packetId →
    (writeBuf.filterMap Publication.packetId).length = writeBuf.length → Ledger law after
  log : before.log <+: after.log
  pending : after.pending = []
  handed : after.handed = before.handed ++ writeBuf
  offered : after.counters.offered = before.counters.offered + writeBuf.length
  stalled : after.counters.stalled = before.counters.stalled
  missed : before.counters.missedSlots ≤ after.counters.missedSlots

theorem Offers.reads {writeBuf : List Publication} {middle after : World hdr allocator}
    (offers : Offers config law writeBuf world middle) (reads : Reads config law middle after) :
    Offers config law writeBuf world after where
  ledger reliable ledger pending whole := reads.ledger reliable (offers.ledger reliable ledger pending whole)
  log := offers.log.trans reads.log
  pending := by rw [reads.pending, offers.pending, List.append_nil]
  handed := reads.handed.trans offers.handed
  offered := reads.offered.trans offers.offered
  stalled := reads.stalled.trans offers.stalled
  missed := Nat.le_trans offers.missed reads.missed

theorem Ledger.offer {after : World hdr allocator} {writeBuf : List Publication} {account : Account} {count : Nat}
    (ledger : Ledger law world) (pending : world.pending = writeBuf.filterMap Publication.packetId)
    (whole : (writeBuf.filterMap Publication.packetId).length = count)
    (log : after.log = world.log ++ [.offered (writeBuf.filterMap Publication.packetId) account])
    (handed : after.handed = world.handed ++ writeBuf) (held : after.ids = world.ids) (none : after.pending = [])
    (offered : after.counters.offered = world.counters.offered + count)
    (acked : after.counters.acked = world.counters.acked)
    (inFlight : after.inFlight = world.inFlight + .ofNat count)
    (moment : account = ⟨after.counters.offered, after.counters.acked, after.inFlight⟩) : Ledger law after := by
  refine ledger.snoc ⟨?_, fun id => ?_, ?_, ?_, ?_, fun calm id => ?_⟩ log moment ?_
  · rw [log, handed, offeredIds_offered, ledger.handed, List.filterMap_append]
  · rw [log, held, none, offeredIds_offered, ackedIds_offered, ← ledger.count id, pending, List.count_append, List.count_nil,
      Nat.add_zero]
  · rw [offered, log, offeredIds_offered, List.length_append, ledger.offered, whole]
  · rw [acked, log, ackedIds_offered, ledger.acked]
  · have counted : UInt64.ofNat (world.counters.offered + count) = .ofNat world.counters.offered + .ofNat count :=
      UInt64.ofNat_add _ _
    rw [inFlight, offered, acked, ledger.inFlight, counted]
    grind
  · rw [log, calm_snoc] at calm
    rw [log, offeredIds_offered, ackedIds_offered, List.count_append]
    exact Nat.le_add_right_of_le (ledger.within calm.1 id)
  · intro id early accepted account other
    cases other

theorem writeBatch_offers (law : allocator.Lawful) (writeBuf : List Publication) (world : World hdr allocator) :
    Ensures (writeBatch config writeBuf) world (fun _ after => Offers config law writeBuf world after)
      (fun _ after => Offers config law writeBuf world after) := by
  apply Ensures.modify_bind
  apply Ensures.modify_bind
  apply Ensures.modify_bind
  have begun : Offers config law writeBuf world (World.note { world with
      counters.offered := world.counters.offered + writeBuf.length
      inFlight := world.inFlight + .ofNat (if config.qos = 1 then writeBuf.length else 0)
      handed := world.handed ++ writeBuf
      pending := [] } (.offered (writeBuf.filterMap Publication.packetId))) := by
    refine ⟨fun reliable ledger pending whole => ?_, List.prefix_append _ _, rfl, rfl, rfl, rfl, Nat.le_refl _⟩
    refine ledger.offer pending whole rfl rfl rfl rfl rfl rfl ?_ rfl
    rw [if_pos reliable]
    rfl
  refine (reads_await config law).seq (fun _ _ => begun.reads) ?_
  intro moment after reads
  cases publishWriteFailure moment.written with
  | none =>
    refine (reads_noteCompleted config law writeBuf).seq ?_ ?_
    · exact fun _ _ more => begun.reads (reads.trans more)
    · exact fun _ _ more => .pure (begun.reads (reads.trans more))
  | some cause => exact .pure (begun.reads reads)

end Batches

/-! ### The closed loops -/

/-- The publishes handed over so far carry the numbers from zero on, and all are counted. -/
structure Publishing (config : GenConfig) (law : allocator.Lawful) (connId : UInt32) (world : World hdr allocator) : Prop where
  keys : world.handed.map Publication.key = numbered connId 0 world.handed.length
  offered : world.counters.offered = world.handed.length
  ledger : config.qos = 1 → Ledger law world

structure Between (config : GenConfig) (law : allocator.Lawful) (connId : UInt32) (world : World hdr allocator) : Prop
    extends Publishing config law connId world where
  pending : world.pending = []
  stalled : world.counters.stalled = 0

section Loops
variable {config law} {world after : World hdr allocator} {connId : UInt32}

theorem Publishing.takes {taken : List NonZeroU16} (publishing : Publishing config law connId world)
    (takes : Takes config law taken world after) : Publishing config law connId after where
  keys := by rw [takes.handed, publishing.keys]
  offered := by rw [takes.offered, takes.handed, publishing.offered]
  ledger reliable := takes.ledger reliable (publishing.ledger reliable)

theorem Between.reads (between : Between config law connId world) (reads : Reads config law world after) :
    Between config law connId after where
  toPublishing := between.toPublishing.takes reads
  pending := by rw [reads.pending, between.pending, List.append_nil]
  stalled := reads.stalled.trans between.stalled

theorem Between.offers {middle : World hdr allocator} {result : List Publication × Nat} {taken : List NonZeroU16}
    (between : Between config law connId world)
    (batch : Batch connId world.handed.length result) (takes : Takes config law taken world middle)
    (ids : config.qos = 1 → taken = result.1.filterMap Publication.packetId ∧ taken.length = result.1.length)
    (offers : Offers config law result.1 middle after) :
    Between config law connId after ∧ result.2 = min after.handed.length u64Max := by
  have handed : after.handed = world.handed ++ result.1 := by rw [offers.handed, takes.handed]
  refine ⟨⟨⟨?_, ?_, fun reliable => ?_⟩, offers.pending, ?_⟩, ?_⟩
  · rw [handed, List.map_append, between.keys, batch.keys, List.length_append, ← numbered_append, Nat.zero_add]
  · rw [offers.offered, takes.offered, between.offered, handed, List.length_append]
  · obtain ⟨same, whole⟩ := ids reliable
    refine offers.ledger reliable (takes.ledger reliable (between.ledger reliable)) ?_ (same ▸ whole)
    rw [takes.pending, between.pending, List.nil_append, same]
  · rw [offers.stalled, takes.stalled, between.stalled]
  · rw [batch.next, handed, List.length_append]

theorem qos1Loop_ensures (fuel : Nat) (between : Between config law connId world) :
    Ensures (qos1Loop config connId fuel (min world.handed.length u64Max)) world
      (fun _ after => Between config law connId after) (fun _ after => Publishing config law connId after) := by
  induction fuel generalizing world with
  | zero => exact .throw between.toPublishing
  | succ fuel ih =>
    -- Whatever only reads leaves the loop between two batches.
    have step {α : Type} {program : Gen hdr allocator α} (ran : Along (Reads config law) program) {current : World hdr allocator}
        (so_far : Reads config law world current) :
        Ensures program current (fun _ after => Reads config law world after)
          (fun _ after => Publishing config law connId after) :=
      (Ensures.along ran).weaken (fun _ _ more => so_far.trans more) fun _ _ more =>
        between.toPublishing.takes (so_far.trans more)
    apply Ensures.bind (step (reads_monotonicNowNs config law) (.refl world))
    intro now clocked reads
    split
    · exact .pure (between.reads reads)
    apply Ensures.bind (step (reads_acquirePermit config law fuel) reads)
    intro permitted waited reads
    split
    · exact .pure (between.reads reads)
    apply Ensures.bind (step (reads_fillBatch config law _ _) reads)
    intro permits filled reads
    rw [← reads.handed]
    have head := between.reads reads
    refine (encodeQos1Batch_ensures law permits filled.handed.length filled).seq ?_ ?_
    · rintro reason stopped ⟨taken, takes⟩
      exact head.toPublishing.takes takes
    rintro result encoded ⟨batch, whole, takes⟩
    dsimp only
    split
    next empty =>
      have none : result.1 = [] := List.isEmpty_iff.mp empty
      rw [none, List.filterMap_nil] at takes
      have same : result.2 = min encoded.handed.length u64Max := by
        rw [batch.next, none, takes.handed]
        rfl
      refine (reads_returnPermits config law permits).seq ?_ ?_
      · exact fun _ _ more => head.toPublishing.takes (takes.trans more)
      intro _ returned more
      rw [same, ← more.handed]
      exact ih (head.reads (takes.trans more))
    next =>
      have offered {after : World hdr allocator} (offers : Offers config law result.1 encoded after) :=
        head.offers batch takes (fun _ => ⟨rfl, whole⟩) offers
      refine (writeBatch_offers law result.1 encoded).seq ?_ ?_
      · exact fun _ _ offers => (offered offers).1.toPublishing
      intro outcome written offers
      cases outcome with
      | none =>
        rw [(offered offers).2]
        exact ih (offered offers).1
      | some cause => exact .pure (offered offers).1

theorem qos0Loop_ensures (fuel : Nat) (unreliable : config.qos ≠ 1) (between : Between config law connId world) :
    Ensures (qos0Loop config connId fuel (min world.handed.length u64Max)) world
      (fun _ after => Publishing config law connId after) (fun _ after => Publishing config law connId after) := by
  induction fuel generalizing world with
  | zero => exact .throw between.toPublishing
  | succ fuel ih =>
    refine (reads_monotonicNowNs config law).seq ?_ ?_
    · exact fun _ _ reads => between.toPublishing.takes reads
    intro now clocked reads
    split
    · exact .pure (between.toPublishing.takes reads)
    rw [← reads.handed]
    have head := between.reads reads
    refine (encodeQos0Batch_ensures law batchMax clocked.handed.length clocked).seq ?_ ?_
    · rintro reason stopped ⟨taken, takes⟩
      exact head.toPublishing.takes takes
    rintro result encoded ⟨batch, size, takes⟩
    have offered {after : World hdr allocator} (offers : Offers config law result.1 encoded after) :=
      head.offers batch takes (fun reliable => absurd reliable unreliable) offers
    refine (writeBatch_offers law result.1 encoded).seq ?_ ?_
    · exact fun _ _ offers => (offered offers).1.toPublishing
    intro outcome written offers
    cases outcome with
    | none =>
      dsimp only
      rw [(offered offers).2]
      exact ih (offered offers).1
    | some cause =>
      apply Ensures.modify_bind
      have counted : Publishing config law connId { written with
          counters.stalled := written.counters.stalled + batchMax } :=
        { (offered offers).1.toPublishing with ledger := fun reliable => absurd reliable unreliable }
      refine (reads_abortReader config law).seq ?_ ?_
      · exact fun _ _ reads => counted.takes reads
      · exact fun _ _ reads => .pure (counted.takes reads)

end Loops

/-! ### The end of a session -/

structure Keeps (config : GenConfig) (law : allocator.Lawful) (before after : World hdr allocator) : Prop where
  ledger : config.qos = 1 → Ledger law before → Ledger law after
  log : before.log <+: after.log
  pending : after.pending = before.pending
  handed : after.handed = before.handed
  offered : after.counters.offered = before.counters.offered
  missed : before.counters.missedSlots ≤ after.counters.missedSlots

theorem Keeps.of_reads {config law} {before after : World hdr allocator} (reads : Reads config law before after) :
    Keeps config law before after := { reads with pending := by rw [reads.pending, List.append_nil] }

private theorem Keeps.trans {config law} {one two three : World hdr allocator} (first : Keeps config law one two)
    (second : Keeps config law two three) : Keeps config law one three where
  ledger reliable held := second.ledger reliable (first.ledger reliable held)
  log := first.log.trans second.log
  pending := second.pending.trans first.pending
  handed := second.handed.trans first.handed
  offered := second.offered.trans first.offered
  missed := Nat.le_trans first.missed second.missed

instance : IsPreorder (World hdr allocator) (Keeps config law) where
  refl world := .of_reads (.refl world)
  trans _ _ _ := .trans

section Ending
variable {config law} {world : World hdr allocator}

theorem keeps_of_reads {α : Type} {program : Gen hdr allocator α} (ran : Along (Reads config law) program) :
    Along (Keeps config law) program := ran.mono fun _ _ => .of_reads

theorem keeps_drain (law : allocator.Lawful) (fuel : Nat) : Along (Reads config law) (drain config fuel : Gen hdr allocator Bool) := by
  induction fuel with
  | zero => exact .throw _
  | succ fuel ih =>
    refine .bind (reads_await config law) fun moment => .bind .get fun world => ?_
    split
    · exact .pure _
    · split
      · exact .pure _
      · exact ih

private theorem keeps_addStalled (law : allocator.Lawful) (count : Nat) :
    Along (Keeps config law) (addStalled count : Gen hdr allocator Unit) :=
  .update fun _ => ⟨fun _ ledger => { ledger with }, List.prefix_rfl, rfl, rfl, rfl, Nat.le_refl _⟩

theorem keeps_countLeaked (law : allocator.Lawful) (leftovers : Bool) :
    Along (Keeps config law) (countLeaked config leftovers : Gen hdr allocator Bool) := by
  unfold countLeaked
  split
  · exact .bind (keeps_of_reads (reads_abortReader config law)) fun _ => .bind .get fun world =>
      .bind (keeps_addStalled law _) fun _ => .pure _
  · exact .pure _

theorem keeps_qos1DrainAndDisconnect (law : allocator.Lawful) (fuel : Nat) (failure : Option String) :
    Along (Keeps config law) (qos1DrainAndDisconnect config fuel failure : Gen hdr allocator _) :=
  .bind (keeps_of_reads (keeps_drain law fuel)) fun _ => .bind (keeps_countLeaked law _) fun reader =>
    keeps_of_reads (reads_disconnectAndJoin config law failure reader)

theorem keeps_latencyTeardown (law : allocator.Lawful) (fuel : Nat) (result : Except String Unit) :
    Along (Keeps config law) (latencyTeardown config fuel result : Gen hdr allocator _) := by
  refine .bind ?_ fun reader => keeps_of_reads (reads_disconnectAndJoin config law _ reader)
  unfold latencyDrain
  split
  · exact .bind (keeps_of_reads (keeps_drain law fuel)) fun _ => keeps_countLeaked law _
  · exact .pure _

def Resolved (world : World hdr allocator) : Prop :=
  Calm world.log → world.counters.offered = world.counters.acked + world.counters.stalled

theorem drain_empties (law : allocator.Lawful) (fuel : Nat) (world : World hdr allocator) :
    Ensures (drain config fuel) world
      (fun drained after => Reads config law world after ∧ (drained = true → after.inFlight = 0)) (fun _ _ => True) := by
  induction fuel generalizing world with
  | zero => exact .throw trivial
  | succ fuel ih =>
    refine (reads_await config law).seq (fun _ _ _ => trivial) ?_
    intro moment current reads
    apply Ensures.get_bind
    split
    next none => exact .pure ⟨reads, fun _ => none⟩
    · split
      · exact .pure ⟨reads, fun drained => absurd drained Bool.false_ne_true⟩
      · exact (ih current).weaken (fun _ _ rest => ⟨reads.trans rest.1, rest.2⟩) fun _ _ => id

private theorem abortReader_stops (law : allocator.Lawful) (world : World hdr allocator) :
    Ensures (abortReader config) world (fun _ after => Reads config law world after ∧ after.reading = false)
      (fun _ _ => True) := by
  refine (reads_await config law).seq (fun _ _ _ => trivial) ?_
  intro moment current reads
  apply Ensures.modify_bind
  apply Ensures.get_bind
  cases current.readerPanic with
  | some cause => exact .throw trivial
  | none => exact .pure ⟨reads.trans (.beside (fun _ => rfl) (Nat.le_refl _)), rfl⟩

/-- The account is even and cannot move any more: the reader has stopped, or nothing is
in flight. -/
structure Finished (law : allocator.Lawful) (world : World hdr allocator) : Prop where
  ledger : Ledger law world
  balance : Resolved world
  still : world.reading = false ∨ world.counters.stalled = 0

theorem Finished.reads (finished : Finished law world) (reliable : config.qos = 1) {after : World hdr allocator}
    (reads : Reads config law world after) : Resolved after := by
  intro calm
  have balance := finished.balance fun entry member => calm entry (reads.log.subset member)
  rw [reads.offered, reads.stalled]
  rcases finished.still with stopped | none
  · rw [(reads.stopped stopped).2]
    exact balance
  · have grown := reads.acked
    have within := ((reads.ledger reliable finished.ledger).exact calm).1
    rw [reads.offered] at within
    omega

private theorem countLeaked_finishes (law : allocator.Lawful) (reliable : config.qos = 1) (ledger : Ledger law world)
    (fresh : world.counters.stalled = 0) {leftovers : Bool} (drained : leftovers = false → world.inFlight = 0) :
    Ensures (countLeaked config leftovers) world (fun _ after => Finished law after) (fun _ _ => True) := by
  cases leftovers with
  | false =>
    refine .pure ⟨ledger, fun calm => ?_, .inr fresh⟩
    have exact := ledger.exact calm
    rw [drained rfl, UInt64.toNat_zero] at exact
    omega
  | true =>
    apply Ensures.bind (abortReader_stops law world)
    rintro _ current ⟨reads, stopped⟩
    have held := reads.ledger reliable ledger
    refine ⟨⟨{ held with }, fun calm => ?_, .inl stopped⟩⟩
    have exact := held.exact calm
    have none := reads.stalled
    change current.counters.offered = current.counters.acked + (current.counters.stalled + current.inFlight.toNat)
    omega

theorem countLeaked_resolves (law : allocator.Lawful) (reliable : config.qos = 1) (ledger : Ledger law world)
    (fresh : world.counters.stalled = 0) {leftovers : Bool} (drained : leftovers = false → world.inFlight = 0)
    (failure : Option String) :
    Ensures (countLeaked config leftovers >>= disconnectAndJoin config failure) world (fun _ after => Resolved after)
      (fun _ _ => True) := by
  apply Ensures.bind (countLeaked_finishes law reliable ledger fresh drained)
  intro reader current finished
  exact (Ensures.along (reads_disconnectAndJoin config law failure reader)).weaken
    (fun _ _ reads => finished.reads reliable reads) fun _ _ _ => trivial

theorem qos1DrainAndDisconnect_resolves (law : allocator.Lawful) (reliable : config.qos = 1) (ledger : Ledger law world)
    (fresh : world.counters.stalled = 0) (fuel : Nat) (failure : Option String) :
    Ensures (qos1DrainAndDisconnect config fuel failure) world (fun _ after => Resolved after) (fun _ _ => True) := by
  apply Ensures.bind (drain_empties law fuel world)
  rintro drained current ⟨reads, empties⟩
  refine countLeaked_resolves law reliable (reads.ledger reliable ledger) (reads.stalled.trans fresh) (fun none => ?_) failure
  exact empties (by simpa using (Bool.or_eq_false_iff.mp none).1)

theorem latencyTeardown_resolves (law : allocator.Lawful) (reliable : config.qos = 1) (ledger : Ledger law world)
    (fresh : world.counters.stalled = 0) (fuel : Nat) (result : Except String Unit) :
    Ensures (latencyTeardown config fuel result) world (fun _ after => Resolved after) (fun _ _ => True) := by
  unfold latencyTeardown latencyDrain
  rw [if_pos reliable, bind_assoc]
  apply Ensures.bind (drain_empties law fuel world)
  rintro drained current ⟨reads, empties⟩
  refine countLeaked_resolves law reliable (reads.ledger reliable ledger) (reads.stalled.trans fresh) (fun none => ?_) _
  exact empties (by simpa using none)

end Ending
end UringMqtt.Bench

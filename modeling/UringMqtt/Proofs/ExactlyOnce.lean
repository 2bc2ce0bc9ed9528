import UringMqtt.Broker.Packet

/-! QoS 2 is exactly once per packet id over whole runs of `dispatch`. The
lazily allocated bitset stands for a set of ids; a first receipt inserts its id,
a PUBREL erases it, and every other packet leaves the set alone. -/

namespace UringMqtt.Proofs.ExactlyOnce
open Lib

/-! ### The bitset as a set of ids -/

/-- The id is awaiting release. An unallocated bitset is the empty set. -/
def contains (awaiting : AwaitingRelease) (id : NonZeroU16) : Bool :=
  awaiting.words.any fun words => Bitset.mem words id.get.toNat

@[simp] theorem contains_default (id : NonZeroU16) : contains {} id = false := rfl

private theorem word_inside (id : NonZeroU16) : id.get.toNat / idBitsPerWord < packetIdWords :=
  (AwaitingRelease.position id).1.isLt

private theorem toNat_eq_iff (id other : NonZeroU16) : other.get.toNat = id.get.toNat ↔ other = id := by
  rw [UInt16.toNat_inj]
  constructor
  · intro same
    cases id
    cases other
    simp_all
  · intro same
    rw [same]

private theorem contains_some (words : Vector (BitVec idBitsPerWord) packetIdWords) (id : NonZeroU16) :
    contains ⟨some words⟩ id = Bitset.mem words id.get.toNat := rfl

private theorem record_fst (awaiting : AwaitingRelease) (id : NonZeroU16) :
    (awaiting.record id).1 = !contains awaiting id := by
  have tested (words : Vector (BitVec idBitsPerWord) packetIdWords) :
      ((⟨some words⟩ : AwaitingRelease).record id).1 = !Bitset.mem words id.get.toNat := by
    have zero := Bitset.and_mask_eq_zero_iff_mem words id.get.toNat (by decide) (word_inside id)
    rw [Bool.eq_iff_iff, Bool.not_eq_true']
    exact beq_iff_eq.trans zero
  rcases awaiting with ⟨_ | words⟩
  · -- The first QoS 2 PUBLISH allocates an all-zero row, which contains nothing.
    exact (tested (Vector.replicate _ _)).trans (by rw [Bitset.mem_replicate_zero]; rfl)
  · exact tested words

private theorem contains_record (awaiting : AwaitingRelease) (id other : NonZeroU16) :
    contains (awaiting.record id).2 other = if other = id then true else contains awaiting other := by
  have inserted (words : Vector (BitVec idBitsPerWord) packetIdWords) :
      contains ((⟨some words⟩ : AwaitingRelease).record id).2 other =
        if other = id then true else Bitset.mem words other.get.toNat := by
    have step := Bitset.mem_insert words id.get.toNat other.get.toNat (by decide) (word_inside id)
    simp only [toNat_eq_iff] at step
    exact step
  rcases awaiting with ⟨_ | words⟩
  · refine (inserted (Vector.replicate _ _)).trans ?_
    rw [Bitset.mem_replicate_zero]
    rfl
  · exact inserted words

private theorem release_fst (awaiting : AwaitingRelease) (id : NonZeroU16) :
    (awaiting.release id).1 = if contains awaiting id then .released else .unknownPacketId := by
  rcases awaiting with ⟨_ | words⟩
  · rfl
  · have zero := Bitset.and_mask_eq_zero_iff_mem words id.get.toNat (by decide) (word_inside id)
    rw [contains_some]
    unfold AwaitingRelease.release
    dsimp only
    split
    next clear => rw [zero.mp (beq_iff_eq.mp clear)]; rfl
    next held =>
      have member : Bitset.mem words id.get.toNat = true := by
        by_contra absent
        exact held (beq_iff_eq.mpr (zero.mpr (Bool.not_eq_true _ ▸ absent)))
      rw [member]
      rfl

private theorem contains_release (awaiting : AwaitingRelease) (id other : NonZeroU16) :
    contains (awaiting.release id).2 other = if other = id then false else contains awaiting other := by
  rcases awaiting with ⟨_ | words⟩
  · simp [AwaitingRelease.release, contains]
  · have zero := Bitset.and_mask_eq_zero_iff_mem words id.get.toNat (by decide) (word_inside id)
    unfold AwaitingRelease.release
    dsimp only
    split
    next clear =>
      split
      next same =>
        subst same
        exact zero.mp (beq_iff_eq.mp clear)
      next => rfl
    next =>
      have step := Bitset.mem_erase words id.get.toNat other.get.toNat (by decide) (word_inside id)
      simp only [toNat_eq_iff] at step
      exact step

/-! ### What one packet does to the set -/

def Carries (packet : MqttPacket) (publish : CodecPublish) : Prop :=
  packet = .v3 (.publish publish) ∨ packet = .v5 (.publish publish)

/-- A QoS 2 PUBLISH with the id that passes `dispatch`'s own checks. -/
structure Receipt (packet : MqttPacket) (publish : CodecPublish) (id : NonZeroU16) : Prop where
  carried : Carries packet publish
  qos : publish.qos = .exactlyOnce
  packetId : publish.packetId = some id
  noAlias : publish.properties.any (fun properties => properties.topicAlias.isSome) = false
  topic : topicNameViolation publish.topic = none

inductive Release : MqttPacket → NonZeroU16 → Prop
  | v3 (id : NonZeroU16) : Release (.v3 (.publishRelease id)) id
  | v5 (release : V5.PublishAck2) : Release (.v5 (.publishRelease release)) release.packetId

variable {packet : MqttPacket} {publish other : CodecPublish} {id otherId : NonZeroU16}

theorem dispatch_carried (carried : Carries packet publish) (awaiting : AwaitingRelease) :
    dispatch packet awaiting = dispatchPublish publish awaiting := by
  rcases carried with rfl | rfl <;> rfl

private theorem carried_unique (carried : Carries packet publish)
    (again : Carries packet other) : other = publish := by
  rcases carried with rfl | rfl <;> rcases again with equal | equal <;> cases equal <;> rfl

private theorem carried_not_release (carried : Carries packet publish) : ¬Release packet id := by
  intro release
  rcases carried with rfl | rfl <;> cases release

theorem dispatch_receipt (receipt : Receipt packet publish id) (awaiting : AwaitingRelease) :
    dispatch packet awaiting =
      (if contains awaiting id then .reply (.publishReceived id) else .deliverThenReply publish (.publishReceived id),
        (awaiting.record id).2) := by
  have fresh := record_fst awaiting id
  rw [dispatch_carried receipt.carried]
  unfold dispatchPublish
  rw [receipt.noAlias, receipt.topic, receipt.qos, receipt.packetId]
  rcases recorded : awaiting.record id with ⟨first, after⟩
  rw [recorded] at fresh
  cases held : contains awaiting id <;> simp_all [maxQos]

theorem dispatch_release (release : Release packet id) (awaiting : AwaitingRelease) :
    dispatch packet awaiting =
      (.reply (.publishComplete id (if contains awaiting id then .released else .unknownPacketId)),
        (awaiting.release id).2) := by
  cases release <;> simp only [dispatch, ← release_fst]

inductive Effect (packet : MqttPacket) : Prop
  | receipt (publish : CodecPublish) (id : NonZeroU16) (receipt : Receipt packet publish id)
  | release (id : NonZeroU16) (release : Release packet id)
  | inert (noReceipt : ∀ publish id, ¬Receipt packet publish id) (noRelease : ∀ id, ¬Release packet id)
      (unchanged : ∀ awaiting, (dispatch packet awaiting).2 = awaiting)

private theorem publish_effect (carried : Carries packet publish) : Effect packet := by
  by_cases accepted : ∃ id, Receipt packet publish id
  · obtain ⟨id, receipt⟩ := accepted
    exact .receipt publish id receipt
  · refine .inert ?_ ?_ ?_
    · intro other id receipt
      exact accepted ⟨id, carried_unique carried receipt.carried ▸ receipt⟩
    · exact fun _ => carried_not_release carried
    · intro awaiting
      rw [dispatch_carried carried]
      unfold dispatchPublish
      -- Only the last arm touches the state, and it needs every field of a receipt.
      split
      · rfl
      · split
        · rfl
        next noAlias =>
          split
          · rfl
          next topic =>
            split
            · rfl
            · rfl
            · rfl
            · rfl
            next id qos packetId =>
              exact absurd ⟨id, carried, qos, packetId, Bool.eq_false_iff.mpr noAlias, topic⟩ accepted

private theorem effect (packet : MqttPacket) : Effect packet := by
  rcases packet with packet | packet | version
  · cases packet with
    | publish publish => exact publish_effect (.inl rfl)
    | publishRelease id => exact .release id (.v3 id)
    | _ =>
      refine .inert (fun _ _ receipt => ?_) (fun _ release => by cases release) (fun _ => rfl)
      rcases receipt.carried with equal | equal <;> cases equal
  · cases packet with
    | publish publish => exact publish_effect (.inr rfl)
    | publishRelease release => exact .release release.packetId (.v5 release)
    | _ =>
      refine .inert (fun _ _ receipt => ?_) (fun _ release => by cases release) (fun _ => rfl)
      rcases receipt.carried with equal | equal <;> cases equal
  · refine .inert (fun _ _ receipt => ?_) (fun _ release => by cases release) (fun _ => rfl)
    rcases receipt.carried with equal | equal <;> cases equal

private theorem Receipt.unique (receipt : Receipt packet publish id) (again : Receipt packet other otherId) : otherId = id := by
  obtain rfl := carried_unique receipt.carried again.carried
  exact Option.some.inj (again.packetId.symm.trans receipt.packetId)

theorem Release.unique (release : Release packet id) (again : Release packet otherId) : otherId = id := by
  cases release <;> cases again <;> rfl

theorem Receipt.not_release (receipt : Receipt packet publish id) : ¬Release packet otherId :=
  carried_not_release receipt.carried

/-- Step: an id is awaiting release afterwards when the packet was its receipt,
or when it was before and the packet is not its PUBREL. -/
theorem contains_dispatch (packet : MqttPacket) (awaiting : AwaitingRelease) (id : NonZeroU16) :
    contains (dispatch packet awaiting).2 id = true ↔
      (∃ publish, Receipt packet publish id) ∨ (contains awaiting id = true ∧ ¬Release packet id) := by
  cases effect packet with
  | receipt publish received receipt =>
    rw [dispatch_receipt receipt, contains_record]
    by_cases same : id = received
    · subst same
      simpa using Or.inl ⟨publish, receipt⟩
    · have other : ∀ publish, ¬Receipt packet publish id := fun _ again => same (receipt.unique again)
      simp [same, other, receipt.not_release]
  | release released release =>
    rw [dispatch_release release, contains_release]
    have other : ∀ publish, ¬Receipt packet publish id := fun _ receipt => receipt.not_release release
    by_cases same : id = released
    · subst same
      simp [other, release]
    · have kept : ¬Release packet id := fun again => same (release.unique again)
      simp [same, other, kept]
  | inert noReceipt noRelease unchanged => simp [unchanged, noReceipt, noRelease]

/-! ### Whole runs -/

def dispatchRun : List MqttPacket → AwaitingRelease → List Disposition × AwaitingRelease
  | [], awaiting => ([], awaiting)
  | packet :: rest, awaiting =>
    let (disposition, awaiting) := dispatch packet awaiting
    let (dispositions, awaiting) := dispatchRun rest awaiting
    (disposition :: dispositions, awaiting)

theorem dispatchRun_append (before after : List MqttPacket) (awaiting : AwaitingRelease) :
    dispatchRun (before ++ after) awaiting =
      ((dispatchRun before awaiting).1 ++ (dispatchRun after (dispatchRun before awaiting).2).1,
        (dispatchRun after (dispatchRun before awaiting).2).2) := by
  induction before generalizing awaiting with
  | nil => rfl
  | cons packet rest ih => simp only [List.cons_append, dispatchRun, ih]

private theorem length_dispatchRun (packets : List MqttPacket) (awaiting : AwaitingRelease) :
    (dispatchRun packets awaiting).1.length = packets.length := by
  induction packets generalizing awaiting with
  | nil => rfl
  | cons packet rest ih => simp only [dispatchRun, List.length_cons, ih]

def stateAfter (before : List MqttPacket) : AwaitingRelease := (dispatchRun before {}).2

def answer (before : List MqttPacket) (packet : MqttPacket) : Disposition := (dispatch packet (stateAfter before)).1

theorem stateAfter_snoc (before : List MqttPacket) (packet : MqttPacket) :
    stateAfter (before ++ [packet]) = (dispatch packet (stateAfter before)).2 := by
  simp only [stateAfter, dispatchRun_append, dispatchRun]

private theorem answer_in_run (before after : List MqttPacket) (packet : MqttPacket) :
    (dispatchRun (before ++ packet :: after) {}).1[before.length]? = some (answer before packet) := by
  rw [dispatchRun_append, List.getElem?_append_right (by rw [length_dispatchRun]), length_dispatchRun]
  simp [dispatchRun, answer, stateAfter]

/-- A receipt of the id occurred with no PUBREL for it since. -/
def Outstanding (before : List MqttPacket) (id : NonZeroU16) : Prop :=
  ∃ earlier packet later publish, before = earlier ++ packet :: later ∧ Receipt packet publish id ∧
    ∀ passed ∈ later, ¬Release passed id

theorem outstanding_snoc (before : List MqttPacket) (packet : MqttPacket) (id : NonZeroU16) :
    Outstanding (before ++ [packet]) id ↔
      (∃ publish, Receipt packet publish id) ∨ (Outstanding before id ∧ ¬Release packet id) := by
  constructor
  · rintro ⟨earlier, first, later, publish, split, receipt, quiet⟩
    rcases later.eq_nil_or_concat with rfl | ⟨passed, last, rfl⟩
    · obtain ⟨_, same⟩ := List.append_inj' split rfl
      cases same
      exact .inl ⟨publish, receipt⟩
    · rw [List.concat_eq_append, ← List.cons_append, ← List.append_assoc] at split
      obtain ⟨rfl, same⟩ := List.append_inj' split rfl
      cases same
      refine .inr ⟨⟨earlier, first, passed, publish, rfl, receipt, ?_⟩, quiet packet (by simp)⟩
      exact fun other member => quiet other (by simp [member])
  · rintro (⟨publish, receipt⟩ | ⟨⟨earlier, first, later, publish, rfl, receipt, quiet⟩, kept⟩)
    · exact ⟨before, packet, [], publish, rfl, receipt, by simp⟩
    · refine ⟨earlier, first, later ++ [packet], publish, by simp, receipt, ?_⟩
      intro passed member
      rcases List.mem_append.mp member with inside | last
      · exact quiet passed inside
      · exact List.mem_singleton.mp last ▸ kept

/-- Run: the bitset holds exactly the ids outstanding in the packets so far. -/
theorem contains_stateAfter (before : List MqttPacket) (id : NonZeroU16) :
    contains (stateAfter before) id = true ↔ Outstanding before id := by
  induction before using List.reverseRecOn with
  | nil =>
    refine iff_of_false (by simp [stateAfter, dispatchRun]) ?_
    rintro ⟨earlier, packet, later, _, split, _⟩
    simp at split
  | append_singleton before packet ih => rw [stateAfter_snoc, contains_dispatch, ih, outstanding_snoc]

/-- The abstract state: a set of ids under insert and erase. -/
def idsAfter (ids : Set NonZeroU16) (packet : MqttPacket) : Set NonZeroU16 :=
  (ids \ {id | Release packet id}) ∪ {id | ∃ publish, Receipt packet publish id}

private theorem stateAfter_refines (before : List MqttPacket) :
    {id | contains (stateAfter before) id = true} = before.foldl idsAfter ∅ := by
  induction before using List.reverseRecOn with
  | nil => simp [stateAfter, dispatchRun]
  | append_singleton before packet ih =>
    rw [List.foldl_append, ← ih, List.foldl_cons, List.foldl_nil]
    ext id
    simp only [stateAfter_snoc, Set.mem_ofPred_eq, contains_dispatch, idsAfter, Set.mem_union, Set.mem_sdiff]
    exact Or.comm

/-- A packet that must not matter for the id. -/
inductive Unrelated (id : NonZeroU16) (packet : MqttPacket) : Prop
  | violation (refused : ∀ awaiting, ∃ violation, (dispatch packet awaiting).1 = .violation violation)
  | otherKind (noPublish : ∀ publish, packet ≠ .v3 (.publish publish) ∧ packet ≠ .v5 (.publish publish))
      (noRelease : ∀ id, ¬Release packet id)
  | lowQos (publish : CodecPublish) (carried : Carries packet publish)
      (low : publish.qos ≠ .exactlyOnce)
  | otherPublish (publish : CodecPublish)
      (carried : Carries packet publish) (apart : publish.packetId ≠ some id)
  | otherRelease (other : NonZeroU16) (release : Release packet other) (apart : other ≠ id)

private theorem Unrelated.untouched (unrelated : Unrelated id packet) :
    (∀ publish, ¬Receipt packet publish id) ∧ ¬Release packet id := by
  cases unrelated with
  | violation refused =>
    obtain ⟨violation, refused⟩ := refused {}
    refine ⟨fun publish receipt => ?_, fun release => ?_⟩
    · simp [dispatch_receipt receipt] at refused
    · simp [dispatch_release release] at refused
  | otherKind noPublish noRelease =>
    refine ⟨fun publish receipt => ?_, noRelease id⟩
    exact receipt.carried.elim (noPublish publish).1 (noPublish publish).2
  | lowQos publish carried low =>
    refine ⟨fun other receipt => low ?_, carried_not_release carried⟩
    rw [← carried_unique carried receipt.carried]
    exact receipt.qos
  | otherPublish publish carried apart =>
    refine ⟨fun other receipt => apart ?_, carried_not_release carried⟩
    rw [← carried_unique carried receipt.carried]
    exact receipt.packetId
  | otherRelease other release apart =>
    exact ⟨fun _ receipt => receipt.not_release release, fun again => apart (release.unique again).symm⟩

private theorem outstanding_append (before other after : List MqttPacket) (id : NonZeroU16)
    (agree : Outstanding before id ↔ Outstanding other id) :
    Outstanding (before ++ after) id ↔ Outstanding (other ++ after) id := by
  induction after using List.reverseRecOn with
  | nil => simpa using agree
  | append_singleton after packet ih =>
    rw [← List.append_assoc, ← List.append_assoc, outstanding_snoc, outstanding_snoc, ih]

private theorem outstanding_unrelated (before between after : List MqttPacket) (id : NonZeroU16)
    (unrelated : ∀ packet ∈ between, Unrelated id packet) :
    Outstanding (before ++ between ++ after) id ↔ Outstanding (before ++ after) id := by
  refine outstanding_append _ _ after id ?_
  induction between using List.reverseRecOn with
  | nil => simp
  | append_singleton between packet ih =>
    obtain ⟨noReceipt, noRelease⟩ := (unrelated packet (by simp)).untouched
    rw [← List.append_assoc, outstanding_snoc, ih fun other member => unrelated other (by simp [member])]
    simp [noReceipt, noRelease]

private theorem answer_congr {before other : List MqttPacket} (about : (∃ publish, Receipt packet publish id) ∨ Release packet id)
    (agree : Outstanding before id ↔ Outstanding other id) : answer before packet = answer other packet := by
  have same : contains (stateAfter before) id = contains (stateAfter other) id := by
    rw [Bool.eq_iff_iff, contains_stateAfter, contains_stateAfter, agree]
  rcases about with ⟨publish, receipt⟩ | release
  · simp only [answer, dispatch_receipt receipt, same]
  · simp only [answer, dispatch_release release, same]

/-- QoS 2 is exactly once per packet id over every run: a receipt is delivered
exactly when none is outstanding, a PUBREL finds exactly what is outstanding,
and packets that do not concern the id change neither answer wherever they are
inserted. The bitset is a set of ids under insert and erase. -/
theorem qos2_exactly_once (before : List MqttPacket) (id : NonZeroU16) :
    (∀ packet after, (dispatchRun (before ++ packet :: after) {}).1[before.length]? = some (answer before packet)) ∧
    (∀ packet publish, Receipt packet publish id →
      (answer before packet = .deliverThenReply publish (.publishReceived id) ↔ ¬Outstanding before id) ∧
      (Outstanding before id → answer before packet = .reply (.publishReceived id))) ∧
    (∀ packet, Release packet id →
      (answer before packet = .reply (.publishComplete id .released) ↔ Outstanding before id) ∧
      (¬Outstanding before id → answer before packet = .reply (.publishComplete id .unknownPacketId))) ∧
    (∀ between after packet, (∀ other ∈ between, Unrelated id other) →
      ((∃ publish, Receipt packet publish id) ∨ Release packet id) →
      answer (before ++ between ++ after) packet = answer (before ++ after) packet) ∧
    {other | contains (stateAfter before) other = true} = before.foldl idsAfter ∅ := by
  have held := contains_stateAfter before id
  refine ⟨fun packet after => answer_in_run before after packet, ?_, ?_, ?_, stateAfter_refines before⟩
  · intro packet publish receipt
    simp only [answer, dispatch_receipt receipt, ← held]
    cases contains (stateAfter before) id <;> simp
  · intro packet release
    simp only [answer, dispatch_release release, ← held]
    cases contains (stateAfter before) id <;> simp
  · intro between after packet unrelated about
    exact answer_congr about (outstanding_unrelated before between after id unrelated)

def samplePublish (qos : QoS) : CodecPublish :=
  { dup := false, retain := false, qos, topic := "t", packetId := some ⟨1, by decide⟩, payload := [], properties := none }

/-- A receipt, then a QoS 1 PUBLISH that reuses its id, then the repeat: the
repeat is answered and not delivered. -/
theorem qos2_repeat_not_delivered :
    answer [.v3 (.publish (samplePublish .exactlyOnce)), .v3 (.publish (samplePublish .atLeastOnce))]
      (.v5 (.publish (samplePublish .exactlyOnce))) = .reply (.publishReceived ⟨1, by decide⟩) := by
  have receipt : Receipt (.v5 (.publish (samplePublish .exactlyOnce))) (samplePublish .exactlyOnce) ⟨1, by decide⟩ :=
    ⟨.inr rfl, rfl, rfl, rfl, by decide⟩
  have first : Receipt (.v3 (.publish (samplePublish .exactlyOnce))) (samplePublish .exactlyOnce) ⟨1, by decide⟩ :=
    ⟨.inl rfl, rfl, rfl, rfl, by decide⟩
  refine ((qos2_exactly_once _ ⟨1, by decide⟩).2.1 _ _ receipt).2 ⟨[], _, _, _, rfl, first, ?_⟩
  intro passed member release
  obtain rfl := List.mem_singleton.mp member
  cases release

end UringMqtt.Proofs.ExactlyOnce

import UringMqtt.Bench.Generator
import UringMqtt.Proofs.PacketIdLaws
import Mathlib.Data.Finset.Card
import Mathlib.Data.List.Perm.Subperm

/-! The acknowledgement account of a QoS 1 connection: which packet ids were offered,
which acknowledged, and what the in-flight counter makes of it. -/

namespace UringMqtt.Bench
open Lib Run

namespace Entry

def offers : Entry → List NonZeroU16
  | .offered ids _ => ids
  | .puback .. => []

def acks : Entry → List NonZeroU16
  | .puback packetId _ true _ => [packetId]
  | .puback _ _ false _ | .offered .. => []

/-- A PUBACK for an id of a batch that is not yet offered. -/
def early : Entry → Bool
  | .puback _ early _ _ => early
  | .offered .. => false

def account : Entry → Account
  | .puback _ _ _ account | .offered _ account => account

end Entry

def offeredIds (log : List Entry) : List NonZeroU16 := log.flatMap Entry.offers

def ackedIds (log : List Entry) : List NonZeroU16 := log.flatMap Entry.acks

def Calm (log : List Entry) : Prop := ∀ entry ∈ log, entry.early = false

/-- A publish with this id has been counted offered and is not yet acknowledged. -/
def Outstanding (log : List Entry) (id : NonZeroU16) : Prop := (ackedIds log).count id < (offeredIds log).count id

structure EntryHolds (before : List Entry) (entry : Entry) : Prop where
  acked : entry.account.acked ≤ entry.account.offered
  inFlight : entry.account.inFlight.toNat = entry.account.offered - entry.account.acked
  accepted : ∀ id early accepted account, entry = .puback id early accepted account →
    (accepted = true ↔ Outstanding before id)

section Logs
variable (log : List Entry) (ids : List NonZeroU16) (id : NonZeroU16) (early : Bool) (account : Account)

@[simp] theorem offeredIds_offered : offeredIds (log ++ [.offered ids account]) = offeredIds log ++ ids := by
  simp [offeredIds, Entry.offers]

@[simp] theorem offeredIds_puback (accepted : Bool) :
    offeredIds (log ++ [.puback id early accepted account]) = offeredIds log := by
  simp [offeredIds, Entry.offers]

@[simp] theorem ackedIds_offered : ackedIds (log ++ [.offered ids account]) = ackedIds log := by
  simp [ackedIds, Entry.acks]

@[simp] theorem ackedIds_accepted : ackedIds (log ++ [.puback id early true account]) = ackedIds log ++ [id] := by
  simp [ackedIds, Entry.acks]

@[simp] theorem ackedIds_rejected : ackedIds (log ++ [.puback id early false account]) = ackedIds log := by
  simp [ackedIds, Entry.acks]

end Logs

theorem calm_snoc {log : List Entry} {entry : Entry} : Calm (log ++ [entry]) ↔ Calm log ∧ entry.early = false := by
  simp [Calm, or_imp, forall_and]

private theorem split_snoc {α : Type} {list before after : List α} {last entry : α} (same : list ++ [last] = before ++ entry :: after) :
    list = before ∧ last = entry ∨ ∃ rest, list = before ++ entry :: rest := by
  rcases List.eq_nil_or_concat after with rfl | ⟨rest, final, rfl⟩
  · obtain ⟨front, back⟩ := List.append_inj' same rfl
    exact .inl ⟨front, List.head_eq_of_cons_eq back⟩
  · rw [List.concat_eq_append, ← List.cons_append, ← List.append_assoc] at same
    exact .inr ⟨rest, (List.append_inj' same rfl).1⟩

section Counting
variable {offered acked : List NonZeroU16}

private theorem outstanding_few (within : ∀ id, acked.count id ≤ offered.count id) (once : ∀ id, offered.count id ≤ acked.count id + 1) :
    acked.length ≤ offered.length ∧ offered.length ≤ acked.length + 65536 := by
  have perm : (acked ++ offered.diff acked).Perm offered :=
    List.subperm_append_diff_self_of_count_le fun id _ => within id
  have lengths := perm.length_eq
  rw [List.length_append] at lengths
  have single : (offered.diff acked).Nodup := by
    rw [List.nodup_iff_count_le_one]
    intro id
    have most := once id
    rw [List.count_diff]
    omega
  have distinct : ((offered.diff acked).map fun id => id.get.toNat).Nodup := by
    refine single.map_on fun one _ two _ same => ?_
    exact PacketIds.offset_inj.mp (by rw [same])
  have bounded : ((offered.diff acked).map fun id => id.get.toNat).toFinset ⊆ Finset.range 65536 := by
    intro number member
    rw [List.mem_toFinset, List.mem_map] at member
    obtain ⟨id, _, rfl⟩ := member
    exact Finset.mem_range.mpr id.get.toNat_lt
  have few := Finset.card_le_card bounded
  rw [List.toFinset_card_of_nodup distinct, List.length_map, Finset.card_range] at few
  omega

private theorem toNat_difference {more less : Nat} (order : less ≤ more) (small : more - less < 2 ^ 64) :
    (UInt64.ofNat more - UInt64.ofNat less).toNat = more - less := by
  obtain ⟨rest, rfl⟩ := Nat.exists_eq_add_of_le order
  rw [Nat.add_sub_cancel_left] at small ⊢
  rw [UInt64.ofNat_add, UInt64.add_comm, UInt64.add_sub_cancel, UInt64.toNat_ofNat_of_lt' small]

end Counting

variable {hdr : Hdr} {allocator : Allocator}

/-- The account of a QoS 1 connection. Each id is offered or pending as often as it was
acknowledged, and once more while it is in use. -/
structure Books (law : allocator.Lawful) (world : World hdr allocator) : Prop where
  handed : offeredIds world.log = world.handed.filterMap Publication.packetId
  count : ∀ id, (offeredIds world.log).count id + world.pending.count id =
    (ackedIds world.log).count id + (law.holds world.ids id).toNat
  offered : world.counters.offered = (offeredIds world.log).length
  acked : world.counters.acked = (ackedIds world.log).length
  inFlight : world.inFlight = .ofNat world.counters.offered - .ofNat world.counters.acked
  within : Calm world.log → ∀ id, (ackedIds world.log).count id ≤ (offeredIds world.log).count id

structure Ledger (law : allocator.Lawful) (world : World hdr allocator) : Prop extends Books law world where
  entries : Calm world.log → ∀ before entry after, world.log = before ++ entry :: after → EntryHolds before entry

variable {law : allocator.Lawful} {world after : World hdr allocator}

theorem Books.exact (books : Books law world) (calm : Calm world.log) :
    world.counters.acked ≤ world.counters.offered ∧
      world.inFlight.toNat = world.counters.offered - world.counters.acked := by
  have once (id : NonZeroU16) : (offeredIds world.log).count id ≤ (ackedIds world.log).count id + 1 := by
    have count := books.count id
    have most := Bool.toNat_le (law.holds world.ids id)
    omega
  have few := outstanding_few (books.within calm) once
  rw [← books.offered, ← books.acked] at few
  refine ⟨few.1, ?_⟩
  rw [books.inFlight, toNat_difference few.1 (by omega)]

theorem ledger_spawned (law : allocator.Lawful) (env : Nat → Moment) : Ledger law (World.spawned hdr allocator env) where
  handed := rfl
  count id := by
    change 0 = 0 + (law.holds allocator.new id).toNat
    rw [law.new_holds]
    rfl
  offered := rfl
  acked := rfl
  inFlight := (UInt64.sub_self _).symm
  within _ _ := Nat.le_refl _
  entries _ before entry after none := absurd none (by simp [World.spawned])

theorem Ledger.snoc {entry : Entry} (ledger : Ledger law world) (books : Books law after)
    (log : after.log = world.log ++ [entry])
    (account : entry.account = ⟨after.counters.offered, after.counters.acked, after.inFlight⟩)
    (accepted : ∀ id early accepted account, entry = .puback id early accepted account → early = false →
      (accepted = true ↔ Outstanding world.log id)) : Ledger law after := by
  refine ⟨books, fun calm before other rest same => ?_⟩
  have exact := books.exact calm
  rw [log] at same calm
  rcases split_snoc same with ⟨rfl, rfl⟩ | ⟨earlier, split⟩
  · refine ⟨by rw [account]; exact exact.1, by rw [account]; exact exact.2, fun id early decided moment equal => ?_⟩
    have late := (calm_snoc.mp calm).2
    rw [equal] at late
    exact accepted id early decided moment equal late
  · exact ledger.entries (calm_snoc.mp calm).1 before other earlier split

/-! ### The reader -/

theorem Books.holds_iff (books : Books law world) {id : NonZeroU16} (offered : id ∉ world.pending) :
    law.holds world.ids id = true ↔ Outstanding world.log id := by
  have count := books.count id
  rw [List.count_eq_zero_of_not_mem offered] at count
  unfold Outstanding
  cases holds : law.holds world.ids id with
  | true =>
    rw [holds, Bool.toNat_true] at count
    simp only [true_iff]
    omega
  | false =>
    rw [holds, Bool.toNat_false] at count
    simp only [Bool.false_eq_true, false_iff]
    omega

section Puback
variable {id : NonZeroU16} {account : Account}
  (released : ∀ other, law.holds after.ids other = (!decide (other = id) && law.holds world.ids other))
  (pending : after.pending = world.pending) (handed : after.handed = world.handed)
  (offered : after.counters.offered = world.counters.offered)
  (moment : account = ⟨after.counters.offered, after.counters.acked, after.inFlight⟩)
include released pending handed offered moment

theorem Ledger.accept (ledger : Ledger law world) (held : law.holds world.ids id = true)
    (log : after.log = world.log ++ [.puback id (world.pending.contains id) true account])
    (acked : after.counters.acked = world.counters.acked + 1) (inFlight : after.inFlight = world.inFlight - 1) :
    Ledger law after := by
  refine ledger.snoc ⟨by rw [log, handed, offeredIds_puback, ledger.handed], fun other => ?_, ?_, ?_, ?_,
    fun calm other => ?_⟩ log moment ?_
  · have count := ledger.count other
    rw [released, log, pending, offeredIds_puback, ackedIds_accepted, List.count_append]
    by_cases same : other = id
    · subst other
      rw [held] at count
      simpa using count
    · have apart : [id].count other = 0 := List.count_eq_zero.mpr (by simpa using same)
      simpa [same, apart] using count
  · rw [offered, log, offeredIds_puback, ledger.offered]
  · rw [acked, log, ackedIds_accepted, ledger.acked, List.length_append]
    rfl
  · have counted : UInt64.ofNat (world.counters.acked + 1) = .ofNat world.counters.acked + 1 := UInt64.ofNat_add _ _
    rw [inFlight, offered, acked, ledger.inFlight, counted]
    grind
  · rw [log, calm_snoc] at calm
    have within := ledger.within calm.1 other
    rw [log, offeredIds_puback, ackedIds_accepted, List.count_append]
    by_cases same : other = id
    · subst other
      have outstanding := (ledger.holds_iff (by simpa [Entry.early] using calm.2)).mp held
      unfold Outstanding at outstanding
      rw [List.count_singleton_self]
      omega
    · have apart : [id].count other = 0 := List.count_eq_zero.mpr (by simpa using same)
      rwa [apart]
  · intro other early accepted account equal late
    cases equal
    exact iff_of_true rfl ((ledger.holds_iff (by simpa using late)).mp held)

private theorem Ledger.reject (ledger : Ledger law world) (unheld : law.holds world.ids id = false)
    (log : after.log = world.log ++ [.puback id (world.pending.contains id) false account])
    (acked : after.counters.acked = world.counters.acked) (inFlight : after.inFlight = world.inFlight) :
    Ledger law after := by
  refine ledger.snoc ⟨by rw [log, handed, offeredIds_puback, ledger.handed], fun other => ?_, ?_, ?_, ?_,
    fun calm other => ?_⟩ log moment ?_
  · have same : law.holds after.ids other = law.holds world.ids other := by
      rw [released]
      by_cases same : other = id
      · rw [same, unheld, Bool.and_false]
      · simp [same]
    rw [log, pending, same, offeredIds_puback, ackedIds_rejected, ledger.count]
  · rw [offered, log, offeredIds_puback, ledger.offered]
  · rw [acked, log, ackedIds_rejected, ledger.acked]
  · rw [inFlight, offered, acked, ledger.inFlight]
  · rw [log, calm_snoc] at calm
    rw [log, offeredIds_puback, ackedIds_rejected]
    exact ledger.within calm.1 other
  · intro other early accepted account equal late
    cases equal
    refine iff_of_false Bool.false_ne_true fun outstanding => ?_
    rw [(ledger.holds_iff (by simpa using late)).mpr outstanding] at unheld
    cases unheld

end Puback

/-- What every part of a session does besides: it has allocated these ids, and the reader
may have gone on. -/
structure Takes (config : GenConfig) (law : allocator.Lawful) (taken : List NonZeroU16)
    (before after : World hdr allocator) : Prop where
  ledger : config.qos = 1 → Ledger law before → Ledger law after
  log : before.log <+: after.log
  pending : after.pending = before.pending ++ taken
  handed : after.handed = before.handed
  offered : after.counters.offered = before.counters.offered
  stalled : after.counters.stalled = before.counters.stalled
  missed : before.counters.missedSlots ≤ after.counters.missedSlots
  acked : before.counters.acked ≤ after.counters.acked
  stopped : before.reading = false → after.reading = false ∧ after.counters.acked = before.counters.acked

abbrev Reads (config : GenConfig) (law : allocator.Lawful) (before after : World hdr allocator) : Prop :=
  Takes config law [] before after

section Takes
variable {config : GenConfig}

theorem Takes.beside {world : World hdr allocator} {reading : Bool} {readerPanic : Option String} {tick permits : Nat}
    {lateness : hdr.Histogram} {completed : List Publication} {connect protocol overRange missed last : Nat}
    (stays : world.reading = false → reading = false) (grows : world.counters.missedSlots ≤ missed) :
    Reads config law world { world with
      reading, readerPanic, tick, permits, lateness, completed
      counters := { world.counters with
        connectErrors := connect, protocolErrors := protocol, latenessOverRange := overRange,
        missedSlots := missed, lastWriteStartNs := last } } where
  ledger _ ledger := { ledger with }
  log := List.prefix_rfl
  pending := (List.append_nil _).symm
  handed := rfl
  offered := rfl
  stalled := rfl
  missed := grows
  acked := Nat.le_refl _
  stopped stopped := ⟨stays stopped, rfl⟩

theorem Takes.refl (world : World hdr allocator) : Reads config law world world := .beside id (Nat.le_refl _)

theorem Takes.trans {one two three : World hdr allocator} {taken more : List NonZeroU16}
    (first : Takes config law taken one two) (second : Takes config law more two three) :
    Takes config law (taken ++ more) one three where
  ledger reliable held := second.ledger reliable (first.ledger reliable held)
  log := first.log.trans second.log
  pending := by rw [second.pending, first.pending, List.append_assoc]
  handed := second.handed.trans first.handed
  offered := second.offered.trans first.offered
  stalled := second.stalled.trans first.stalled
  missed := Nat.le_trans first.missed second.missed
  acked := Nat.le_trans first.acked second.acked
  stopped stopped := by
    obtain ⟨still, same⟩ := first.stopped stopped
    obtain ⟨ended, equal⟩ := second.stopped still
    exact ⟨ended, equal.trans same⟩

instance (config : GenConfig) (law : allocator.Lawful) : IsPreorder (World hdr allocator) (Reads config law) where
  refl := .refl
  trans _ _ _ := .trans

end Takes

private theorem readFrame_reads (config : GenConfig) (law : allocator.Lawful) (world : World hdr allocator) (frame : Frame) :
    Reads config law world (world.readFrame config frame) := by
  unfold World.readFrame
  split
  · exact .refl _
  next running =>
  have still : world.reading ≠ false := by simpa using running
  cases frame with
  | other | undecodable | readFailed | endOfStream | panics =>
    exact .beside (fun stopped => absurd stopped still) (Nat.le_refl _)
  | puback packetId =>
    dsimp only
    split
    next =>
      have spec := law.release_holds world.ids packetId
      split
      next ids released =>
        rw [released] at spec
        exact ⟨fun _ ledger => ledger.accept spec.2 rfl rfl rfl rfl spec.1.symm rfl rfl rfl, List.prefix_append _ _,
          (List.append_nil _).symm, rfl, rfl, rfl, Nat.le_refl _, Nat.le_succ _, fun stopped => absurd stopped still⟩
      next ids released =>
        rw [released] at spec
        exact ⟨fun _ ledger => ledger.reject spec.2 rfl rfl rfl rfl spec.1.symm rfl rfl rfl, List.prefix_append _ _,
          (List.append_nil _).symm, rfl, rfl, rfl, Nat.le_refl _, Nat.le_refl _, fun stopped => absurd stopped still⟩
    next =>
      exact .beside (fun stopped => absurd stopped still) (Nat.le_refl _)

section Parts
variable (config : GenConfig) (law : allocator.Lawful)

theorem reads_observe : Along (Reads config law) (observe config : Gen hdr allocator Moment) := by
  intro world
  change Reads config law world ((world.env world.tick).frames.foldl (World.readFrame config) _)
  have ticked : Reads config law world { world with tick := world.tick + 1 } := .beside id (Nat.le_refl _)
  refine ticked.trans ?_
  generalize { world with tick := world.tick + 1 } = current
  induction (world.env world.tick).frames generalizing current with
  | nil => exact .refl _
  | cons frame rest ih => exact (readFrame_reads config law current frame).trans (ih _)

theorem reads_monotonicNowNs : Along (Reads config law) (monotonicNowNs config : Gen hdr allocator Nat) :=
  .bind (reads_observe config law) fun _ => .pure _

theorem reads_await : Along (Reads config law) (await config : Gen hdr allocator Moment) := by
  refine .bind (reads_observe config law) fun moment => ?_
  split
  · exact .bind (.throw _) fun _ => .pure _
  · exact .pure _

theorem reads_addMissedSlots (count : Nat) : Along (Reads config law) (addMissedSlots count : Gen hdr allocator Unit) :=
  .update fun _ => .beside id (Nat.le_add_right _ _)

theorem reads_noteCompleted (writeBuf : List Publication) :
    Along (Reads config law) (noteCompleted writeBuf : Gen hdr allocator Unit) :=
  .update fun _ => .beside id (Nat.le_refl _)

end Parts
end UringMqtt.Bench

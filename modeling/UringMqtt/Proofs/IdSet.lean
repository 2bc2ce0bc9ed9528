import UringMqtt.Lib.Runs
import UringMqtt.Proofs.PacketIdLaws
import Mathlib.Data.Set.Insert

/-! Calls on `PacketIds`, in any order and with any ids, answer as calls on the set of
ids that are in flight. -/

namespace UringMqtt.Bench
open Lib

inductive IdOp where
  | allocate
  | release (id : UInt16)
deriving DecidableEq, Repr

inductive IdCall where
  | allocated (result : Option NonZeroU16)
  | released (id : UInt16) (wasSet : Bool)

namespace PacketIds

def perform (self : PacketIds) : IdOp → IdCall × PacketIds
  | .allocate => (.allocated self.allocate.1, self.allocate.2)
  | .release id => (.released id (self.release id).1, (self.release id).2)

def performAll (ops : List IdOp) : List IdCall × PacketIds :=
  ops.foldl (fun (calls, ids) op => (calls ++ [(ids.perform op).1], (ids.perform op).2)) ([], .new)

def used (self : PacketIds) : Set UInt16 := {id | id ≠ 0 ∧ Bitset.mem self.bits (id.toNat - 1) = true}

end PacketIds

def inFlight (calls : List IdCall) : Set UInt16 :=
  {id | ∃ earlier handed later, calls = earlier ++ .allocated (some handed) :: later ∧ handed.get = id ∧
    ∀ wasSet, .released id wasSet ∉ later}

/-- A set of ids answers a call: a free id is handed out unless there is none, and an id
comes back if it is in the set. -/
inductive IdSetAnswers : Set UInt16 → IdCall → Set UInt16 → Prop
  | exhausted : IdSetAnswers {id | 1 ≤ id.toNat ∧ id.toNat ≤ 65535} (.allocated none)
      {id | 1 ≤ id.toNat ∧ id.toNat ≤ 65535}
  | allocated {ids : Set UInt16} {id : NonZeroU16} (free : id.get ∉ ids) :
      IdSetAnswers ids (.allocated (some id)) (insert id.get ids)
  | released {ids : Set UInt16} {id : UInt16} {wasSet : Bool} (found : wasSet = true ↔ id ∈ ids) :
      IdSetAnswers ids (.released id wasSet) (ids \ {id})

/-! ### The ids in flight, call by call -/

private theorem inFlight_nil : inFlight [] = ∅ := by
  ext id
  simp [inFlight]

variable {calls : List IdCall}

theorem mem_inFlight_concat {last : IdCall} {id : UInt16} :
    id ∈ inFlight (calls ++ [last]) ↔
      (∃ handed, last = .allocated (some handed) ∧ handed.get = id) ∨
        id ∈ inFlight calls ∧ ∀ wasSet, last ≠ .released id wasSet := by
  constructor
  · rintro ⟨earlier, handed, later, cut, same, kept⟩
    -- the allocation is the last call, or the last call ends what came after it
    rcases List.eq_nil_or_concat later with rfl | ⟨between, final, rfl⟩
    · have ends := List.append_inj_right' cut rfl
      exact .inl ⟨handed, List.head_eq_of_cons_eq ends, same⟩
    · rw [List.concat_eq_append, ← List.cons_append, ← List.append_assoc] at cut
      obtain ⟨before, ends⟩ := List.append_inj' cut rfl
      cases List.head_eq_of_cons_eq ends
      refine .inr ⟨⟨earlier, handed, between, before, same, fun wasSet member => ?_⟩, fun wasSet released => ?_⟩
      · exact kept wasSet (by simp [member])
      · exact kept wasSet (by simp [released])
  · rintro (⟨handed, rfl, same⟩ | ⟨⟨earlier, handed, later, rfl, same, kept⟩, other⟩)
    · exact ⟨calls, handed, [], rfl, same, fun _ => List.not_mem_nil⟩
    · refine ⟨earlier, handed, later ++ [last], by simp, same, fun wasSet member => ?_⟩
      rcases List.mem_append.mp member with before | final
      · exact kept wasSet before
      · exact other wasSet (List.mem_singleton.mp final).symm

private theorem inFlight_unanswered (calls : List IdCall) : inFlight (calls ++ [.allocated none]) = inFlight calls := by
  ext id
  simp [mem_inFlight_concat]

private theorem inFlight_allocated (calls : List IdCall) (handed : NonZeroU16) :
    inFlight (calls ++ [.allocated (some handed)]) = insert handed.get (inFlight calls) := by
  ext id
  simp [mem_inFlight_concat, eq_comm]

private theorem inFlight_released (calls : List IdCall) (id : UInt16) (wasSet : Bool) :
    inFlight (calls ++ [.released id wasSet]) = inFlight calls \ {id} := by
  ext other
  simp [mem_inFlight_concat, eq_comm]

private theorem IdSetAnswers.follows {call : IdCall} {after : Set UInt16}
    (answers : IdSetAnswers (inFlight calls) call after) : inFlight (calls ++ [call]) = after := by
  generalize before : inFlight calls = ids at answers
  cases answers with
  | exhausted => rw [inFlight_unanswered, before]
  | allocated free => rw [inFlight_allocated, before]
  | released found => rw [inFlight_released, before]

/-! ### The bits behind each call -/

namespace PacketIds

variable {self : PacketIds} {id : UInt16} {idx : Fin 1024}

theorem mem_used (nonzero : id ≠ 0) :
    id ∈ self.used ↔ self.holds ⟨id, nonzero⟩ = true :=
  and_iff_right nonzero

theorem used_new : new.used = ∅ := by
  ext id
  simp [used, new, Bitset.mem_replicate_zero]

theorem allocateAt_none (full : self.allocateAt idx = none) {bit : Nat}
    (inside : bit < 64) (valid : idx.val * 64 + bit ≤ 65534) : Bitset.mem self.bits (idx.val * 64 + bit) = true := by
  rw [mem_word self idx inside]
  unfold allocateAt at full
  dsimp only at full
  split at full
  next ones => rw [ones, BitVec.getLsbD_allOnes, decide_eq_true inside]
  next room =>
    obtain ⟨_, _, taken⟩ := unused_bit room
    generalize (~~~self.bits[idx]).ctz.toNat = first at taken full
    split at full
    next past => exact taken bit (by omega)
    next below =>
      obtain ⟨chosen, made, _⟩ := new_offset (Nat.le_of_not_lt below)
      simp only [made] at full
      cases full

private theorem allocateFrom_cases (self : PacketIds) (words offset : Nat) :
    self.allocateFrom words offset = (none, self) ∧
        (∀ further, further < words → self.allocateAt (.ofNat 1024 (self.cursor + (offset + further))) = none) ∨
      ∃ idx id after, self.allocateAt idx = some (id, after) ∧ self.allocateFrom words offset = (some id, after) := by
  induction words generalizing offset with
  | zero => exact .inl ⟨rfl, fun further past => absurd past (Nat.not_lt_zero further)⟩
  | succ words ih =>
    rw [allocateFrom]
    cases found : self.allocateAt (.ofNat 1024 (self.cursor + offset)) with
    | some result => exact .inr ⟨_, result.1, result.2, found, rfl⟩
    | none =>
      rcases ih (offset + 1) with ⟨passed, rest⟩ | later
      · refine .inl ⟨passed, fun further past => ?_⟩
        cases further with
        | zero => exact found
        | succ further =>
          rw [Nat.add_comm further 1, ← Nat.add_assoc offset]
          exact rest further (Nat.lt_of_succ_lt_succ past)
      · exact .inr later

private theorem word_reached (cursor idx : Fin 1024) :
    ∃ further, further < 1024 ∧ Fin.ofNat 1024 (cursor + (0 + further)) = idx := by
  refine ⟨(idx.val + 1024 - cursor.val) % 1024, Nat.mod_lt _ (by decide), Fin.ext ?_⟩
  have lower := cursor.isLt
  have upper := idx.isLt
  simp only [Fin.ofNat]
  omega

theorem allocate_cases (self : PacketIds) :
    self.allocate = (none, self) ∧ (∀ id : UInt16, id ≠ 0 → id ∈ self.used) ∨
      ∃ idx id after, self.allocateAt idx = some (id, after) ∧ self.allocate = (some id, after) := by
  refine (allocateFrom_cases self 1024 0).imp_left fun ⟨passed, empty⟩ => ⟨passed, fun id nonzero => ⟨nonzero, ?_⟩⟩
  obtain ⟨further, within, reached⟩ := word_reached self.cursor ⟨(id.toNat - 1) / 64, word_inside id⟩
  have full := empty further within
  rw [reached] at full
  have small := id.toNat_lt
  have split : (id.toNat - 1) / 64 * 64 + (id.toNat - 1) % 64 = id.toNat - 1 := by omega
  have taken := allocateAt_none full (Nat.mod_lt (id.toNat - 1) (by decide)) (by simp only [split]; omega)
  simpa only [split] using taken

theorem allocateAt_used {after : PacketIds} {id : NonZeroU16} (allocated : self.allocateAt idx = some (id, after)) :
    id.get ∉ self.used ∧ after.used = insert id.get self.used := by
  obtain ⟨unused, inserted⟩ := allocateAt_spec allocated
  refine ⟨fun member => Bool.false_ne_true (unused.symm.trans ((mem_used id.nonzero).mp member)), Set.ext fun other => ?_⟩
  by_cases zero : other = 0
  · subst other
    simp [used, id.nonzero.symm]
  · have same : (⟨other, zero⟩ : NonZeroU16) = id ↔ other = id.get := by
      cases id
      simp
    rw [Set.mem_insert_iff, mem_used zero, mem_used zero, inserted]
    simp [same]

theorem release_mem (self : PacketIds) (nonzero : id ≠ 0) (offset : Nat) :
    Bitset.mem (self.release id).2.bits offset =
      if offset = id.toNat - 1 then false else Bitset.mem self.bits offset := by
  rw [release, if_neg nonzero]
  exact Bitset.mem_erase self.bits (id.toNat - 1) offset (by decide) (word_inside id)

theorem release_used (self : PacketIds) (id : UInt16) :
    ((self.release id).1 = true ↔ id ∈ self.used) ∧ (self.release id).2.used = self.used \ {id} := by
  by_cases zero : id = 0
  · subst id
    have absent : (0 : UInt16) ∉ self.used := fun member => member.1 rfl
    exact ⟨by simp [release, absent], by simp [release, absent]⟩
  · obtain ⟨found, erased⟩ := release_spec self ⟨id, zero⟩
    refine ⟨by rw [mem_used zero, found], Set.ext fun other => ?_⟩
    by_cases none : other = 0
    · subst other
      simp [used]
    · rw [Set.mem_sdiff, Set.mem_singleton_iff, mem_used none, mem_used none, erased]
      simp [and_comm]

/-- The last bit of the bitset is no id, and no call sets it. -/
def TopClear (self : PacketIds) : Prop := Bitset.mem self.bits 65535 = false

private theorem TopClear.perform {self : PacketIds} (clear : self.TopClear) (op : IdOp) : (self.perform op).2.TopClear := by
  cases op with
  | allocate =>
    rcases allocate_cases self with ⟨same, _⟩ | ⟨idx, id, after, allocated, same⟩
    · simpa only [PacketIds.perform, same] using clear
    · obtain ⟨bit, _, _, valid, _, _, inserted⟩ := allocateAt_found allocated
      have other : 65535 ≠ idx.val * 64 + bit := by omega
      simp only [PacketIds.perform, same, TopClear]
      rw [inserted, if_neg other]
      exact clear
  | release id =>
    by_cases zero : id = 0
    · simpa [PacketIds.perform, release, zero] using clear
    · simp only [PacketIds.perform, TopClear, release_mem self zero]
      split
      · rfl
      · exact clear

private theorem allocate_found {result : NonZeroU16 × PacketIds} (cursor : self.cursor = idx)
    (found : self.allocateAt idx = some result) : self.allocate = (some result.1, result.2) := by
  have first : self.allocateAt (.ofNat 1024 (self.cursor + 0)) = some result := by
    rw [cursor, Nat.add_zero, Fin.ofNat_val_eq_self, found]
  rw [allocate, allocateFrom, first]

private theorem release_reused (self : PacketIds) (nonzero : id ≠ 0) (taken : ∀ smaller : UInt16, smaller ≠ 0 → smaller < id →
      (smaller.toNat - 1) / 64 = (id.toNat - 1) / 64 → smaller ∈ self.used) :
    (self.release id).2.allocate.1 = some ⟨id, nonzero⟩ := by
  have small := id.toNat_lt
  have valid : id.toNat ≠ 0 := fun value => nonzero (UInt16.toNat_inj.mp value)
  set idx : Fin 1024 := ⟨(id.toNat - 1) / 64, word_inside id⟩ with chosen
  have cursor : (self.release id).2.cursor = idx := by simp [release, nonzero, chosen]
  have place : idx.val * 64 + (id.toNat - 1) % 64 = id.toNat - 1 := by
    simp only [chosen]
    omega
  have free : Bitset.mem (self.release id).2.bits (idx.val * 64 + (id.toNat - 1) % 64) = false := by
    rw [place, release_mem self nonzero, if_pos rfl]
  cases found : (self.release id).2.allocateAt idx with
  | none =>
    have full := allocateAt_none found (Nat.mod_lt (id.toNat - 1) (by decide)) (by rw [place]; omega)
    exact absurd (full.symm.trans free) (by simp)
  | some result =>
    obtain ⟨bit, inside, offset, _, unused, lower, _⟩ := allocateAt_found found
    rw [allocate_found cursor found]
    suffices same : bit = (id.toNat - 1) % 64 from congrArg some (offset_inj.mp (by rw [offset, same, place]))
    rcases Nat.lt_trichotomy bit ((id.toNat - 1) % 64) with before | same | after
    · -- an unused bit below would be a smaller id of the word
      exfalso
      have number : idx.val * 64 + bit + 1 < 2 ^ 16 := by omega
      have value : (UInt16.ofNat (idx.val * 64 + bit + 1)).toNat = idx.val * 64 + bit + 1 :=
        UInt16.toNat_ofNat_of_lt' number
      have member := taken (.ofNat (idx.val * 64 + bit + 1))
        (fun zero => by rw [zero] at value; simp at value) (by rw [UInt16.lt_iff_toNat_lt, value]; omega)
        (by rw [value]; omega)
      rw [release_mem self nonzero, if_neg (by omega)] at unused
      have set := member.2
      rw [value, Nat.add_sub_cancel, unused] at set
      exact Bool.false_ne_true set
    · exact same
    · exact absurd ((lower _ after).symm.trans free) (by simp)

/-! ### Whole histories -/

theorem id_range (id : NonZeroU16) : 1 ≤ id.get.toNat ∧ id.get.toNat ≤ 65535 := by
  have small := id.get.toNat_lt
  have valid : id.get.toNat ≠ 0 := fun value => id.nonzero (UInt16.toNat_inj.mp value)
  exact ⟨by omega, by omega⟩

theorem used_full (every : ∀ id : UInt16, id ≠ 0 → id ∈ self.used) :
    self.used = {id | 1 ≤ id.toNat ∧ id.toNat ≤ 65535} := by
  ext id
  constructor
  · exact fun member => id_range ⟨id, member.1⟩
  · intro inside
    refine every id fun zero => ?_
    subst id
    exact absurd inside.1 (by decide)

private theorem perform_answers (self : PacketIds) (op : IdOp) :
    IdSetAnswers self.used (self.perform op).1 (self.perform op).2.used := by
  cases op with
  | allocate =>
    rcases allocate_cases self with ⟨same, every⟩ | ⟨idx, id, after, allocated, same⟩
    · have full := used_full every
      rw [perform, same]
      simpa only [full] using IdSetAnswers.exhausted
    · obtain ⟨free, inserted⟩ := allocateAt_used allocated
      rw [perform, same]
      simpa only [inserted] using IdSetAnswers.allocated free
  | release id =>
    obtain ⟨found, erased⟩ := release_used self id
    rw [perform]
    simpa only [erased] using IdSetAnswers.released found

private theorem performAll_concat (ops : List IdOp) (op : IdOp) :
    performAll (ops ++ [op]) = ((performAll ops).1 ++ [((performAll ops).2.perform op).1], ((performAll ops).2.perform op).2) := by
  simp [performAll]

private theorem performAll_reflects (ops : List IdOp) :
    (performAll ops).2.used = inFlight (performAll ops).1 ∧ (performAll ops).2.TopClear ∧
      Runs IdSetAnswers ∅ (performAll ops).1 (inFlight (performAll ops).1) := by
  induction ops using List.reverseRecOn with
  | nil =>
    refine ⟨used_new.trans inFlight_nil.symm, Bitset.mem_replicate_zero _, ?_⟩
    change Runs IdSetAnswers ∅ [] (inFlight [])
    rw [inFlight_nil]
    exact .start
  | append_singleton ops op ih =>
    obtain ⟨same, clear, run⟩ := ih
    rw [performAll_concat]
    have answers := perform_answers (performAll ops).2 op
    rw [same] at answers
    have follows := answers.follows
    exact ⟨follows.symm, clear.perform op, follows.symm ▸ run.next answers⟩

end PacketIds

/-- Whatever was called before, the allocator answers as the set of ids in flight. -/
theorem packetIds_refine_set (ops : List IdOp) :
    let calls := (PacketIds.performAll ops).1
    let ids := (PacketIds.performAll ops).2
    Runs IdSetAnswers ∅ calls (inFlight calls) ∧ ids.used = inFlight calls ∧
      (ids.allocate.1 = none ↔ inFlight calls = {id | 1 ≤ id.toNat ∧ id.toNat ≤ 65535}) ∧
      (∀ id, ids.allocate.1 = some id → 1 ≤ id.get.toNat ∧ id.get.toNat ≤ 65535 ∧ id.get ∉ inFlight calls ∧
        ids.allocate.2.used = insert id.get (inFlight calls)) ∧
      (∀ id, ((ids.release id).1 = true ↔ id ∈ inFlight calls) ∧ (ids.release id).2.used = inFlight calls \ {id}) ∧
      (∀ (id : UInt16) (nonzero : id ≠ 0),
        (∀ smaller : UInt16, smaller ≠ 0 → smaller < id → (smaller.toNat - 1) / 64 = (id.toNat - 1) / 64 →
          smaller ∈ inFlight calls) →
        (ids.release id).2.allocate.1 = some ⟨id, nonzero⟩) ∧
      ids.bits[1023].getLsbD 63 = false ∧ ids.cursor.val < 1024 := by
  intro calls ids
  obtain ⟨same, clear, run⟩ := PacketIds.performAll_reflects ops
  change ids.used = inFlight calls at same
  rw [← same]
  refine ⟨same ▸ run, rfl, ?_, fun id handed => ?_, PacketIds.release_used ids,
    fun id nonzero taken => PacketIds.release_reused ids nonzero taken, ?_, ids.cursor.isLt⟩
  · rcases PacketIds.allocate_cases ids with ⟨none, every⟩ | ⟨idx, id, after, allocated, some⟩
    · simp [none, PacketIds.used_full every]
    · have free := (PacketIds.allocateAt_used allocated).1
      refine iff_of_false (by simp [some]) fun full => free ?_
      rw [full]
      exact PacketIds.id_range id
  · rcases PacketIds.allocate_cases ids with ⟨none, _⟩ | ⟨idx, chosen, after, allocated, some⟩
    · rw [none] at handed
      cases handed
    · rw [some] at handed
      cases handed
      obtain ⟨free, inserted⟩ := PacketIds.allocateAt_used allocated
      exact ⟨(PacketIds.id_range id).1, (PacketIds.id_range id).2, free, by rw [some, inserted]⟩
  · exact (PacketIds.mem_word ids 1023 (by decide)).symm.trans clear

theorem packetIds_refine_set_first_id :
    ((PacketIds.performAll [.allocate, .allocate]).2.release 1).2.allocate.1 = some ⟨1, by decide⟩ := by
  obtain ⟨_, _, _, _, _, reused, _⟩ := packetIds_refine_set [.allocate, .allocate]
  refine reused 1 (by decide) fun smaller nonzero below _ => ?_
  have value : smaller.toNat < 1 := UInt16.lt_iff_toNat_lt.mp below
  exact absurd (UInt16.toNat_inj.mp (show smaller.toNat = (0 : UInt16).toNat by simp; omega)) nonzero

end UringMqtt.Bench

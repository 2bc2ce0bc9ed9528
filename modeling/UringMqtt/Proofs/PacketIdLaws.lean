import UringMqtt.Bench.PacketIds

/-! `PacketIds` is a set of ids: it hands out ids that are not in use and takes back
those that are. -/

namespace UringMqtt.Bench
open Lib

/-- Ids are handed out when they are unused and taken back when they are in use. -/
structure Allocator.Lawful (allocator : Allocator) where
  holds : allocator.Ids → NonZeroU16 → Bool
  new_holds : ∀ id, holds allocator.new id = false
  allocate_none : ∀ ids, (allocator.allocate ids).1 = none → (allocator.allocate ids).2 = ids
  allocate_some : ∀ ids id, (allocator.allocate ids).1 = some id → holds ids id = false ∧
    ∀ other, holds (allocator.allocate ids).2 other = (decide (other = id) || holds ids other)
  release_holds : ∀ ids id, (allocator.release ids id.get).1 = holds ids id ∧
    ∀ other, holds (allocator.release ids id.get).2 other = (!decide (other = id) && holds ids other)

namespace PacketIds

def holds (self : PacketIds) (id : NonZeroU16) : Bool := Bitset.mem self.bits (id.get.toNat - 1)

theorem offset_inj {one two : NonZeroU16} : one.get.toNat - 1 = two.get.toNat - 1 ↔ one = two := by
  have oneValid : one.get.toNat ≠ 0 := fun zero => one.nonzero (UInt16.toNat_inj.mp zero)
  have twoValid : two.get.toNat ≠ 0 := fun zero => two.nonzero (UInt16.toNat_inj.mp zero)
  constructor
  · intro same
    have value : one.get = two.get := UInt16.toNat_inj.mp (by omega)
    cases one
    cases two
    cases value
    rfl
  · intro same
    rw [same]

theorem new_offset {offset : Nat} (valid : offset ≤ 65534) :
    ∃ id, NonZeroU16.new (.ofNat (offset + 1)) = some id ∧ id.get.toNat - 1 = offset := by
  have value : (UInt16.ofNat (offset + 1)).toNat = offset + 1 :=
    UInt16.toNat_ofNat_of_lt' (Nat.lt_of_le_of_lt (Nat.succ_le_succ valid) (by decide))
  have nonzero : UInt16.ofNat (offset + 1) ≠ 0 := by
    intro zero
    rw [zero] at value
    exact Nat.succ_ne_zero offset value.symm
  refine ⟨⟨_, nonzero⟩, dif_pos nonzero, ?_⟩
  rw [value, Nat.add_sub_cancel]

theorem mem_word (self : PacketIds) (idx : Fin 1024) {bit : Nat} (inside : bit < 64) :
    Bitset.mem self.bits (idx.val * 64 + bit) = self.bits[idx].getLsbD bit := by
  have word : (idx.val * 64 + bit) / 64 = idx.val := by omega
  have place : (idx.val * 64 + bit) % 64 = bit := by omega
  have within : (idx.val * 64 + bit) / 64 < 1024 := by omega
  rw [Bitset.mem_of_lt _ _ within]
  simp [word, place]

theorem unused_bit {word : BitVec 64} (room : word ≠ BitVec.allOnes 64) :
    (~~~word).ctz.toNat < 64 ∧ word.getLsbD (~~~word).ctz.toNat = false ∧
      ∀ lower, lower < (~~~word).ctz.toNat → word.getLsbD lower = true := by
  have some : ~~~word ≠ 0 := by
    intro none
    exact room (by simpa using congrArg (~~~·) none)
  have free := BitVec.getLsbD_true_ctz_of_ne_zero some
  have inside := BitVec.lt_of_getLsbD free
  refine ⟨inside, by simpa [inside] using free, fun lower below => ?_⟩
  have taken := BitVec.getLsbD_false_of_lt_ctz below
  simpa [Nat.lt_trans below inside] using taken

variable {self after : PacketIds} {idx : Fin 1024} {id : NonZeroU16}

theorem allocateAt_found (allocated : self.allocateAt idx = some (id, after)) :
    ∃ bit, bit < 64 ∧ id.get.toNat - 1 = idx.val * 64 + bit ∧ idx.val * 64 + bit ≤ 65534 ∧
      Bitset.mem self.bits (idx.val * 64 + bit) = false ∧
      (∀ lower, lower < bit → Bitset.mem self.bits (idx.val * 64 + lower) = true) ∧
      ∀ offset, Bitset.mem after.bits offset =
        if offset = idx.val * 64 + bit then true else Bitset.mem self.bits offset := by
  unfold allocateAt at allocated
  dsimp only at allocated
  split at allocated
  · cases allocated
  next room =>
    obtain ⟨inside, unused, taken⟩ := unused_bit room
    generalize (~~~self.bits[idx]).ctz.toNat = bit at inside unused taken allocated
    split at allocated
    · cases allocated
    next valid =>
      obtain ⟨chosen, made, offset⟩ := new_offset (Nat.le_of_not_lt valid)
      simp only [made] at allocated
      cases allocated
      have word : (idx.val * 64 + bit) / 64 = idx.val := by omega
      have place : (idx.val * 64 + bit) % 64 = bit := by omega
      have within : (idx.val * 64 + bit) / 64 < 1024 := by omega
      refine ⟨bit, inside, offset, Nat.le_of_not_lt valid, ?_, fun lower below => ?_, fun other => ?_⟩
      · exact (mem_word self idx inside).trans unused
      · exact (mem_word self idx (Nat.lt_trans below inside)).trans (taken lower below)
      · have inserted := Bitset.mem_insert self.bits (idx.val * 64 + bit) other (by decide) within
        simp only [word, place] at inserted
        exact inserted

theorem allocateAt_spec (allocated : self.allocateAt idx = some (id, after)) :
    self.holds id = false ∧ ∀ other, after.holds other = (decide (other = id) || self.holds other) := by
  obtain ⟨bit, _, offset, _, unused, _, inserted⟩ := allocateAt_found allocated
  refine ⟨by rw [holds, offset, unused], fun other => ?_⟩
  have same : other.get.toNat - 1 = idx.val * 64 + bit ↔ other = id := by rw [← offset, offset_inj]
  rw [holds, inserted]
  simp only [same]
  by_cases equal : other = id <;> simp [equal, holds]

theorem allocateFrom_spec (self : PacketIds) (words offset : Nat) :
    ((self.allocateFrom words offset).1 = none → (self.allocateFrom words offset).2 = self) ∧
      ∀ id, (self.allocateFrom words offset).1 = some id → self.holds id = false ∧
        ∀ other, (self.allocateFrom words offset).2.holds other = (decide (other = id) || self.holds other) := by
  induction words generalizing offset with
  | zero =>
    refine ⟨fun _ => rfl, fun id chosen => ?_⟩
    cases chosen
  | succ words ih =>
    rw [allocateFrom]
    cases found : self.allocateAt (.ofNat 1024 (self.cursor + offset)) with
    | none => exact ih (offset + 1)
    | some result =>
      refine ⟨fun none => ?_, fun id chosen => ?_⟩
      · cases none
      · cases chosen
        exact allocateAt_spec found

theorem release_spec (self : PacketIds) (id : NonZeroU16) :
    (self.release id.get).1 = self.holds id ∧
      ∀ other, (self.release id.get).2.holds other = (!decide (other = id) && self.holds other) := by
  have within := word_inside id.get
  rw [release, if_neg id.nonzero]
  constructor
  · have tested := Bitset.and_mask_eq_zero_iff_mem self.bits (id.get.toNat - 1) (by decide) within
    cases inUse : self.holds id with
    | false => simpa using tested.mpr inUse
    | true =>
      refine decide_eq_true fun empty => ?_
      exact Bool.false_ne_true ((tested.mp empty).symm.trans inUse)
  · intro other
    refine (Bitset.mem_erase self.bits (id.get.toNat - 1) (other.get.toNat - 1) (by decide) within).trans ?_
    simp only [offset_inj]
    by_cases equal : other = id <;> simp [equal, holds]

theorem release_rejected {id : UInt16} (rejected : self.release id = (false, after)) :
    ∃ cursor, after = { self with cursor } := by
  unfold release at rejected
  split at rejected
  · exact ⟨self.cursor, (Prod.mk.inj rejected).2.symm⟩
  · obtain ⟨unset, rfl⟩ := Prod.mk.inj rejected
    have clear := not_not.mp (of_decide_eq_false unset)
    exact ⟨_, congrArg (PacketIds.mk · _) (Bitset.erase_unset self.bits ⟨_, word_inside id⟩ clear)⟩

end PacketIds

def packetIdsLawful : packetIds.Lawful where
  holds := PacketIds.holds
  new_holds _ := Bitset.mem_replicate_zero _
  allocate_none ids := (PacketIds.allocateFrom_spec ids 1024 0).1
  allocate_some ids := (PacketIds.allocateFrom_spec ids 1024 0).2
  release_holds := PacketIds.release_spec

end UringMqtt.Bench

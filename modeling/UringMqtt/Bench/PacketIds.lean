import UringMqtt.Bench.Connection

/-! The packet ids of a connection, `PacketIds` in `bench/src/gen.rs`: a bitset over
1..=65535 whose bit `k` is id `k + 1`, and the word the next scan starts at. -/

namespace UringMqtt.Bench
open Lib

structure PacketIds where
  bits : Vector (BitVec 64) 1024
  cursor : Fin 1024

namespace PacketIds

def new : PacketIds := ⟨Vector.replicate 1024 0, 0⟩

/-- Set the first unused bit of the word and scan on from the next word. The last bit of
the bitset is no packet id. -/
def allocateAt (self : PacketIds) (idx : Fin 1024) : Option (NonZeroU16 × PacketIds) :=
  let word := self.bits[idx]
  if word = BitVec.allOnes 64 then none
  else
    let bit := (~~~word).ctz.toNat
    let idOffset := idx.val * 64 + bit
    if idOffset > 65534 then none
    else do
      let id ← NonZeroU16.new (.ofNat (idOffset + 1))
      return (id, ⟨self.bits.set idx (word ||| Bitset.mask 64 bit), idx + 1⟩)

def allocateFrom (self : PacketIds) : (words offset : Nat) → Option NonZeroU16 × PacketIds
  | 0, _ => (none, self)
  | words + 1, offset =>
    match self.allocateAt (.ofNat 1024 (self.cursor + offset)) with
    | some (id, after) => (some id, after)
    | none => self.allocateFrom words (offset + 1)

def allocate (self : PacketIds) : Option NonZeroU16 × PacketIds := self.allocateFrom 1024 0

theorem word_inside (id : UInt16) : (id.toNat - 1) / 64 < 1024 := by
  have small := id.toNat_lt
  omega

def release (self : PacketIds) (id : UInt16) : Bool × PacketIds :=
  if id = 0 then (false, self)
  else
    let idOffset := id.toNat - 1
    let idx : Fin 1024 := ⟨idOffset / 64, word_inside id⟩
    let mask := Bitset.mask 64 (idOffset % 64)
    let wasSet := decide (self.bits[idx] &&& mask ≠ 0)
    (wasSet, ⟨self.bits.set idx (self.bits[idx] &&& ~~~mask), idx⟩)

end PacketIds

def packetIds : Allocator where
  Ids := PacketIds
  new := .new
  allocate := PacketIds.allocate
  release := PacketIds.release

end UringMqtt.Bench

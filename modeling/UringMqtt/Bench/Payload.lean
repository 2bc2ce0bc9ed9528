import UringMqtt.Codec.Packets
import UringMqtt.Lib.LittleEndian

/-! The payload of a benchmark publish, `bench/src/payload.rs`. -/

namespace UringMqtt.Bench
open Lib

def payloadBytes : Nat := 64

def topic : String := "bench/load"

structure Stamp where
  connId : UInt32
  seq : UInt64
  scheduledNs : UInt64
deriving DecidableEq

namespace Stamp

def encode (self : Stamp) : Bytes :=
  LittleEndian.write 4 self.connId.toNat ++ LittleEndian.write 8 self.seq.toNat ++
    LittleEndian.write 8 self.scheduledNs.toNat ++ List.replicate (payloadBytes - 20) 0

def decode (payload : Bytes) : Option Stamp :=
  if payload.length ≠ payloadBytes then none
  else if (payload.drop 20).any (· ≠ 0) then none
  else some {
    connId := .ofNat (LittleEndian.read (payload.take 4))
    seq := .ofNat (LittleEndian.read ((payload.drop 4).take 8))
    scheduledNs := .ofNat (LittleEndian.read ((payload.drop 12).take 8)) }

@[simp] theorem length_encode (self : Stamp) : self.encode.length = payloadBytes := by
  simp [encode, payloadBytes]

theorem decode_encode (self : Stamp) : decode self.encode = some self := by
  have conn : LittleEndian.read (self.encode.take 4) = self.connId.toNat := by
    rw [encode, List.append_assoc, List.append_assoc, List.take_left' (LittleEndian.length_write _ _)]
    exact LittleEndian.read_write self.connId.toNat_lt
  have seq : LittleEndian.read ((self.encode.drop 4).take 8) = self.seq.toNat := by
    rw [encode, List.append_assoc, List.append_assoc, List.drop_left' (LittleEndian.length_write _ _),
      List.take_left' (LittleEndian.length_write _ _)]
    exact LittleEndian.read_write self.seq.toNat_lt
  have scheduled : LittleEndian.read ((self.encode.drop 12).take 8) = self.scheduledNs.toNat := by
    rw [encode, List.append_assoc, List.drop_left' (by simp), List.take_left' (LittleEndian.length_write _ _)]
    exact LittleEndian.read_write self.scheduledNs.toNat_lt
  have padding : (self.encode.drop 20).any (· ≠ 0) = false := by
    rw [encode, List.drop_left' (by simp)]
    simp
  simp only [decode, length_encode, ne_eq, not_true_eq_false, if_false, padding, conn, seq, scheduled]
  simp

end Stamp
end UringMqtt.Bench

import UringMqtt.Bench.Payload
import UringMqtt.Codec.FixedHeader

/-! The frames the load generator writes by hand, `bench/src/wire.rs`. Each function takes
the buffer it appends to where the source does; `none` is a panic. -/

namespace UringMqtt.Bench.Wire
open Lib

def writeVarint (value : Nat) (out : Bytes) : Bytes :=
  let encoded : UInt8 := .ofNat (value &&& 0x7F)
  let rest := value >>> 7
  let encoded := if rest > 0 then encoded ||| 0x80 else encoded
  let out := out ++ [encoded]
  if rest = 0 then out else writeVarint rest out
termination_by value
decreasing_by
  simp only [Nat.shiftRight_eq_div_pow] at *
  omega

def asBytes (text : String) : Bytes := text.toByteArray.data.toList

/-- `u16::try_from(len).expect(..).to_be_bytes()`. -/
def lengthBytes (len : Nat) : Option Bytes :=
  if len < 2 ^ 16 then some [.ofNat (len / 256), .ofNat (len % 256)] else none

def idBytes (id : NonZeroU16) : Bytes := [(id.get >>> 8).toUInt8, (id.get &&& 0xFF).toUInt8]

def encodeConnect (clientId : String) : Option Bytes := do
  let bodyLen := 12 + (asBytes clientId).length
  let out := writeVarint bodyLen [0x10]
  let out := out ++ [0x00, 0x04, 0x4D, 0x51, 0x54, 0x54]
  -- protocol level 4, clean session, keep-alive 0
  let out := out ++ [0x04] ++ [0x02] ++ [0x00, 0x00]
  let out := out ++ (← lengthBytes (asBytes clientId).length)
  return out ++ asBytes clientId

def encodePublish (dst : Bytes) (qos : UInt8) (packetId : Option NonZeroU16) (payload : Vector UInt8 payloadBytes) :
    Option Bytes := do
  let fixed := (0x30 : UInt8) ||| (qos <<< 1)
  let bodyLen := 2 + (asBytes topic).length + payload.toList.length + if qos > 0 then 2 else 0
  let dst := writeVarint bodyLen (dst ++ [fixed])
  let dst := dst ++ (← lengthBytes (asBytes topic).length)
  let dst := dst ++ asBytes topic
  let dst ← if qos > 0 then packetId.map fun id => dst ++ idBytes id else some dst
  return dst ++ payload.toList

def encodeSubscribe (packetId : NonZeroU16) (qos : UInt8) : Option Bytes := do
  let bodyLen := 2 + 2 + (asBytes topic).length + 1
  let out := writeVarint bodyLen [0x82]
  let out := out ++ idBytes packetId
  let out := out ++ (← lengthBytes (asBytes topic).length)
  let out := out ++ asBytes topic
  return out ++ [qos]

def encodePuback (packetId : NonZeroU16) : Bytes :=
  [0x40, 0x02, (packetId.get >>> 8).toUInt8, (packetId.get &&& 0xFF).toUInt8]

def disconnect : Bytes := [0xE0, 0x00]

/-! ### What the loop writes -/

private theorem low_byte (value : Nat) : (UInt8.ofNat (value &&& 0x7F)).toNat = value % 128 := by
  rw [Nat.and_two_pow_sub_one_eq_mod value 7]
  exact UInt8.toNat_ofNat_of_lt' (show value % 2 ^ 7 < 2 ^ 8 by omega)

private theorem continued_byte (value : Nat) :
    UInt8.ofNat (value &&& 0x7F) ||| 0x80 = .ofNat (value % 128 + 128) := by
  apply UInt8.toNat_inj.mp
  have byte : (UInt8.ofNat (value % 128 + 128)).toNat = value % 128 + 128 :=
    UInt8.toNat_ofNat_of_lt' (show value % 128 + 128 < 2 ^ 8 by omega)
  have small : value % 128 < 2 ^ 7 := Nat.mod_lt _ (by decide)
  have joined := Nat.two_pow_add_eq_or_of_lt small 1
  rw [UInt8.toNat_or, low_byte, byte, Nat.or_comm]
  exact joined.symm.trans (Nat.add_comm _ _)

theorem writeVarint_eq (value : Nat) (out : Bytes) : writeVarint value out = out ++ Varint.encode value := by
  induction value using Nat.strongRecOn generalizing out with
  | ind value ih =>
    have shifted : value >>> 7 = value / 128 := Nat.shiftRight_eq_div_pow value 7
    rw [writeVarint, Varint.encode]
    simp only [shifted]
    by_cases small : value < 128
    · have none : value / 128 = 0 := Nat.div_eq_of_lt small
      have byte : UInt8.ofNat (value &&& 0x7F) = .ofNat value := by
        rw [Nat.and_two_pow_sub_one_eq_mod value 7, Nat.mod_eq_of_lt small]
      simp [small, none, byte]
    · have more : value / 128 ≠ 0 := by omega
      rw [if_pos (Nat.pos_of_ne_zero more), if_neg more, if_neg small, ih (value / 128) (by omega), continued_byte]
      simp

end UringMqtt.Bench.Wire

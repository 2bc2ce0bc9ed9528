import Mathlib.Algebra.GroupWithZero.Nat

/-! Numbers in a fixed count of bytes, the least significant byte first. -/

namespace UringMqtt.Lib.LittleEndian

def write : Nat → Nat → List UInt8
  | 0, _ => []
  | width + 1, number => .ofNat number :: write width (number / 256)

def read : List UInt8 → Nat
  | [] => 0
  | byte :: rest => byte.toNat + read rest * 256

@[simp] theorem length_write (width number : Nat) : (write width number).length = width := by
  induction width generalizing number with
  | zero => rfl
  | succ width ih => rw [write, List.length_cons, ih]

theorem read_write {width number : Nat} (fits : number < 256 ^ width) : read (write width number) = number := by
  induction width generalizing number with
  | zero =>
    rw [Nat.pow_zero, Nat.lt_one_iff] at fits
    rw [fits]
    rfl
  | succ width ih =>
    have upper : number / 256 < 256 ^ width := by
      rw [Nat.pow_succ] at fits
      exact Nat.div_lt_of_lt_mul (by rwa [Nat.mul_comm])
    rw [write, read, ih upper, UInt8.toNat_ofNat']
    omega

end UringMqtt.Lib.LittleEndian

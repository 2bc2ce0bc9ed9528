import Mathlib.Data.List.Basic
import Mathlib.Tactic.Ring

/-! Base-128 variable-length numbers: seven payload bits a byte, least
significant group first, the top bit set on every byte but the last. -/

namespace UringMqtt.Lib.Varint

/-- What the front of a byte string says about a number of at most `limit` bytes. -/
inductive Reading where
  | incomplete
  | overlong
  | number (width value : Nat)
deriving DecidableEq, Repr

def read : Nat → List UInt8 → Reading
  | 0, _ => .overlong
  | _ + 1, [] => .incomplete
  | limit + 1, byte :: rest =>
    if byte.toNat < 128 then .number 1 byte.toNat
    else match read limit rest with
      | .number width value => .number (width + 1) (byte.toNat % 128 + 128 * value)
      | .incomplete => .incomplete
      | .overlong => .overlong

def width (value : Nat) : Nat :=
  if value < 128 then 1 else width (value / 128) + 1

theorem width_pos (value : Nat) : 0 < width value := by
  unfold width
  split <;> omega

variable {value bytes limit : Nat} {src : List UInt8}

theorem width_le (positive : 0 < bytes) (fits : value < 128 ^ bytes) : width value ≤ bytes := by
  induction bytes generalizing value with
  | zero => omega
  | succ bytes ih =>
    unfold width
    split
    · omega
    next large =>
      have more : 0 < bytes := by
        rcases Nat.eq_zero_or_pos bytes with rfl | more
        · simp at fits; omega
        · exact more
      have smaller : value / 128 < 128 ^ bytes := by
        rw [Nat.div_lt_iff_lt_mul (by decide)]
        simpa [Nat.pow_succ] using fits
      have := ih more smaller
      omega

theorem lt_pow_width (value : Nat) : value < 128 ^ width value := by
  induction value using Nat.strongRecOn with
  | ind value ih =>
    unfold width
    split
    · simpa
    · have smaller := ih (value / 128) (by omega)
      rw [Nat.pow_succ]
      omega

theorem width_mono {small large : Nat} (le : small ≤ large) : width small ≤ width large :=
  width_le (width_pos large) (Nat.lt_of_le_of_lt le (lt_pow_width large))

theorem read_number (found : read limit src = .number bytes value) :
    0 < bytes ∧ bytes ≤ limit ∧ bytes ≤ src.length ∧ value < 128 ^ bytes := by
  induction limit generalizing src bytes value with
  | zero => simp [read] at found
  | succ limit ih =>
    cases src with
    | nil => simp [read] at found
    | cons byte rest =>
      rw [read] at found
      split at found
      next last =>
        cases found
        exact ⟨by omega, by omega, by simp, by simpa using last⟩
      next =>
        split at found
        next inner small more =>
          cases found
          obtain ⟨_, bounded, inside, fits⟩ := ih more
          refine ⟨by omega, by omega, by simpa using inside, ?_⟩
          rw [Nat.pow_succ]
          omega
        next => cases found
        next => cases found

theorem width_le_of_read (found : read limit src = .number bytes value) : width value ≤ bytes := by
  obtain ⟨positive, _, _, fits⟩ := read_number found
  exact width_le positive fits

theorem read_number_append (more : List UInt8)
    (found : read limit src = .number bytes value) : read limit (src ++ more) = .number bytes value := by
  induction limit generalizing src bytes value with
  | zero => simp [read] at found
  | succ limit ih =>
    cases src with
    | nil => simp [read] at found
    | cons byte rest =>
      rw [List.cons_append, read]
      rw [read] at found
      split at found
      next last => simpa [last] using found
      next large =>
        split at found
        next inner small inside => simpa [large, ih inside] using found
        next => cases found
        next => cases found

theorem read_overlong_append (more : List UInt8) (found : read limit src = .overlong) : read limit (src ++ more) = .overlong := by
  induction limit generalizing src with
  | zero => rfl
  | succ limit ih =>
    cases src with
    | nil => simp [read] at found
    | cons byte rest =>
      rw [List.cons_append, read]
      rw [read] at found
      split at found
      next => cases found
      next large =>
        split at found
        next => cases found
        next => cases found
        next inside => simp [large, ih inside]

theorem read_take (found : read limit src = .number bytes value) :
    read limit (src.take bytes) = .number bytes value := by
  induction limit generalizing src bytes value with
  | zero => simp [read] at found
  | succ limit ih =>
    cases src with
    | nil => simp [read] at found
    | cons byte rest =>
      rw [read] at found
      split at found
      next last =>
        cases found
        simp [read, last]
      next large =>
        split at found
        next inner small inside =>
          cases found
          simp [read, large, ih inside]
        next => cases found
        next => cases found

theorem read_incomplete_completes (found : read limit src = .incomplete) :
    ∃ value, read limit (src ++ [0]) = .number (src.length + 1) value := by
  induction limit generalizing src with
  | zero => simp [read] at found
  | succ limit ih =>
    cases src with
    | nil => exact ⟨0, by simp [read]⟩
    | cons byte rest =>
      rw [read] at found
      split at found
      next => cases found
      next large =>
        split at found
        next => cases found
        next inside =>
          obtain ⟨value, completed⟩ := ih inside
          exact ⟨byte.toNat % 128 + 128 * value, by simp [read, large, completed]⟩
        next => cases found

/-- The shortest way to write a number. -/
def encode (value : Nat) : List UInt8 :=
  if value < 128 then [.ofNat value] else .ofNat (value % 128 + 128) :: encode (value / 128)

theorem length_encode (value : Nat) : (encode value).length = width value := by
  induction value using Nat.strongRecOn with
  | ind value ih =>
    unfold encode width
    split
    · rfl
    · rw [List.length_cons, ih (value / 128) (by omega)]

theorem read_encode (fits : width value ≤ limit) (more : List UInt8) :
    read limit (encode value ++ more) = .number (width value) value := by
  induction limit generalizing value with
  | zero =>
    have := width_pos value
    omega
  | succ limit ih =>
    unfold encode width
    unfold width at fits
    split at fits
    next small =>
      have byte : (UInt8.ofNat value).toNat = value := UInt8.toNat_ofNat_of_lt' (Nat.lt_trans small (by decide))
      rw [if_pos small, if_pos small, List.cons_append, read, byte, if_pos small]
    next large =>
      have byte : (UInt8.ofNat (value % 128 + 128)).toNat = value % 128 + 128 :=
        UInt8.toNat_ofNat_of_lt' (show value % 128 + 128 < 256 by omega)
      rw [if_neg large, if_neg large, List.cons_append, read, byte, if_neg (by omega), ih (by omega)]
      simp only [Reading.number.injEq, true_and]
      omega

/-- A number read from as few bytes as it needs was written the shortest way. -/
theorem encode_of_read (found : read limit src = .number (width value) value) : src.take (width value) = encode value := by
  induction limit generalizing src value with
  | zero => simp [read] at found
  | succ limit ih =>
    cases src with
    | nil => simp [read] at found
    | cons byte rest =>
      rw [read] at found
      split at found
      next last =>
        obtain ⟨one, rfl⟩ := Reading.number.inj found
        rw [← one, encode, if_pos last]
        simp
      next large =>
        split at found
        next inner small inside =>
          obtain ⟨more, rfl⟩ := Reading.number.inj found
          have bounded := byte.toNat_lt
          have positive := (read_number inside).1
          -- one byte is not enough, so the value has a group above the lowest
          have wide : ¬ byte.toNat % 128 + 128 * small < 128 := by
            intro narrow
            rw [width, if_pos narrow] at more
            omega
          have upper : (byte.toNat % 128 + 128 * small) / 128 = small := by omega
          have lower : (byte.toNat % 128 + 128 * small) % 128 + 128 = byte.toNat := by omega
          have exact : inner = width small := by
            rw [width, if_neg wide, upper] at more
            omega
          rw [← more, encode, if_neg wide, upper, lower, List.take_succ_cons, exact, ih (exact ▸ inside)]
          simp
        next => cases found
        next => cases found

end UringMqtt.Lib.Varint

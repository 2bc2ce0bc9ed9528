import UringMqtt.Bench.Attempts
import Mathlib.Data.Rat.Floor

/-! A record on disk: `serde_json` as this crate configures it, without its
`float_roundtrip` feature. Integers, strings and the structure survive the text; a
rate is written with the fewest digits that name it and read back by rounding the
digits and the power of ten separately. -/

namespace UringMqtt.Bench
open Lib

/-! ### `f64`

The finite values are rationals, and an operation rounds its exact result. Rates are
far from the ends of the exponent range, and no rate divides by zero. -/

def roundQuotient (numerator denominator : Nat) : Nat :=
  let quotient := numerator / denominator
  let rest := 2 * (numerator % denominator)
  if rest < denominator then quotient
  else if denominator < rest then quotient + 1
  else quotient + quotient % 2

def scaleQuotient (numerator denominator : Nat) (shift : Int) : Nat × Nat :=
  (numerator * 2 ^ shift.toNat, denominator * 2 ^ (-shift).toNat)

/-- The quotient of two positive naturals to 53 significant bits. -/
def roundPositive (numerator denominator : Nat) : Rat :=
  let shift : Int := 53 - ((Nat.log2 numerator : Int) - Nat.log2 denominator)
  let wide := scaleQuotient numerator denominator shift
  let shift := if wide.1 / wide.2 < 2 ^ 53 then shift else shift - 1
  let scaled := scaleQuotient numerator denominator shift
  mkRat (roundQuotient scaled.1 scaled.2 * 2 ^ (-shift).toNat) (2 ^ shift.toNat)

def roundBinary64 (value : Rat) : Rat :=
  if value.num = 0 then 0
  else if value.num < 0 then -roundPositive value.num.natAbs value.den
  else roundPositive value.num.natAbs value.den

/-! ### The text of a rate -/

structure DecimalText where
  digits : Nat
  decimals : Nat

def nearestText (value : Rat) (decimals : Nat) : DecimalText :=
  ⟨roundQuotient (value.num.natAbs * 10 ^ decimals) value.den, decimals⟩

def DecimalText.names (text : DecimalText) : Rat := roundBinary64 (mkRat text.digits (10 ^ text.decimals))

def writeRate (value : Rat) : DecimalText :=
  nearestText value (((List.range' 1 400).find? fun decimals => (nearestText value decimals).names = value).getD 400)

def readRate (text : DecimalText) : Rat :=
  roundBinary64 (roundBinary64 text.digits / roundBinary64 (10 ^ text.decimals))

def DecimalText.positional (text : DecimalText) : String :=
  let fraction := toString (text.digits % 10 ^ text.decimals)
  toString (text.digits / 10 ^ text.decimals) ++ "." ++
    String.ofList (List.replicate (text.decimals - fraction.length) '0') ++ fraction

def binary64 : F64 where
  Value := Rat
  ofNat value := roundBinary64 value
  literal mantissa decimals := roundBinary64 (mkRat mantissa (10 ^ decimals))
  sub first second := roundBinary64 (first - second)
  mul first second := roundBinary64 (first * second)
  div first second := roundBinary64 (first / second)
  abs value := if value.num < 0 then -value else value
  lt first second := decide (first < second)
  le first second := decide (first ≤ second)
  ceil value := min ⌈value⌉.toNat u64Max
  debug value := (if value.num < 0 then "-" else "") ++ (writeRate value).positional
  tenths value := (if value.num < 0 then "-" else "") ++ (nearestText value 1).positional

instance : DecidableEq binary64.Value := inferInstanceAs (DecidableEq Rat)

def roundHalfAway (value : Rat) : Rat := if value.num < 0 then ((-⌊-value + 1 / 2⌋ : Int) : Rat) else ((⌊value + 1 / 2⌋ : Int) : Rat)

instance : Figures binary64 where
  midpoint := fun (first second : Rat) => roundBinary64 ((first + second) / 2)
  round := roundHalfAway
  fixed4 := fun (value : Rat) => (if value.num < 0 then "-" else "") ++ (nearestText value 4).positional

/-! ### The record -/

/-- A record written by `write_record` and read back by `read_records`, where a rate
comes back as `back` says. -/
def RunRecord.readBack {f64 : F64} (record : RunRecord f64) (back : f64.Value → f64.Value) : RunRecord f64 :=
  { record with
    throughputMsgsPerSec := record.throughputMsgsPerSec.map back
    last10sMsgsPerSec := record.last10sMsgsPerSec.map back
    connectionsPerSec := record.connectionsPerSec.map back
    syscalls := { record.syscalls with perMsg := record.syscalls.perMsg.map back } }

def jsonRate (value : binary64.Value) : binary64.Value := readRate (writeRate value)

end UringMqtt.Bench

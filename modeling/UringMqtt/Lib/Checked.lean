import Mathlib.Algebra.GroupWithZero.Nat

/-! Arithmetic on machine integers that says when it leaves their range: the natural
number it stands for, or nothing. -/

namespace UringMqtt.Lib.Checked

variable {bits one two : Nat}

def add (bits one two : Nat) : Option Nat := if one + two < 2 ^ bits then some (one + two) else none

def sub (one two : Nat) : Option Nat := if two ≤ one then some (one - two) else none

def mul (bits one two : Nat) : Option Nat := if one * two < 2 ^ bits then some (one * two) else none

theorem add_some (fits : one + two < 2 ^ bits) : add bits one two = some (one + two) := if_pos fits

theorem sub_some (fits : two ≤ one) : sub one two = some (one - two) := if_pos fits

theorem mul_some (fits : one * two < 2 ^ bits) : mul bits one two = some (one * two) := if_pos fits

end UringMqtt.Lib.Checked

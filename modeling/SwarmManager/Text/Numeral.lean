/-!
# Numerals of any base

Numerals of a base of at most sixteen, with letters of either case for the digits
from ten on, and numerals that say their base: a zero in front makes a numeral
octal, a zero and an `x` hexadecimal, and any other numeral is decimal.
-/

namespace SwarmManager.Numeral

set_option autoImplicit false

/-- The number a digit of a base stands for. -/
def digitValue? (base : Nat) (character : Char) : Option Nat :=
  let point := character.toNat
  let value :=
    if 48 ≤ point ∧ point ≤ 57 then point - 48
    else if 65 ≤ point ∧ point ≤ 70 then point - 55
    else if 97 ≤ point ∧ point ≤ 102 then point - 87
    else base
  if value < base then some value else none

/-- The number that digits of a base stand for, which is zero if there are none. -/
def value? (base : Nat) (digits : List Char) : Option Nat :=
  digits.foldlM (fun total digit => (digitValue? base digit).map (total * base + ·)) 0

/-- The number of a numeral that says its base. -/
def read? (numeral : List Char) : Option Nat :=
  match numeral with
  | [] => none
  | '0' :: 'x' :: digits => if digits.isEmpty then none else value? 16 digits
  | '0' :: 'X' :: digits => if digits.isEmpty then none else value? 16 digits
  | '0' :: digits => value? 8 digits
  | digits => value? 10 digits

end SwarmManager.Numeral

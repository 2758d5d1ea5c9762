import LineTemplate.Fault

/-!
# Numerals of widths

Widths are unsigned 64-bit numbers: an optional plus sign and decimal digits. Digits are read
from left to right, and the first difficulty decides: a character that is no digit, or a value
that no longer fits.
-/
namespace LineTemplate.Numeral

/-- The first number that does not fit. -/
def limit : Nat := 0x10000000000000000

def digit? (c : Char) : Option Nat :=
  if '0' ≤ c ∧ c ≤ '9' then some (c.toNat - '0'.toNat) else none

/-- Continues the number read so far with the digits of a text. -/
def readDigits (value : Nat) : Text → Except NumeralFault Nat
  | [] => .ok value
  | c :: rest =>
    match digit? c with
    | none => .error .badDigit
    | some d => if 10 * value + d < limit then readDigits (10 * value + d) rest else .error .tooLarge

def read : Text → Except NumeralFault Nat
  | [] => .error .empty
  | ['+'] => .error .badDigit
  | '+' :: digits => readDigits 0 digits
  | digits => readDigits 0 digits

end LineTemplate.Numeral

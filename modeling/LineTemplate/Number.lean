import LineTemplate.Number.Shortest
import LineTemplate.Numeral

/-!
# Numbers of tag files

A numeral without fraction and exponent that fits 64 bits is a whole number; every other numeral
is a binary64 magnitude with a sign. Numerals are read with limited care: the digits are cut to
as many as fit 64 bits, and the number they make is multiplied or divided by a power of ten, with
a rounding at each step.

Whole numbers are written in decimal. A magnitude is written with its shortest digits, always
with a point and a digit behind it, from 0.00001 up to 10 ^ 16; smaller and larger ones get an
exponent with a sign.
-/
namespace LineTemplate

/-- A number of a tag file. -/
inductive Number where
  | whole (value : Int)
  | real (negative : Bool) (magnitude : Binary64)
  deriving DecidableEq, Repr

namespace Number

/-- A numeral as it is spelled: sign, digits, digits behind the point, sign and digits of the
exponent. -/
structure Literal where
  negative : Bool
  digits : Text
  fraction : Option Text
  exponent : Option (Bool × Text)
  deriving DecidableEq, Repr

/-- Appends digits to a number while it stays below a limit; the digits left over are returned. -/
def absorb (limit value : Nat) : Text → Nat × Text
  | [] => (value, [])
  | c :: rest =>
    let next := 10 * value + (c.toNat - '0'.toNat)
    if next < limit then absorb limit next rest else (value, c :: rest)

/-- The greatest power of ten that is a magnitude. -/
def maxPowerOfTen : Nat := 308

/-- The magnitude nearest to `10 ^ n`. -/
def powerOfTen? (n : Nat) : Option Binary64 :=
  if n ≤ maxPowerOfTen then Binary64.ofNat? (Nat.pow 10 n) else none

def divideByTen? (x : Binary64) (n : Nat) : Option Binary64 := (powerOfTen? n).bind x.div?

/-- Divides by the greatest power of ten so many times, unless nothing is left before, and then
by the power of ten of `rest`. -/
def shrink (rest : Nat) : Nat → Binary64 → Option Binary64
  | 0, x => divideByTen? x rest
  | times + 1, x =>
    if x.mantissa = 0 then some x else (divideByTen? x maxPowerOfTen).bind (shrink rest times)

/-- The magnitude `significand * 10 ^ exponent`, rounded at each step; there is none if it is too
large. -/
def scaleByTen? (significand : Nat) (exponent : Int) : Option Binary64 :=
  match Binary64.ofNat? significand with
  | none => none
  | some x =>
    if exponent < 0 then
      let places := (-exponent).toNat
      let times := (places - 1) / maxPowerOfTen
      shrink (places - times * maxPowerOfTen) times x
    else if x.mantissa = 0 then some x
    else (powerOfTen? exponent.toNat).bind x.mul?

/-- The digits of an exponent have to make a number below this one to be told apart from
infinity. -/
def exponentLimit : Nat := 0x80000000

def magnitude? (literal : Literal) : Option Binary64 :=
  let (start, cutOff) := absorb Numeral.limit 0 literal.digits
  let (significand, passed) :=
    match literal.fraction with
    | none => (start, 0)
    | some fraction =>
      let (significand, rest) := absorb Numeral.limit start fraction
      (significand, fraction.length - rest.length)
  let power : Int := cutOff.length - passed
  match literal.exponent with
  | none => scaleByTen? significand power
  | some (negative, digits) =>
    let (written, rest) := absorb exponentLimit 0 digits
    if rest ≠ [] then
      if significand = 0 ∨ negative then some .zero else none
    else scaleByTen? significand (if negative then power - written else power + written)

def ofLiteral? (literal : Literal) : Option Number :=
  let (value, rest) := absorb Numeral.limit 0 literal.digits
  let isWhole := literal.fraction.isNone ∧ literal.exponent.isNone ∧ rest = []
  if isWhole ∧ literal.negative = false then some (.whole value)
  else if isWhole ∧ literal.negative ∧ 0 < value ∧ value ≤ Numeral.limit / 2 then
    some (.whole (-value))
  else (magnitude? literal).map (.real literal.negative)

/-- Where a magnitude is written without an exponent: the least and greatest number of digits in
front of the point, counted backwards behind it. -/
def positional : Int × Int := (-4, 16)

/-- The text of a decimal number, its digits having no zeros at the end. -/
def decimalText (x : Decimal) : Text :=
  let digits := Text.ofNat x.digits
  let point := x.power + digits.length
  if positional.1 ≤ point ∧ point ≤ positional.2 then
    if point ≤ 0 then "0.".toList ++ List.replicate (-point).toNat '0' ++ digits
    else if 0 ≤ x.power then digits ++ List.replicate x.power.toNat '0' ++ ".0".toList
    else digits.take point.toNat ++ '.' :: digits.drop point.toNat
  else
    let mantissa :=
      match digits with
      | first :: second :: rest => first :: '.' :: second :: rest
      | digits => digits
    let exponent := point - 1
    mantissa ++ (if exponent < 0 then "e-".toList else "e+".toList)
      ++ Text.ofNat exponent.natAbs

def text : Number → Text
  | whole value => (if value < 0 then ['-'] else []) ++ Text.ofNat value.natAbs
  | real negative x =>
    (if negative then ['-'] else [])
      ++ if x.mantissa = 0 then "0.0".toList else decimalText (Decimal.shortest x)

end Number

end LineTemplate

/-!
# Binary floating point with 53 bits

Magnitudes `mantissa * 2 ^ exponent` of the binary64 format, with a mantissa below `2 ^ 53` and
an exponent from -1074 to 971. Every operation is the exact quotient of two naturals rounded to
the nearest magnitude, ties to the even mantissa; a quotient beyond the largest magnitude has no
result.
-/
namespace LineTemplate

/-- The magnitude `mantissa * 2 ^ exponent`. -/
structure Binary64 where
  mantissa : Nat
  exponent : Int
  deriving DecidableEq, Repr

namespace Binary64

def mantissaLimit : Nat := 0x20000000000000

def minExponent : Int := -1074

def maxExponent : Int := 971

def zero : Binary64 := ⟨0, minExponent⟩

/-- Two naturals whose quotient is `num / den / 2 ^ exponent`. -/
def scale (num den : Nat) (exponent : Int) : Nat × Nat :=
  if 0 ≤ exponent then (num, den <<< exponent.toNat) else (num <<< (-exponent).toNat, den)

/-- The natural nearest to a quotient, and the even one of two that are equally near. -/
def roundQuotient (num den : Nat) : Nat :=
  let q := num / den
  let twice := 2 * (num % den)
  if twice < den then q
  else if den < twice then q + 1
  else if q % 2 = 0 then q else q + 1

/-- The exponent at which the quotient of two naturals has a mantissa of 53 bits, or the least
exponent for quotients too small for that. -/
def exponentOf (num den : Nat) : Int :=
  let least := max ((num.log2 : Int) - den.log2 - 53) minExponent
  let (n, d) := scale num den least
  if n / d < mantissaLimit then least else least + 1

/-- The magnitude nearest to the quotient of two naturals. -/
def ofQuotient? (num den : Nat) : Option Binary64 :=
  let exponent := exponentOf num den
  let (n, d) := scale num den exponent
  let m := roundQuotient n d
  let (m, exponent) := if m = mantissaLimit then (m / 2, exponent + 1) else (m, exponent)
  if m = 0 then some zero else if exponent ≤ maxExponent then some ⟨m, exponent⟩ else none

def ofNat? (n : Nat) : Option Binary64 := ofQuotient? n 1

def mul? (a b : Binary64) : Option Binary64 :=
  let (n, d) := scale (a.mantissa * b.mantissa) 1 (-(a.exponent + b.exponent))
  ofQuotient? n d

/-- The rounded quotient by a magnitude other than zero. -/
def div? (a b : Binary64) : Option Binary64 :=
  let (n, d) := scale a.mantissa b.mantissa (b.exponent - a.exponent)
  ofQuotient? n d

end Binary64

end LineTemplate

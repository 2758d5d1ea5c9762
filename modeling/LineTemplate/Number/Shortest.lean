import LineTemplate.Number.Binary64

/-!
# Shortest decimal digits

A magnitude other than zero is written with the fewest decimal digits that read back as it. The
reals that round to a magnitude form an interval around it, whose ends belong to it when the
mantissa is even. Digits are tried on grids of 1, 2, up to 17 digits: on the first grid with a
point in the interval the point nearest to the magnitude is taken, and the even one of two that
are equally near.
-/
namespace LineTemplate

/-- The decimal number `digits * 10 ^ power`. -/
structure Decimal where
  digits : Nat
  power : Int
  deriving DecidableEq, Repr

namespace Decimal

def digitCount (n : Nat) : Nat := (Nat.toDigits 10 n).length

def strip (fuel digits : Nat) (power : Int) : Decimal :=
  match fuel with
  | 0 => ⟨digits, power⟩
  | fuel + 1 => if digits % 10 = 0 then strip fuel (digits / 10) (power + 1) else ⟨digits, power⟩

/-- Whether a magnitude is at least `10 ^ power`. -/
def reaches (x : Binary64) (power : Int) : Bool :=
  let (n, d) := Binary64.scale x.mantissa 1 (-x.exponent)
  if 0 ≤ power then d * Nat.pow 10 power.toNat ≤ n else d ≤ n * Nat.pow 10 (-power).toNat

/-- The decimal exponent of a magnitude other than zero: the number of digits in front of the
point, counted backwards behind it. The logarithm of two, 0.30103, gives the power of ten below
the leading bit, and there may be one more below the magnitude. -/
def exponentOf (x : Binary64) : Int :=
  let power := (x.mantissa.log2 + x.exponent) * 30103 / 100000
  if reaches x (power + 1) then power + 2 else power + 1

/-- The interval of numbers that round to a magnitude, in quarters of its last place: the lower
end, the magnitude itself, the upper end. -/
def interval (x : Binary64) : Nat × Nat × Nat :=
  let m := 4 * x.mantissa
  let below := if 2 * x.mantissa = Binary64.mantissaLimit ∧ Binary64.minExponent < x.exponent then 1 else 2
  (m - below, m, m + 2)

/-- The point of the grid of multiples of `10 ^ power` that stands for a magnitude, if one lies
in the interval of the magnitude. -/
def onGrid? (x : Binary64) (power : Int) : Option Nat :=
  let (lower, middle, upper) := interval x
  -- the last place in quarters, over the width of the grid
  let (n, d) :=
    let (n, d) := Binary64.scale 1 1 (2 - x.exponent)
    if 0 ≤ power then (n, d * Nat.pow 10 power.toNat) else (n * Nat.pow 10 (-power).toNat, d)
  let inside := fun point =>
    if x.mantissa % 2 = 0 then lower * n ≤ point * d ∧ point * d ≤ upper * n
    else lower * n < point * d ∧ point * d < upper * n
  let floor := middle * n / d
  let ceiling := floor + 1
  if inside floor ∧ inside ceiling then
    some (Binary64.roundQuotient (middle * n) d)
  else if inside floor then some floor
  else if inside ceiling then some ceiling
  else none

/-- The shortest decimal number that reads back as a magnitude other than zero. -/
def shortest (x : Binary64) : Decimal :=
  let exponent := exponentOf x
  let grids := (List.range 17).map fun i : Nat => exponent - (i + 1 : Nat)
  match grids.findSome? fun power => (onGrid? x power).map (·, power) with
  | some (digits, power) => strip (digitCount digits) digits power
  | none => ⟨0, 0⟩

end Decimal

end LineTemplate

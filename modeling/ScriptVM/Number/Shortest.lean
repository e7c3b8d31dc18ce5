import ScriptVM.Number.Binary

/-!
# The shortest decimal that reads back

The decimals that round to a positive double `v` form an interval around it,
closed exactly when the significand of `v` is even. `shortest` is a decimal with
the fewest digits in that interval and, among those, one nearest to `v`; a tie
goes to the larger one.
-/

namespace ScriptVM
namespace Number

/-- The decimal `digits * 10 ^ exponent`. -/
structure Decimal where
  digits : Nat
  exponent : Int
  deriving DecidableEq, Repr

/-- Number of decimal digits of a natural number, one for zero. -/
def decimalLength (n : Nat) : Nat :=
  if n < 10 then 1 else decimalLength (n / 10) + 1
  termination_by n
  decreasing_by omega

/-- The least `p` such that the positive fraction is below `10 ^ p`. -/
def decimalPoint (numerator denominator : Nat) : Int :=
  if denominator <= numerator then
    decimalLength (numerator / denominator)
  else
    1 - (decimalLength ((denominator - 1) / numerator) : Int)

/-- A value and the ends of its rounding interval over one denominator. -/
structure RoundingInterval where
  value : Nat
  low : Nat
  high : Nat
  denominator : Nat
  closed : Bool

namespace RoundingInterval

/-- The interval of reals that round to a positive magnitude. Below a power of
two the neighbouring double is half as far away as above it. -/
def ofMagnitude (magnitude : Magnitude) : RoundingInterval :=
  let exponent := magnitude.exponent - 2
  let scale := 1 <<< exponent.toNat
  let below :=
    if magnitude.significand == 0x10000000000000 && -1074 < magnitude.exponent
    then 1 else 2
  { value := 4 * magnitude.significand * scale
    low := (4 * magnitude.significand - below) * scale
    high := (4 * magnitude.significand + 2) * scale
    denominator := 1 <<< (-exponent).toNat
    closed := magnitude.significand % 2 == 0 }

/-- The fraction `numerator / denominator` lies in the interval. -/
def contains (interval : RoundingInterval) (numerator denominator : Nat) : Bool :=
  let low := interval.low * denominator
  let high := interval.high * denominator
  let point := numerator * interval.denominator
  if interval.closed then
    decide (low <= point) && decide (point <= high)
  else
    decide (low < point) && decide (point < high)

/-- The nearest multiple of `10 ^ exponent` next to the value that lies in the
interval, if one of the two neighbours does. -/
def onGrid? (interval : RoundingInterval) (exponent : Int) : Option Decimal :=
  let up := Nat.pow 10 exponent.toNat
  let down := Nat.pow 10 (-exponent).toNat
  let below := interval.value * down / (interval.denominator * up)
  let belowInside := interval.contains (below * up) down
  let aboveInside := interval.contains ((below + 1) * up) down
  let aboveNearer :=
    decide ((2 * below + 1) * interval.denominator * up <= 2 * interval.value * down)
  if belowInside && !(aboveInside && aboveNearer) then
    some { digits := below, exponent }
  else if aboveInside then
    some { digits := below + 1, exponent }
  else
    none

end RoundingInterval

namespace Decimal

/-- Drop trailing zeros of the digits into the exponent. -/
def normalize (decimal : Decimal) : Decimal :=
  if 10 <= decimal.digits ∧ decimal.digits % 10 = 0 then
    normalize { digits := decimal.digits / 10, exponent := decimal.exponent + 1 }
  else
    decimal
  termination_by decimal.digits
  decreasing_by omega

end Decimal

/-- The first of the grids with `count`, `count + 1`, … digits that has a point
in the interval. -/
def shortestFrom (interval : RoundingInterval) (point : Int) : Nat -> Nat -> Decimal
  | 0, count =>
      (interval.onGrid? (point - count)).getD { digits := 0, exponent := 0 }
  | remaining + 1, count =>
      match interval.onGrid? (point - count) with
      | some decimal => decimal
      | none => shortestFrom interval point remaining (count + 1)

/-- The shortest decimal that reads back as the magnitude of a finite nonzero
double. Seventeen digits always suffice. -/
def shortest (number : Float) : Decimal :=
  let interval := RoundingInterval.ofMagnitude (magnitude number)
  let point := decimalPoint interval.value interval.denominator
  (shortestFrom interval point 16 1).normalize

end Number
end ScriptVM

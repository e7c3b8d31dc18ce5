/-!
# The double nearest to a fraction

A fraction is rounded to the nearest double; of two equally near ones the one with
the even significand is taken. Fractions too large for a double round to infinity,
those up to half the least positive double to zero.
-/

namespace ScriptVM
namespace Number

/-- The quotient rounded to the nearest natural number, a half to the even one. -/
def divideToEven (numerator denominator : Nat) : Nat :=
  let quotient := numerator / denominator
  let twice := 2 * (numerator % denominator)
  if twice < denominator || (twice == denominator && quotient % 2 == 0) then
    quotient
  else
    quotient + 1

/-- A natural number rounded to fifty-three significant bits. -/
def roundToSignificand (n : Nat) : Nat :=
  let unit := 1 <<< (n.log2 - 52)
  divideToEven n unit * unit

/-- The exponent at which a positive fraction has a significand of fifty-three
bits, but never below that of the least positive double. -/
def binaryExponent (numerator denominator : Nat) : Int :=
  let estimate := (numerator.log2 : Int) - denominator.log2 - 53
  let fits :=
    numerator <<< (-estimate).toNat <
      (denominator <<< estimate.toNat) <<< 53
  max (if fits then estimate else estimate + 1) (-1074)

/-- The double nearest to a fraction. The exponent and fraction bits of a double are
read as one number, so that a significand rounded up to a power of two carries into
the exponent. -/
def ofFraction (numerator denominator : Nat) : Float :=
  if numerator == 0 then 0
  else
    let exponent := binaryExponent numerator denominator
    let significand :=
      divideToEven (numerator <<< (-exponent).toNat)
        (denominator <<< exponent.toNat)
    let fields := ((exponent + 1074).toNat <<< 52) + significand
    Float.ofBits (UInt64.ofNat (min fields 0x7FF0000000000000))

end Number
end ScriptVM

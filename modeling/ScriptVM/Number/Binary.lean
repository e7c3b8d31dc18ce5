import ScriptVM.Number.Nearest

/-!
# Finite doubles as exact integers times powers of two

A finite double has an exact magnitude `significand * 2 ^ exponent`. Everything
that must not round, such as truncation to a 32-bit word, the remainder and the
choice of decimal digits, is computed on this form.
-/

namespace ScriptVM
namespace Number

/-- The exact magnitude `significand * 2 ^ exponent` of a finite double. -/
structure Magnitude where
  significand : Nat
  exponent : Int
  deriving DecidableEq, Repr

namespace Magnitude

/-- The integral part of a magnitude. -/
def floor (magnitude : Magnitude) : Nat :=
  if 0 <= magnitude.exponent then
    magnitude.significand <<< magnitude.exponent.toNat
  else
    magnitude.significand >>> (-magnitude.exponent).toNat

/-- The magnitude has no fractional part. -/
def isIntegral (magnitude : Magnitude) : Bool :=
  0 <= magnitude.exponent ||
    magnitude.significand % (1 <<< (-magnitude.exponent).toNat) == 0

end Magnitude

/-- The sign bit of a double, set for negative zero too. -/
def isNegative (number : Float) : Bool :=
  number.toBits >>> 63 == 1

/-- The eleven exponent bits of a double. -/
def exponentField (number : Float) : Nat :=
  ((number.toBits >>> 52) &&& 0x7FF).toNat

/-- The fifty-two fraction bits of a double. -/
def fractionField (number : Float) : Nat :=
  (number.toBits &&& 0xFFFFFFFFFFFFF).toNat

/-- The magnitude of a finite double; the sign is dropped. -/
def magnitude (number : Float) : Magnitude :=
  if exponentField number == 0 then
    { significand := fractionField number, exponent := -1074 }
  else
    { significand := fractionField number + 0x10000000000000
      exponent := (exponentField number : Int) - 1075 }

/-- The integer that a finite double truncates to, zero for the others. -/
def truncate (number : Float) : Int :=
  if number.isFinite then
    if isNegative number then
      -(magnitude number).floor
    else
      (magnitude number).floor
  else
    0

/-- The number is finite and has no fractional part. -/
def isIntegral (number : Float) : Bool :=
  number.isFinite && (magnitude number).isIntegral

/-- Truncate and wrap modulo `2 ^ 32`; infinities and not-a-number give zero. -/
def toWord (number : Float) : Nat :=
  (truncate number % 4294967296).toNat

/-- Truncate and wrap into the signed 32-bit range. -/
def toSignedWord (number : Float) : Int :=
  let word := toWord number
  if word < 2147483648 then word else (word : Int) - 4294967296

/-- The remainder of a division that truncates; the sign is the dividend's. -/
def remainder (dividend divisor : Float) : Float :=
  if dividend.isFinite && !divisor.isNaN && divisor != 0 then
    if divisor.isInf || dividend == 0 then
      dividend
    else
      let left := magnitude dividend
      let right := magnitude divisor
      let exponent := min left.exponent right.exponent
      let rest :=
        (left.significand <<< (left.exponent - exponent).toNat) %
          (right.significand <<< (right.exponent - exponent).toNat)
      let size := ofFraction (rest <<< exponent.toNat) (1 <<< (-exponent).toNat)
      if isNegative dividend then -size else size
  else
    0.0 / 0.0

end Number
end ScriptVM

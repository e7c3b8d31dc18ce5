import ScriptVM.Number.Shortest

/-!
# The text of a number

A number is written with its shortest digits. Up to twenty-one integral digits
and down to six leading zeros the notation is positional; beyond that it is
scientific, with a signed exponent.
-/

namespace ScriptVM
namespace Number

/-- The decimal digits of a natural number, most significant first. -/
def digitChars (n : Nat) : List Char :=
  Nat.toDigits 10 n

namespace Decimal

/-- Position of the decimal point relative to the first digit. -/
def point (decimal : Decimal) : Int :=
  (digitChars decimal.digits).length + decimal.exponent

/-- Positional notation with as many zeros as it takes. -/
def positional (decimal : Decimal) : List Char :=
  let digits := digitChars decimal.digits
  let point := decimal.point
  if digits.length <= point then
    digits ++ List.replicate (point - digits.length).toNat '0'
  else if 0 < point then
    digits.take point.toNat ++ '.' :: digits.drop point.toNat
  else
    '0' :: '.' :: (List.replicate (-point).toNat '0' ++ digits)

/-- Scientific notation: one digit before the point and a signed exponent. -/
def scientific (decimal : Decimal) : List Char :=
  let exponent := decimal.point - 1
  let sign := if 0 <= exponent then '+' else '-'
  let power := 'e' :: sign :: digitChars exponent.natAbs
  match digitChars decimal.digits with
  | [] => power
  | [digit] => digit :: power
  | digit :: rest => digit :: '.' :: (rest ++ power)

/-- Positional notation from `1e-6` up to twenty-one integral digits, scientific
notation outside. -/
def layout (decimal : Decimal) : List Char :=
  if -6 < decimal.point && decimal.point <= 21 then
    decimal.positional
  else
    decimal.scientific

end Decimal

/-- Write a sign before the rendering of a finite nonzero double's digits. -/
def signed (number : Float) (render : Decimal -> List Char) : String :=
  let digits := render (shortest number)
  String.ofList (if isNegative number then '-' :: digits else digits)

/-- The text that a script sees for a number. Both zeros are written `0`. -/
def toText (number : Float) : String :=
  if number.isNaN then "NaN"
  else if number == 0 then "0"
  else if number.isInf then
    if 0 < number then "Infinity" else "-Infinity"
  else signed number Decimal.layout

/-- As `toText`, with negative zero kept apart. -/
def toSignedText (number : Float) : String :=
  if number == 0 && isNegative number then "-0" else toText number

/-- The diagnostic text of a number: always positional, with a signed zero. -/
def toPlainText (number : Float) : String :=
  if number.isNaN then "NaN"
  else if number == 0 then
    if isNegative number then "-0" else "0"
  else if number.isInf then
    if 0 < number then "inf" else "-inf"
  else signed number Decimal.positional

end Number
end ScriptVM

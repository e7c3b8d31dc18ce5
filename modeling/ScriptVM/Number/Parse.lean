import ScriptVM.Number.Shortest
import ScriptVM.Text.Blank

/-!
# Reading a number from text

Blank characters at both ends are dropped. What is left is empty, an infinity, an
unsigned literal in radix sixteen, eight or two, or a decimal literal; any other
text is not a number.
-/

namespace ScriptVM
namespace Number

/-- The value of a digit in a radix up to sixteen. -/
def digitValue? (radix : Nat) (c : Char) : Option Nat :=
  let code := c.toNat
  let value :=
    if 48 <= code && code <= 57 then some (code - 48)
    else if 97 <= code && code <= 102 then some (code - 87)
    else if 65 <= code && code <= 70 then some (code - 55)
    else none
  value.filter (· < radix)

/-- Read digits in a radix, rounding to the precision of a double after each. -/
def radixValue? (radix : Nat) (digits : List Char) : Option Nat :=
  digits.foldlM
    (fun value c => do
      let digit <- digitValue? radix c
      return roundToSignificand (value * radix + digit))
    0

/-- The value of a list of decimal digits. -/
def digitsValue (digits : List Char) : Nat :=
  digits.foldl (fun value c => 10 * value + (c.toNat - 48)) 0

/-- Read an exponent part: nothing, or a mark, an optional sign and digits. -/
def exponent? : List Char -> Option Int
  | [] => some 0
  | mark :: rest =>
      if mark == 'e' || mark == 'E' then
        let (negative, digits) :=
          match rest with
          | '-' :: digits => (true, digits)
          | '+' :: digits => (false, digits)
          | digits => (false, digits)
        if digits.isEmpty || !digits.all Char.isDigit then none
        else if negative then some (-(digitsValue digits : Int))
        else some (digitsValue digits)
      else none

/-- Read an unsigned decimal literal: digits with an optional point, at least one
digit in all, then an exponent part. -/
def unsignedDecimal? (text : List Char) : Option Decimal := do
  let whole := text.takeWhile Char.isDigit
  let afterWhole := text.dropWhile Char.isDigit
  let (fraction, afterFraction) :=
    match afterWhole with
    | '.' :: rest => (rest.takeWhile Char.isDigit, rest.dropWhile Char.isDigit)
    | rest => ([], rest)
  if whole.isEmpty && fraction.isEmpty then none
  else
    let exponent <- exponent? afterFraction
    return {
      digits := digitsValue (whole ++ fraction)
      exponent := exponent - fraction.length }

/-- The double nearest to a decimal. Decimals far outside the range of doubles are
answered at once. -/
def Decimal.toFloat (decimal : Decimal) : Float :=
  let size : Int := decimalLength decimal.digits + decimal.exponent
  if decimal.digits == 0 || decide (size < -400) then 0
  else if 400 < size then 1.0 / 0.0
  else
    ofFraction (decimal.digits * Nat.pow 10 decimal.exponent.toNat)
      (Nat.pow 10 (-decimal.exponent).toNat)

/-- Read a decimal literal with an optional sign. -/
def signedDecimal? : List Char -> Option Float
  | '-' :: rest => (unsignedDecimal? rest).map fun decimal => -decimal.toFloat
  | '+' :: rest => (unsignedDecimal? rest).map Decimal.toFloat
  | text => (unsignedDecimal? text).map Decimal.toFloat

/-- The radix that a letter after a leading zero announces. -/
def radixOfMark? (mark : Char) : Option Nat :=
  if mark == 'x' || mark == 'X' then some 16
  else if mark == 'o' || mark == 'O' then some 8
  else if mark == 'b' || mark == 'B' then some 2
  else none

/-- Read a literal without surrounding blanks; the empty one is zero. -/
def literal? (text : List Char) : Option Float :=
  if text == [] then some 0
  else if text == "Infinity".toList || text == "+Infinity".toList then
    some (1.0 / 0.0)
  else if text == "-Infinity".toList then some (-1.0 / 0.0)
  else
    match text with
    | '0' :: mark :: body =>
        match radixOfMark? mark with
        | some radix =>
            if body.isEmpty then none
            else (radixValue? radix body).map (ofFraction · 1)
        | none => signedDecimal? text
    | _ => signedDecimal? text

/-- The number that a text denotes, not-a-number if it denotes none. -/
def ofText (text : String) : Float :=
  (literal? (Text.trimBlank text.toList)).getD (0.0 / 0.0)

end Number
end ScriptVM

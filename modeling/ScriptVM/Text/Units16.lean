/-!
# Sixteen-bit units

The length, the elements and the order of a string count in sixteen-bit units: a
character beyond the basic plane is two of them. A half of such a pair cannot
stand alone as a character and reads as the replacement character.
-/

namespace ScriptVM
namespace Text

/-- The units of a character. -/
def unitsOfChar (c : Char) : List Nat :=
  let code := c.toNat
  if code < 0x10000 then [code]
  else
    let rest := code - 0x10000
    [0xD800 + rest / 0x400, 0xDC00 + rest % 0x400]

/-- The units of a string. -/
def units16 (text : String) : List Nat :=
  text.toList.flatMap unitsOfChar

/-- Number of units of a string. -/
def length16 (text : String) : Nat :=
  text.foldl (fun count c => if c.toNat < 0x10000 then count + 1 else count + 2) 0

/-- The string of a single unit. -/
def ofUnit (unit : Nat) : String :=
  if 0xD800 <= unit && unit < 0xE000 then "\uFFFD"
  else String.singleton (Char.ofNat unit)

/-- The unit at an index, as a string. -/
def unitAt? (text : String) (index : Nat) : Option String :=
  ((units16 text)[index]?).map ofUnit

/-- The order of strings unit by unit. -/
def less16 (left right : String) : Bool :=
  decide (units16 left < units16 right)

end Text
end ScriptVM

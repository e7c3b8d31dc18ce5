/-!
# Blank characters

The characters that may surround a numeric literal: those with the Unicode
property `White_Space`, and the byte order mark.
-/

namespace ScriptVM
namespace Text

/-- The character has the Unicode property `White_Space`. -/
def isWhiteSpace (c : Char) : Bool :=
  let code := c.toNat
  (0x09 <= code && code <= 0x0D) || code == 0x20 || code == 0x85 ||
    code == 0xA0 || code == 0x1680 || (0x2000 <= code && code <= 0x200A) ||
    code == 0x2028 || code == 0x2029 || code == 0x202F || code == 0x205F ||
    code == 0x3000

/-- White space or the byte order mark. -/
def isBlank (c : Char) : Bool :=
  isWhiteSpace c || c.toNat == 0xFEFF

/-- Drop blank characters at both ends. -/
def trimBlank (text : List Char) : List Char :=
  ((text.dropWhile isBlank).reverse.dropWhile isBlank).reverse

end Text
end ScriptVM

import ScriptVM.Value
import ScriptVM.Number.Parse

/-!
# Property keys

A property is named by a string or a symbol. An array index is named by its
canonical decimal text, and only by that.
-/

namespace ScriptVM

/-- The name of a property. -/
inductive PropertyKey
  | string (name : String)
  | symbol (id : SymbolId)
  deriving DecidableEq, Hashable, Inhabited

namespace PropertyKey

instance : Coe String PropertyKey where
  coe := string

/-- Array indices stay below this bound. -/
def indexBound : Nat := 4294967295

/-- The key of an array element. -/
def index (n : Nat) : PropertyKey :=
  string (String.ofList (Number.digitChars n))

/-- Read a canonical decimal text: digits only, and no leading zero unless it is
the only digit. -/
def canonicalIndex? (text : List Char) : Option Nat :=
  if text.isEmpty || !text.all Char.isDigit then none
  else if text.length != 1 && text.head? == some '0' then none
  else
    let value := Number.digitsValue text
    if value < indexBound then some value else none

/-- The array index that a key names, if it is the canonical text of one. -/
def arrayIndex? : PropertyKey -> Option Nat
  | string name =>
      if name.utf8ByteSize <= 10 then canonicalIndex? name.toList else none
  | symbol _ => none

/-- The key as a script value. -/
def toValue : PropertyKey -> Value
  | string name => .string name
  | symbol id => .symbol id

/-- The key is a symbol. -/
def isSymbol : PropertyKey -> Bool
  | string _ => false
  | symbol _ => true

/-- The key as it appears in messages. -/
def text : PropertyKey -> String
  | string name => name
  | symbol id => "Symbol(" ++ toString id.index ++ ")"

end PropertyKey
end ScriptVM

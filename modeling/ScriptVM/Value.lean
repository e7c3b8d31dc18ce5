import ScriptVM.Number.Text
import ScriptVM.Text.Quoted

/-!
# Script values

Primitives are stored in the value itself; objects and functions are handles
into the heap. A callable object is always named by the `function` form, so
`typeof` and callability never consult the heap.
-/

namespace ScriptVM

/-- Handle of an object in the heap. -/
structure ObjectId where
  index : Nat
  deriving DecidableEq, Hashable, Repr

/-- Identity of a symbol; descriptions live in the machine's symbol table. -/
structure SymbolId where
  index : Nat
  deriving DecidableEq, Hashable, Repr

/-- Any value a script can hold, and the internal `hole`. -/
inductive Value
  | undefined
  | null
  | boolean (value : Bool)
  | number (value : Float)
  | string (value : String)
  | symbol (id : SymbolId)
  /-- An object that cannot be called. -/
  | object (id : ObjectId)
  /-- An object that can be called. -/
  | function (id : ObjectId)
  /-- An uninitialised binding or a missing array element. -/
  | hole
  deriving DecidableEq, Inhabited

namespace Value

/-- The value of a count, length or index. -/
def ofNat (n : Nat) : Value :=
  number (Float.ofNat n)

/-- The value of a signed integer. -/
def ofInt (n : Int) : Value :=
  number (Float.ofInt n)

/-- The boolean that a condition sees. -/
def isTruthy : Value -> Bool
  | undefined | null | hole => false
  | boolean value => value
  | number value => value != 0 && !value.isNaN
  | string value => value != ""
  | symbol _ | object _ | function _ => true

/-- The answer of the `typeof` operator. -/
def typeOf : Value -> String
  | undefined | hole => "undefined"
  | null => "object"
  | boolean _ => "boolean"
  | number _ => "number"
  | string _ => "string"
  | symbol _ => "symbol"
  | object _ => "object"
  | function _ => "function"

/-- The value is undefined or null. -/
def isNullish : Value -> Bool
  | undefined | null => true
  | _ => false

/-- The value is undefined. -/
def isUndefined : Value -> Bool
  | undefined => true
  | _ => false

/-- The value is a hole. -/
def isHole : Value -> Bool
  | hole => true
  | _ => false

/-- The handle of an object or function. -/
def objectId? : Value -> Option ObjectId
  | object id | function id => some id
  | _ => none

/-- The value is an object or a function. -/
def isObject (value : Value) : Bool :=
  value.objectId?.isSome

/-- The value is a function. -/
def isCallable : Value -> Bool
  | function _ => true
  | _ => false

/-- The number a value holds. -/
def number? : Value -> Option Float
  | number value => some value
  | _ => none

/-- The string a value holds. -/
def string? : Value -> Option String
  | string value => some value
  | _ => none

/-- Strict equality: numbers compare by value, so not-a-number differs from
itself; a hole equals a hole. -/
def strictlyEquals : Value -> Value -> Bool
  | undefined, undefined => true
  | null, null => true
  | hole, hole => true
  | boolean left, boolean right => left == right
  | number left, number right => left == right
  | string left, string right => left == right
  | symbol left, symbol right => left == right
  | object left, object right => left == right
  | function left, function right => left == right
  | _, _ => false

/-- Sameness: not-a-number is itself and the two zeros differ. -/
def same : Value -> Value -> Bool
  | number left, number right =>
      (left.isNaN && right.isNaN) ||
        (left == right && Number.isNegative left == Number.isNegative right)
  | left, right => left.strictlyEquals right

/-- The plain text of a value, which never looks into the heap. -/
def text : Value -> String
  | undefined | hole => "undefined"
  | null => "null"
  | boolean value => if value then "true" else "false"
  | number value => Number.toText value
  | string value => value
  | symbol _ => "Symbol()"
  | object _ => "[object Object]"
  | function _ => "function () \x7b [native code] \x7d"

/-- The diagnostic text of a value: its form and its content. -/
def diagnostic : Value -> String
  | undefined => "Undefined"
  | null => "Null"
  | boolean value => "Boolean(" ++ (if value then "true" else "false") ++ ")"
  | number value => "Number(" ++ Number.toPlainText value ++ ")"
  | string value => "String(" ++ Text.quote value ++ ")"
  | symbol id => "Symbol(" ++ toString id.index ++ ")"
  | object id => "Object(" ++ toString id.index ++ ")"
  | function id => "Function(" ++ toString id.index ++ ")"
  | hole => "Hole"

end Value
end ScriptVM

import ScriptVM.Machine.Reading
import ScriptVM.Machine.Symbols

/-!
# Conversions

How values turn into primitives, numbers, texts and property keys. Only an object
runs a script on the way, in the methods that give its primitive; what follows is
a function of that primitive.
-/

namespace ScriptVM

namespace Value

/-- The number of a value that is not an object. -/
def primitiveNumber : Value -> Except Exception Float
  | undefined | hole => .ok (0.0 / 0.0)
  | null => .ok 0
  | boolean value => .ok (if value then 1 else 0)
  | number value => .ok value
  | string value => .ok (Number.ofText value)
  | symbol _ => .error (.typeError "Cannot convert a Symbol value to a number")
  | object _ | function _ =>
      .error (.typeError "Cannot convert object to primitive value")

/-- The text of a value that is not an object. -/
def primitiveText : Value -> Except Exception String
  | symbol _ => .error (.typeError "Cannot convert a Symbol value to a string")
  | value => .ok value.text

/-- The property key of a value that is not an object. -/
def primitiveKey : Value -> PropertyKey
  | symbol id => .symbol id
  | value => .string value.text

end Value

namespace Exec

variable {σ : Type}

/-- The methods that may give the primitive of an object, in the order in which
they are tried. -/
def conversionMethods : PreferredType -> List PropertyKey
  | .string => ["toString", "valueOf"]
  | .default | .number => ["valueOf", "toString"]

/-- Try methods until one gives a primitive. -/
def primitiveByMethods (value : Value) : List PropertyKey -> Exec σ Value
  | [] => raise (.typeError "Cannot convert object to primitive value")
  | key :: rest => do
      let method <- getProperty value key
      if method.isCallable then
        let result <- call method value []
        if !result.isObject then return result
      primitiveByMethods value rest

/-- The primitive of a value. An object with a conversion method of its own is
converted by it alone. -/
def toPrimitive (value : Value) (hint : PreferredType) : Exec σ Value := do
  if !value.isObject then return value
  let converter <- getProperty value (.symbol .toPrimitive)
  if converter.isNullish then primitiveByMethods value (conversionMethods hint)
  else if !converter.isCallable then
    raise (.typeError "Symbol.toPrimitive is not a function")
  else
    let result <- call converter value [.string hint.text]
    if result.isObject then
      raise (.typeError "Cannot convert object to primitive value")
    return result

/-- The number of a value. -/
def toNumber (value : Value) : Exec σ Float := do
  ofExcept (<- toPrimitive value .number).primitiveNumber

/-- The text of a value. -/
def toText (value : Value) : Exec σ String := do
  ofExcept (<- toPrimitive value .string).primitiveText

/-- The property key of a value. -/
def toPropertyKey (value : Value) : Exec σ PropertyKey := do
  return (<- toPrimitive value .string).primitiveKey

/-- The signed word of a value. -/
def toSignedWord (value : Value) : Exec σ Int := do
  return Number.toSignedWord (<- toNumber value)

/-- The unsigned word of a value. -/
def toWord (value : Value) : Exec σ Nat := do
  return Number.toWord (<- toNumber value)

/-- The length that an object shows, cut to the bound of arrays. -/
def lengthOfArrayLike (value : Value) : Exec σ Nat := do
  let length <- toNumber (<- getProperty value Machine.lengthKey)
  if length <= 0 || length.isNaN then return 0
  let bound := Float.ofNat Machine.maxArrayLength
  return (Number.truncate (if length < bound then length else bound)).toNat

end Exec
end ScriptVM

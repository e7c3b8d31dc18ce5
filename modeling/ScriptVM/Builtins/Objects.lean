import ScriptVM.Builtins.Arguments
import ScriptVM.Machine.Operators
import ScriptVM.Machine.Writing

/-!
# Built-ins of objects

The static methods that inspect and define properties, and the methods that all
objects inherit.
-/

namespace ScriptVM
namespace Builtins

open Exec

variable {σ : Type}

/-- Make a plain object, unless the argument is an object already. -/
def constructObject (arguments : List Value) (newTarget : Value) : Exec σ Value := do
  let value := argument arguments 0
  if value.isObject then return value
  let fallback <- ask fun machine => machine.intrinsics.objectPrototype
  let prototype <-
    if newTarget.isUndefined then pure fallback
    else prototypeFromConstructor newTarget fallback
  return .object (<- allocate (some prototype) .ordinary)

/-- Refuse undefined and null. -/
def requireCoercible (value : Value) : Exec σ Unit :=
  if value.isNullish then
    raise (.typeError "Cannot convert undefined or null to object")
  else pure ()

/-- The own keys of any value. A string has one index for each of its characters. -/
def ownKeysOf (value : Value) : Exec σ (List PropertyKey) := do
  requireCoercible value
  match value with
  | .object id | .function id => ask fun machine => machine.ownKeys id
  | .string text =>
      return (List.range text.length).map PropertyKey.index ++ [Machine.lengthKey]
  | _ => return []

/-- An own key of any value is enumerable. -/
def isEnumerable (machine : Machine σ) (value : Value) (key : PropertyKey) : Bool :=
  match value.objectId? with
  | some id => ((machine.getOwnProperty? id key).map Property.enumerable).getD false
  | none => key.arrayIndex?.isSome

/-- The enumerable own string keys of a value. -/
def keys (target : Value) : Exec σ Value := do
  let names := (<- ownKeysOf target).filter fun key => !key.isSymbol
  let names <- ask fun machine => names.filter (isEnumerable machine target)
  createArray (names.map PropertyKey.toValue)

/-- The own string keys of a value. -/
def getOwnPropertyNames (target : Value) : Exec σ Value := do
  let names := (<- ownKeysOf target).filter fun key => !key.isSymbol
  createArray (names.map PropertyKey.toValue)

/-- The prototype of any value. -/
def prototypeOf (target : Value) : Exec σ Value := do
  requireCoercible target
  let prototype <-
    match target.objectId? with
    | some id => getPrototypeOf id
    | none => ask fun machine => machine.primitivePrototype? target
  match prototype with
  | some id => ask fun machine => machine.objectValue id
  | none => return .null

/-- An argument that must be an object or null. -/
def prototypeArgument (value : Value) : Exec σ (Option ObjectId) := do
  match value with
  | .null => return none
  | .object id | .function id => return some id
  | _ =>
      typeError fun machine =>
        "Object prototype may only be an Object or null: " ++ machine.display value

/-- Replace the prototype of an object; other values stay as they are. -/
def setPrototype (target prototype : Value) : Exec σ Value := do
  requireCoercible target
  let prototype <- prototypeArgument prototype
  match target.objectId? with
  | none => return target
  | some id =>
      if <- Exec.setPrototypeOf id prototype then return target
      else
        typeError fun machine =>
          if machine.isExtensible id then "Cyclic __proto__ value"
          else machine.display target ++ " is not extensible"

/-- Read a field of a descriptor object, if it has one. -/
def descriptorField (id : ObjectId) (value : Value) (key : PropertyKey) :
    Exec σ (Option Value) := do
  if <- hasProperty id key then return some (<- getProperty value key) else return none

/-- A half of an accessor is undefined or a function. -/
def requireAccessor (name : String) (accessor : Option Value) : Exec σ Unit := do
  match accessor with
  | none => return ()
  | some value =>
      if !value.isUndefined && !value.isCallable then
        typeError fun machine =>
          name ++ " must be a function: " ++ machine.display value

/-- Read a descriptor object. -/
def toDescriptor (value : Value) : Exec σ Descriptor := do
  match value.objectId? with
  | none =>
      typeError fun machine =>
        "Property description must be an object: " ++ machine.display value
  | some id =>
      let enumerable <- descriptorField id value "enumerable"
      let configurable <- descriptorField id value "configurable"
      let content <- descriptorField id value "value"
      let writable <- descriptorField id value "writable"
      let getter <- descriptorField id value "get"
      let setter <- descriptorField id value "set"
      requireAccessor "Getter" getter
      requireAccessor "Setter" setter
      let descriptor : Descriptor :=
        { value := content
          writable := writable.map Value.isTruthy
          get := getter
          set := setter
          enumerable := enumerable.map Value.isTruthy
          configurable := configurable.map Value.isTruthy }
      if descriptor.isAccessor && descriptor.isData then
        raise (.typeError
          "Invalid property descriptor. Cannot both specify accessors and a value or writable attribute")
      return descriptor

/-- The fields of a descriptor in the order in which a descriptor object gets them. -/
def descriptorFields (descriptor : Descriptor) : List (String × Option Value) :=
  [ ("value", descriptor.value)
  , ("writable", descriptor.writable.map .boolean)
  , ("get", descriptor.get)
  , ("set", descriptor.set)
  , ("enumerable", descriptor.enumerable.map .boolean)
  , ("configurable", descriptor.configurable.map .boolean) ]

/-- Make a descriptor object. -/
def ofDescriptor (descriptor : Descriptor) : Exec σ Value := do
  let id <- change Machine.allocateOrdinary
  (descriptorFields descriptor).forM fun (name, field) => do
    match field with
    | some value => defineRaw id name (.plain value)
    | none => pure ()
  return .object id

/-- Define a property as a descriptor asks, or throw. -/
def defineOrThrow (id : ObjectId) (key : PropertyKey) (descriptor : Descriptor) :
    Exec σ Unit := do
  if !(<- defineOwnProperty id key descriptor) then
    typeError fun machine => "Cannot redefine property: " ++ machine.displayKey key

/-- Define a property of an object as a descriptor object asks. -/
def defineProperty (target key descriptor : Value) : Exec σ Value := do
  match target.objectId? with
  | none => raise (.typeError "Object.defineProperty called on non-object")
  | some id =>
      let key <- toPropertyKey key
      defineOrThrow id key (<- toDescriptor descriptor)
      return target

/-- The descriptor object of an own property. -/
def getOwnPropertyDescriptor (target key : Value) : Exec σ Value := do
  requireCoercible target
  let key <- toPropertyKey key
  match <- ask fun machine =>
      target.objectId?.bind fun id => machine.getOwnProperty? id key with
  | some property => ofDescriptor (.ofProperty property)
  | none => return .undefined

/-- Read the descriptor of a key, if the properties have that key and it is
enumerable. -/
def namedDescriptor? (properties : Value) (key : PropertyKey) :
    Exec σ (Option (PropertyKey × Descriptor)) := do
  let enumerable <- ask fun machine =>
    properties.isObject && isEnumerable machine properties key
  if enumerable then
    return some (key, <- toDescriptor (<- getProperty properties key))
  else return none

/-- Define properties as the descriptor objects of another object ask. All
descriptors are read before any is used. -/
def defineProperties (target : ObjectId) (properties : Value) : Exec σ Unit := do
  let descriptors <- (<- ownKeysOf properties).mapM (namedDescriptor? properties)
  (descriptors.filterMap id).forM fun (key, descriptor) =>
    defineOrThrow target key descriptor

/-- Create an object with a given prototype and properties. -/
def createWith (prototype properties : Value) : Exec σ Value := do
  let prototype <- prototypeArgument prototype
  let id <- allocate prototype .ordinary
  if !properties.isUndefined then defineProperties id properties
  return .object id

/-- Freeze an object; other values stay as they are. -/
def freeze (target : Value) : Exec σ Value := do
  match target.objectId? with
  | none => return target
  | some id =>
      if <- change fun machine => machine.freeze id then return target
      else raise (.typeError "Cannot freeze")

/-- The value cannot be changed. -/
def isFrozen (target : Value) : Exec σ Value := do
  match target.objectId? with
  | none => return .boolean true
  | some id => return .boolean (<- ask fun machine => machine.isFrozen id)

/-- A string owns an index for each of its characters. -/
def ownsIndex (text : String) (key : PropertyKey) : Bool :=
  key.arrayIndex?.any fun index => index < text.length

/-- The receiver has an own property of a key. -/
def hasOwnProperty (receiver key : Value) : Exec σ Value := do
  let key <- toPropertyKey key
  requireCoercible receiver
  match receiver with
  | .object id | .function id =>
      return .boolean (<- ask fun machine => (machine.getOwnProperty? id key).isSome)
  | .string text =>
      return .boolean (key == Machine.lengthKey || ownsIndex text key)
  | _ => return .boolean false

/-- The receiver has an own enumerable property of a key. -/
def propertyIsEnumerable (receiver key : Value) : Exec σ Value := do
  let key <- toPropertyKey key
  requireCoercible receiver
  match receiver with
  | .object _ | .function _ =>
      return .boolean (<- ask fun machine => isEnumerable machine receiver key)
  | .string text => return .boolean (ownsIndex text key)
  | _ => return .boolean false

/-- The receiver is on the prototype chain of a value. -/
def isPrototypeOf (receiver value : Value) : Exec σ Value := do
  match value.objectId? with
  | none => return .boolean false
  | some id =>
      requireCoercible receiver
      match receiver.objectId? with
      | none => return .boolean false
      | some prototype =>
          let limit <- ask fun machine => machine.config.maxPrototypeChain
          return .boolean (<- inherits prototype limit id)

/-- The tag that a value shows unless it has one of its own. -/
def defaultTag (machine : Machine σ) (value : Value) : String :=
  match value with
  | .string _ => "String"
  | .number _ => "Number"
  | .boolean _ => "Boolean"
  | .symbol _ => "Symbol"
  | .function _ => "Function"
  | value =>
      match machine.kindOf? value with
      | some .error => "Error"
      | some .arguments => "Arguments"
      | _ => if machine.isArray value then "Array" else "Object"

/-- The default text of a value. -/
def objectToString (receiver : Value) : Exec σ Value := do
  match receiver with
  | .undefined | .hole => return .string "[object Undefined]"
  | .null => return .string "[object Null]"
  | _ =>
      let fallback <- ask fun machine => defaultTag machine receiver
      let tag :=
        match <- getProperty receiver (.symbol .toStringTag) with
        | .string tag => tag
        | _ => fallback
      return .string ("[object " ++ tag ++ "]")

/-- The receiver itself. -/
def objectValueOf (receiver : Value) : Exec σ Value := do
  requireCoercible receiver
  return receiver

end Builtins
end ScriptVM

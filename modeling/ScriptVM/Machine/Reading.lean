import ScriptVM.Machine.Exec
import ScriptVM.Text.Units16

/-!
# Reading properties

A read walks the prototype chain up to the first object that owns the key. The walk
itself runs no script; what it ends at may: an accessor calls its getter, and a
proxy asks its handler for a trap or passes the operation on to its target.
-/

namespace ScriptVM

/-- Where a walk along a prototype chain ends. -/
inductive Lookup
  | found (property : Property)
  | atProxy (target handler : Value)
  | absent
  /-- The chain is longer than allowed. -/
  | tooLong

namespace Machine

variable {σ : Type}

/-- Look for a key in an object and then along its prototype chain, in at most
`limit` objects. -/
def lookup (machine : Machine σ) (key : PropertyKey) : (limit : Nat) -> ObjectId -> Lookup
  | 0, _ => .tooLong
  | limit + 1, id =>
      match machine.kind? id with
      | some (.proxy target handler) => .atProxy target handler
      | _ =>
          match machine.ordinaryOwnProperty? id key with
          | some property => .found property
          | none =>
              match machine.heap.prototypeOf id with
              | some parent => machine.lookup key limit parent
              | none => .absent

/-- An own property that a string has by itself: its length or one of its units. -/
def stringProperty? (text : String) (key : PropertyKey) : Option Value :=
  if key == lengthKey then some (.ofNat (Text.length16 text))
  else (key.arrayIndex?.bind (Text.unitAt? text)).map .string

end Machine

namespace Exec

variable {σ : Type}

/-- Refuse anything but a function. -/
def notCallable {α : Type} (value : Value) : Exec σ α :=
  typeError fun machine => machine.display value ++ " is not a function"

/-- Take a property for a method: undefined and null stand for none. -/
def asMethod (value : Value) : Exec σ (Option Value) :=
  if value.isNullish then pure none
  else if value.isCallable then pure (some value)
  else notCallable value

/-- Read a property of any value, given how to read one of an object. A string has
its own length and units; primitives read through their prototypes. -/
def readBy (read : ObjectId -> Value -> Exec σ Value) (target : Value)
    (key : PropertyKey) : Exec σ Value := do
  match target with
  | .object id | .function id => read id target
  | .string text =>
      match Machine.stringProperty? text key with
      | some value => return value
      | none => read (<- ask fun machine => machine.intrinsics.stringPrototype) target
  | target =>
      match <- ask fun machine => machine.primitivePrototype? target with
      | some id => read id target
      | none =>
          typeError fun machine =>
            "Cannot read properties of " ++ target.text ++ " (reading '" ++
              machine.displayKey key ++ "')"

/-- The object behind a proxy. -/
def targetObject (target : Value) : Exec σ ObjectId :=
  match target.objectId? with
  | some id => pure id
  | none => raise (.internalError "proxy target is not an object")

/-- The trap of a handler, if there is one. -/
def trap? (handler : Value) (name : String) : Exec σ (Option Value) := do
  asMethod (<- readBy (fun id receiver => perform (.get id name receiver)) handler name)

/-- Read a property through a proxy. -/
def proxyGet (target handler : Value) (key : PropertyKey) (receiver : Value) :
    Exec σ Value := do
  match <- trap? handler "get" with
  | some trap => call trap handler [target, key.toValue, receiver]
  | none => perform (.get (<- targetObject target) key receiver)

/-- The value of a property as its receiver sees it. -/
def propertyValue (property : Property) (receiver : Value) : Exec σ Value :=
  match property.slot with
  | .data value _ => pure value
  | .accessor getter _ =>
      if getter.isCallable then call getter receiver [] else pure .undefined

/-- Read a property of an object on behalf of a receiver. -/
def getWithReceiver (id : ObjectId) (key : PropertyKey) (receiver : Value) :
    Exec σ Value := do
  match <- ask fun machine => machine.lookup key machine.config.maxPrototypeChain id with
  | .found property => propertyValue property receiver
  | .atProxy target handler => proxyGet target handler key receiver
  | .absent => return .undefined
  | .tooLong => raise .chainOverflow

/-- Read a property of any value. -/
def getProperty (target : Value) (key : PropertyKey) : Exec σ Value :=
  readBy (fun id receiver => getWithReceiver id key receiver) target key

/-- Read a method of any value. -/
def getMethod (target : Value) (key : PropertyKey) : Exec σ (Option Value) := do
  asMethod (<- getProperty target key)

/-- Call a method of any value. -/
def invokeMethod (target : Value) (key : PropertyKey) (arguments : List Value) :
    Exec σ Value := do
  call (<- getProperty target key) target arguments

/-- Look for a key through a proxy. -/
def proxyHas (target handler : Value) (key : PropertyKey) : Exec σ Bool := do
  match <- trap? handler "has" with
  | some trap => return (<- call trap handler [target, key.toValue]).isTruthy
  | none => perform (.has (<- targetObject target) key)

/-- The object or one on its prototype chain has a property of a key. -/
def hasProperty (id : ObjectId) (key : PropertyKey) : Exec σ Bool := do
  match <- ask fun machine => machine.lookup key machine.config.maxPrototypeChain id with
  | .found _ => return true
  | .atProxy target handler => proxyHas target handler key
  | .absent => return false
  | .tooLong => raise .chainOverflow

/-- The prototype that a proxy shows. -/
def proxyPrototypeOf (target handler : Value) : Exec σ (Option ObjectId) := do
  match <- trap? handler "getPrototypeOf" with
  | none => perform (.prototypeOf (<- targetObject target))
  | some trap =>
      match <- call trap handler [target] with
      | .null => return none
      | .object id | .function id => return some id
      | _ =>
          raise (.typeError
            "'getPrototypeOf' on proxy: trap returned neither object nor null")

/-- The prototype of an object. -/
def getPrototypeOf (id : ObjectId) : Exec σ (Option ObjectId) := do
  match <- ask fun machine => machine.kind? id with
  | some (.proxy target handler) => proxyPrototypeOf target handler
  | _ => ask fun machine => machine.heap.prototypeOf id

/-- The object that a constructor gives its instances as prototype. -/
def prototypeFromConstructor (newTarget : Value) (fallback : ObjectId) :
    Exec σ ObjectId := do
  return (<- getProperty newTarget "prototype").objectId?.getD fallback

end Exec
end ScriptVM

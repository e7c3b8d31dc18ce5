import ScriptVM.Machine.Conversion
import ScriptVM.Machine.Elements

/-!
# Writing properties

An assignment walks the prototype chain of its target like a read does. A setter
takes the value, a read-only property refuses it, and otherwise the receiver gets
an own property. Definitions and deletions concern own properties only.
-/

namespace ScriptVM
namespace Machine

variable {σ : Type}

/-- Define an own property of an object that is not a proxy, in its property table;
false if its present state does not allow it. -/
def defineOrdinary (machine : Machine σ) (id : ObjectId) (key : PropertyKey)
    (descriptor : Descriptor) : Bool × Machine σ :=
  match machine.heap.getOwn? id key with
  | none =>
      if machine.heap.isExtensible id then
        (true, machine.defineRaw id key (descriptor.merge none))
      else (false, machine)
  | some current =>
      if descriptor.isCompatible current then
        (true, machine.defineRaw id key (descriptor.merge (some current)))
      else (false, machine)

/-- Remove an own property of an object that is not a proxy; false if it has to
stay. -/
def deleteOrdinary (machine : Machine σ) (id : ObjectId) (key : PropertyKey) :
    Bool × Machine σ :=
  match machine.arrayStatus? id, key.arrayIndex? with
  | some _, some index => machine.deleteElement id index
  | status, _ =>
      if status.isSome && key == lengthKey then (false, machine)
      else
        match machine.heap.getOwn? id key with
        | none => (true, machine)
        | some property =>
            if property.configurable then
              (true, machine.modifyHeap fun heap => heap.remove id key)
            else (false, machine)

/-- A new prototype link does not close a cycle. A proxy ends the walk, since it may
answer differently each time. -/
def mayLink (machine : Machine σ) (id : ObjectId) : (limit : Nat) -> Option ObjectId ->
    Except Exception Bool
  | _, none => .ok true
  | limit, some ancestor =>
      if ancestor == id then .ok false
      else if machine.isProxy ancestor then .ok true
      else
        match limit with
        | 0 => .error .chainOverflow
        | limit + 1 => machine.mayLink id limit (machine.heap.prototypeOf ancestor)

/-- Replace the prototype of an object; false if that would close a cycle or the
object is not extensible. -/
def setPrototypeOf (machine : Machine σ) (id : ObjectId) (prototype : Option ObjectId) :
    Except Exception Bool × Machine σ :=
  match machine.behindProxies? id with
  | none => (.ok false, machine)
  | some id =>
      if machine.heap.prototypeOf id == prototype then (.ok true, machine)
      else if !machine.heap.isExtensible id then (.ok false, machine)
      else
        match machine.mayLink id machine.config.maxPrototypeChain prototype with
        | .ok true =>
            (.ok (machine.heap.contains id),
              machine.modifyHeap fun heap => heap.setPrototype id prototype)
        | answer => (answer, machine)

end Machine

namespace Exec

variable {σ : Type}

/-- Change the machine and give an answer, or throw. -/
def changeOrRaise {α : Type}
    (operation : Machine σ -> Except Exception α × Machine σ) : Exec σ α := do
  ofExcept (<- change operation)

/-- Change the length of an array. The value is converted twice, once as a number
and once as a word, and both have to agree. -/
def setArrayLength (id : ObjectId) (value : Value) : Exec σ Bool := do
  let number <- toNumber value
  let length <- toWord value
  if Float.ofNat length != number || Machine.maxArrayLength < length then
    raise Machine.invalidLength
  else change fun machine => machine.setLength id length

/-- Define an element of an array. Elements always have the attributes of plain
assignment. -/
def defineElement (id : ObjectId) (index : Nat) (descriptor : Descriptor) :
    Exec σ Bool := do
  if descriptor.isAccessor || descriptor.writable == some false ||
      descriptor.enumerable == some false || descriptor.configurable == some false then
    raise (.typeError
      ("Cannot define non-default attributes on array index " ++ toString index))
  else
    changeOrRaise fun machine =>
      let current := (machine.ordinaryOwnProperty? id (.index index)).bind Property.value?
      machine.setElement id index (descriptor.value.getD (current.getD .undefined))

/-- Define the length of an array. -/
def defineArrayLength (id : ObjectId) (frozen : Bool) (descriptor : Descriptor) :
    Exec σ Bool := do
  if descriptor.isAccessor || descriptor.enumerable == some true ||
      descriptor.configurable == some true then
    return false
  else if descriptor.writable == some false then
    raise (.typeError "Cannot make array length read-only without freezing the array")
  else
    match descriptor.value with
    | some value => setArrayLength id value
    | none => return !frozen

/-- Define an own property of an object; false if the object does not allow it. A
proxy passes the definition on to its target. -/
def defineOwnProperty (id : ObjectId) (key : PropertyKey) (descriptor : Descriptor) :
    Exec σ Bool := do
  match <- ask fun machine => machine.behindProxies? id with
  | none => return false
  | some id =>
      match <- ask fun machine => machine.arrayStatus? id, key.arrayIndex? with
      | some (_, true), some _ => return false
      | some (_, false), some index => defineElement id index descriptor
      | some (_, frozen), none =>
          if key == Machine.lengthKey then defineArrayLength id frozen descriptor
          else change fun machine => machine.defineOrdinary id key descriptor
      | none, _ => change fun machine => machine.defineOrdinary id key descriptor

/-- Define an own property with the attributes of plain assignment. -/
def createDataProperty (id : ObjectId) (key : PropertyKey) (value : Value) :
    Exec σ Bool :=
  defineOwnProperty id key (.plain value)

/-- Overwrite an own writable data property. -/
def writeOwnValue (id : ObjectId) (key : PropertyKey) (value : Value) : Exec σ Bool := do
  match <- ask fun machine => machine.arrayStatus? id, key.arrayIndex? with
  | some _, some index => changeOrRaise fun machine => machine.setElement id index value
  | status, _ =>
      if status.isSome && key == Machine.lengthKey then setArrayLength id value
      else
        change fun machine =>
          match machine.heap.getOwn? id key with
          | none => (false, machine)
          | some existing =>
              (true, machine.defineRaw id key
                (.ofData value true existing.enumerable existing.configurable))

/-- Give the receiver of an assignment an own property, or overwrite the one it
has. -/
def assignOwn (receiver : Value) (key : PropertyKey) (value : Value) : Exec σ Bool := do
  match receiver.objectId? with
  | none => return false
  | some id =>
      match <- ask fun machine => machine.getOwnProperty? id key with
      | none => createDataProperty id key value
      | some property =>
          if property.isWritable then writeOwnValue id key value else return false

/-- Assign a property through a proxy. -/
def proxySet (target handler : Value) (key : PropertyKey) (value receiver : Value) :
    Exec σ Bool := do
  match <- trap? handler "set" with
  | some trap =>
      return (<- call trap handler [target, key.toValue, value, receiver]).isTruthy
  | none => perform (.set (<- targetObject target) key value receiver)

/-- Assign a property on behalf of a receiver; false if the assignment is refused.
The walk may go one object further than that of a read. -/
def setWithReceiver (id : ObjectId) (key : PropertyKey) (value receiver : Value) :
    Exec σ Bool := do
  match <- ask fun machine =>
      machine.lookup key (machine.config.maxPrototypeChain + 1) id with
  | .atProxy target handler => proxySet target handler key value receiver
  | .tooLong => raise .chainOverflow
  | .absent => assignOwn receiver key value
  | .found property =>
      match property.slot with
      | .data _ true => assignOwn receiver key value
      | .data _ false => return false
      | .accessor _ setter =>
          if setter.isCallable then
            let _ <- call setter receiver [value]
            return true
          else return false

/-- Assign a property of any value. A refused assignment throws in strict code and
is ignored otherwise. -/
def setProperty (target : Value) (key : PropertyKey) (value : Value) (strict : Bool) :
    Exec σ Unit := do
  match <- ask fun machine => target.objectId? <|> machine.primitivePrototype? target with
  | none =>
      typeError fun machine =>
        "Cannot set properties of " ++ target.text ++ " (setting '" ++
          machine.displayKey key ++ "')"
  | some holder =>
      let done <- setWithReceiver holder key value target
      if !done && strict then
        typeError fun machine =>
          "Cannot assign to read only property '" ++ machine.displayKey key ++ "' of " ++
            machine.display target

/-- Delete a property through a proxy. -/
def proxyDelete (target handler : Value) (key : PropertyKey) : Exec σ Bool := do
  match <- trap? handler "deleteProperty" with
  | some trap => return (<- call trap handler [target, key.toValue]).isTruthy
  | none => perform (.delete target key)

/-- Delete a property of an object; false if it has to stay. -/
def deleteOwn (id : ObjectId) (key : PropertyKey) : Exec σ Bool := do
  match <- ask fun machine => machine.kind? id with
  | some (.proxy target handler) => proxyDelete target handler key
  | _ => change fun machine => machine.deleteOrdinary id key

/-- Delete a property of any value; false if it has to stay, which throws in strict
code. Primitives have nothing to delete. -/
def deleteProperty (target : Value) (key : PropertyKey) (strict : Bool) :
    Exec σ Bool := do
  match target with
  | .undefined | .null | .hole =>
      typeError fun machine =>
        "Cannot convert undefined or null to object (deleting '" ++
          machine.displayKey key ++ "')"
  | .object id | .function id =>
      let deleted <- deleteOwn id key
      if !deleted && strict then
        typeError fun machine =>
          "Cannot delete property '" ++ machine.displayKey key ++ "' of " ++
            machine.display target
      else return deleted
  | _ => return true

/-- Replace the prototype of an object. -/
def setPrototypeOf (id : ObjectId) (prototype : Option ObjectId) : Exec σ Bool :=
  changeOrRaise fun machine => machine.setPrototypeOf id prototype

/-- Append an element to an array. -/
def pushElement (id : ObjectId) (value : Value) : Exec σ Unit :=
  changeOrRaise fun machine => machine.pushElement id value

end Exec
end ScriptVM

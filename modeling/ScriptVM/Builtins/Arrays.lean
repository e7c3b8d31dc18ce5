import ScriptVM.Builtins.Objects
import ScriptVM.Machine.Iteration

/-!
# Built-ins of arrays

Constructing, appending, joining and iterating.
-/

namespace ScriptVM
namespace Builtins

open Exec

variable {σ : Type}

/-- The elements of a new array: as many holes as a single number says, or else the
arguments. -/
def initialElements : List Value -> Except Exception (Array Value)
  | [.number length] =>
      let bound := Float.ofNat Machine.maxArrayLength
      if 0 <= length && length <= bound && Number.isIntegral length then
        .ok (Array.replicate (Number.truncate length).toNat .hole)
      else .error Machine.invalidLength
  | elements => .ok elements.toArray

/-- Make an array. -/
def constructArray (arguments : List Value) (newTarget : Value) : Exec σ Value := do
  let fallback <- ask fun machine => machine.intrinsics.arrayPrototype
  let prototype <-
    if newTarget.isUndefined then pure fallback
    else prototypeFromConstructor newTarget fallback
  let elements <- ofExcept (initialElements arguments)
  return .object (<- allocate (some prototype) (.array { elements }))

/-- Append values one by one behind the length of an object that is not an array. -/
def pushGeneric (receiver : Value) (length : Nat) : List Value -> Exec σ Nat
  | [] => pure length
  | value :: rest => do
      setProperty receiver (.index length) value true
      pushGeneric receiver (length + 1) rest

/-- Append the arguments and give the new length. -/
def arrayPush (receiver : Value) (arguments : List Value) : Exec σ Value := do
  match receiver.objectId? with
  | none =>
      typeError fun machine =>
        "Array.prototype.push called on " ++ machine.display receiver
  | some id =>
      if (<- ask fun machine => machine.arrayStatus? id).isSome then
        arguments.forM (pushElement id)
        getProperty receiver Machine.lengthKey
      else
        let length <- lengthOfArrayLike receiver
        let length := Value.ofNat (<- pushGeneric receiver length arguments)
        setProperty receiver Machine.lengthKey length true
        return length

/-- The text of an element among joined elements. -/
def joinedElement (receiver : Value) (index : Nat) : Exec σ String := do
  let element <- getProperty receiver (.index index)
  if element.isNullish then return "" else toText element

/-- The elements joined by a separator. -/
def arrayJoin (receiver separator : Value) : Exec σ Value := do
  if receiver.isNullish then
    raise (.typeError ("Array.prototype.join called on " ++ receiver.text))
  let separator <- if separator.isUndefined then pure "," else toText separator
  let length <- lengthOfArrayLike receiver
  let parts <- (List.range length).mapM (joinedElement receiver)
  return .string (separator.intercalate parts)

/-- The text of an array is that of its joined elements. -/
def arrayToString (receiver : Value) : Exec σ Value := do
  let join <- getProperty receiver "join"
  if join.isCallable then call join receiver [] else objectToString receiver

/-- An iterator over the elements. -/
def arrayValues (receiver : Value) : Exec σ Value :=
  if receiver.isNullish then
    raise (.typeError ("Array.prototype.values called on " ++ receiver.text))
  else createArrayIterator receiver

end Builtins
end ScriptVM

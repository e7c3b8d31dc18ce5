import ScriptVM.Machine.Objects

/-!
# Array elements

Changes of the elements and the length of an array. Writing beyond the end fills
the gap with holes; neither a frozen array nor one that is not extensible grows.
-/

namespace ScriptVM
namespace Machine

variable {σ : Type}

/-- The number of elements of an array and whether it is frozen. -/
def arrayStatus? (machine : Machine σ) (id : ObjectId) : Option (Nat × Bool) :=
  match machine.kind? id with
  | some (.array store) => some (store.elements.size, store.frozen)
  | _ => none

/-- Change the elements of an array. -/
def modifyElements (machine : Machine σ) (id : ObjectId)
    (change : Array Value -> Array Value) : Machine σ :=
  machine.modifyHeap fun heap => heap.modifyPayload id fun kind =>
    match kind with
    | .array store => .array { store with elements := change store.elements }
    | kind => kind

/-- Cut elements to a length, or fill them up with holes. -/
def resizeElements (length : Nat) (elements : Array Value) : Array Value :=
  if length <= elements.size then elements.take length
  else elements ++ Array.replicate (length - elements.size) Value.hole

/-- An index or length is out of bounds. -/
def invalidLength : Exception :=
  .rangeError "Invalid array length"

/-- Write an element; false if the array does not allow it. -/
def setElement (machine : Machine σ) (id : ObjectId) (index : Nat) (value : Value) :
    Except Exception Bool × Machine σ :=
  match machine.arrayStatus? id with
  | none | some (_, true) => (.ok false, machine)
  | some (size, false) =>
      if index < size then
        (.ok true, machine.modifyElements id fun elements =>
          elements.setIfInBounds index value)
      else if !machine.heap.isExtensible id then (.ok false, machine)
      else if maxArrayLength <= index then (.error invalidLength, machine)
      else
        (.ok true, machine.modifyElements id fun elements =>
          (resizeElements index elements).push value)

/-- Change the length of an array; false if the array does not allow it. -/
def setLength (machine : Machine σ) (id : ObjectId) (length : Nat) :
    Bool × Machine σ :=
  match machine.arrayStatus? id with
  | none | some (_, true) => (false, machine)
  | some (_, false) => (true, machine.modifyElements id (resizeElements length))

/-- Append an element. -/
def pushElement (machine : Machine σ) (id : ObjectId) (value : Value) :
    Except Exception Unit × Machine σ :=
  match machine.arrayStatus? id with
  | some (_, false) => (.ok (), machine.modifyElements id fun elements => elements.push value)
  | some (_, true) =>
      (.error (.typeError "Cannot add property, object is not extensible"), machine)
  | none => (.error (.internalError "array store expected"), machine)

/-- Turn an element into a hole; false if the array is frozen. -/
def deleteElement (machine : Machine σ) (id : ObjectId) (index : Nat) :
    Bool × Machine σ :=
  match machine.arrayStatus? id with
  | some (_, false) =>
      (true, machine.modifyElements id fun elements =>
        elements.setIfInBounds index .hole)
  | _ => (false, machine)

end Machine
end ScriptVM

import ScriptVM.Machine.Writing

/-!
# Iteration

The iteration protocol: asking a value for an iterator, stepping it, and closing
it early.
-/

namespace ScriptVM
namespace Exec

variable {σ : Type}

/-- Allocate the result object of an iterator step. -/
def iterationResult (value : Value) (done : Bool) : Exec σ Value :=
  change fun machine => machine.iterationResult value done

/-- Ask a value for an iterator. -/
def getIterator (iterable : Value) : Exec σ Value := do
  match <- getMethod iterable (.symbol .iterator) with
  | none => typeError fun machine => machine.display iterable ++ " is not iterable"
  | some method =>
      let iterator <- call method iterable []
      if !iterator.isObject then
        raise (.typeError "Result of the Symbol.iterator method is not an object")
      return iterator

/-- The result of a step must be an object. -/
def requireIterationResult (result : Value) : Exec σ Value :=
  if result.isObject then pure result
  else
    typeError fun machine =>
      "Iterator result " ++ machine.display result ++ " is not an object"

/-- Step an iterator, sending it the arguments. -/
def iteratorNext (iterator : Value) (arguments : List Value) : Exec σ Value := do
  requireIterationResult (<- invokeMethod iterator "next" arguments)

/-- The result of a step says that the iteration is over. -/
def isDone (result : Value) : Exec σ Bool := do
  return (<- getProperty result "done").isTruthy

/-- The value that the result of a step holds. -/
def resultValue (result : Value) : Exec σ Value :=
  getProperty result "value"

/-- Close an iterator before its end, if it wants to know. -/
def closeIterator (iterator : Value) : Exec σ Unit := do
  match <- getMethod iterator "return" with
  | none => return ()
  | some method => let _ <- requireIterationResult (<- call method iterator [])

/-- Collect everything that an iterable yields. -/
def iterateToList (iterable : Value) : Exec σ (List Value) := do
  let iterator <- getIterator iterable
  let values <- iterate (fun (values : Array Value) => do
    let result <- iteratorNext iterator []
    if <- isDone result then return .inr values
    else return .inl (values.push (<- resultValue result))) #[]
  return values.toList

/-- Allocate an iterator over the elements of an array-like value. -/
def createArrayIterator (array : Value) : Exec σ Value := do
  let prototype <- ask fun machine => machine.intrinsics.arrayIteratorPrototype
  return .object (<- allocate (some prototype) (.arrayIterator array 0 false))

/-- Change the index and the end mark of an array iterator. -/
def moveArrayIterator (id : ObjectId) (change : Nat × Bool -> Nat × Bool) : Exec σ Unit :=
  update fun machine => machine.modifyHeap fun heap => heap.modifyPayload id fun kind =>
    match kind with
    | .arrayIterator array index done =>
        let (index, done) := change (index, done)
        .arrayIterator array index done
    | kind => kind

/-- Step an array iterator. Once it has reached the end it stays there. -/
def arrayIteratorNext (receiver : Value) : Exec σ Value := do
  match receiver.objectId?, <- ask fun machine => machine.kindOf? receiver with
  | some id, some (.arrayIterator array index done) =>
      if done then iterationResult .undefined true
      else
        let length <- lengthOfArrayLike array
        if length <= index then
          moveArrayIterator id fun (index, _) => (index, true)
          iterationResult .undefined true
        else
          let value <- getProperty array (.index index)
          moveArrayIterator id fun (_, done) => (index + 1, done)
          iterationResult value false
  | _, _ =>
      typeError fun machine =>
        "next method called on incompatible receiver " ++ machine.display receiver

end Exec
end ScriptVM

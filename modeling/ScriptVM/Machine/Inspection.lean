import ScriptVM.Machine.Promises

/-!
# Inspection

A view of a value for an embedder: objects are numbered in the order in which they
are met, and shown with their properties down to a depth. Inspecting runs no script.
-/

namespace ScriptVM

/-- What an object is shown as. -/
inductive ObjectForm
  | plain
  | array
  | function
  deriving DecidableEq, Repr

/-- The view of a value. -/
inductive Inspected
  /-- Neither an object nor a symbol. -/
  | primitive (value : Value)
  | symbol (description : Option String)
  /-- An object that was met before. -/
  | again (number : Nat)
  /-- An object met for the first time. A promise shows its state, and while the depth
  allows it what it settled with. Each property comes with the views of its key and of
  the values it holds. With the properties it also shows whether new ones are refused. -/
  | object (number : Nat) (form : ObjectForm) (shown : String)
      (state : Option (PromiseState (Option Inspected)))
      (properties : List (Inspected × Property × List Inspected)) (closed : Bool)

/-- An inspection knows the objects it has met. -/
abbrev Inspection := StateM (Array ObjectId)

namespace Machine

variable {σ : Type}

/-- What an object is shown as. -/
def formOf (machine : Machine σ) (value : Value) : ObjectForm :=
  if value.isCallable then .function
  else if machine.isArray value then .array
  else .plain

/-- The properties of a callable object are shown only above this depth. -/
def callableDepth : Nat := 3

/-- The own properties in the order of keys. -/
def ownProperties (machine : Machine σ) (id : ObjectId) : List (PropertyKey × Property) :=
  (machine.ownKeys id).filterMap fun key =>
    (machine.getOwnProperty? id key).map fun property => (key, property)

/-- The view of a key. -/
def inspectKey (machine : Machine σ) : PropertyKey -> Inspected
  | .string name => .primitive (.string name)
  | .symbol id => .symbol (machine.symbolDescription id)

/-- The view of the state of a promise. -/
def inspectState (inner : Value -> Inspection (Option Inspected)) :
    PromiseState Value -> Inspection (PromiseState (Option Inspected))
  | .pending => return .pending
  | .fulfilled value => return .fulfilled (<- inner value)
  | .rejected reason => return .rejected (<- inner reason)

/-- The view of an object at a depth, given how to view what is in it. -/
def inspectObject (machine : Machine σ) (depth : Nat) (id : ObjectId) (value : Value)
    (inner : Option (Value -> Inspection Inspected)) : Inspection Inspected := do
  let number := (<- get).size
  modify fun met => met.push id
  let state <- (machine.promiseState? value).mapM <| inspectState fun value =>
    inner.mapM fun view => view value
  match inner with
  | some view =>
      if value.isCallable && depth <= callableDepth then
        return shownAs number state [] false
      else
        let properties <- (machine.ownProperties id).mapM fun (key, property) => do
          return (machine.inspectKey key, property, <- property.values.mapM view)
        return shownAs number state properties !machine.isExtensible id
  | none => return shownAs number state [] false
where
  shownAs (number : Nat) (state : Option (PromiseState (Option Inspected)))
      (properties : List (Inspected × Property × List Inspected)) (closed : Bool) :
      Inspected :=
    .object number (machine.formOf value) (machine.display value) state properties closed

/-- The view of a value at a depth, given how to view what is in it. -/
def inspectWith (machine : Machine σ) (depth : Nat)
    (inner : Option (Value -> Inspection Inspected)) (value : Value) :
    Inspection Inspected := do
  match value with
  | .symbol id => return .symbol (machine.symbolDescription id)
  | .object id | .function id =>
      match (<- get).idxOf? id with
      | some number => return .again number
      | none => machine.inspectObject depth id value inner
  | value => return .primitive value

/-- The view of a value at a depth. -/
def inspect (machine : Machine σ) : (depth : Nat) -> Value -> Inspection Inspected
  | 0 => machine.inspectWith 0 none
  | depth + 1 => machine.inspectWith (depth + 1) (some (machine.inspect depth))

end Machine
end ScriptVM

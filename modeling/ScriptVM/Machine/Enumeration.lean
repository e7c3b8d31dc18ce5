import ScriptVM.Machine.Iteration

/-!
# Enumeration

Operations over all keys of an object: the keys that a for-in loop visits, object
spread, the elements of an argument array and the arguments object.
-/

namespace ScriptVM
namespace Machine

variable {σ : Type}

/-- An own property exists and is enumerable. -/
def ownsEnumerable (machine : Machine σ) (id : ObjectId) (key : PropertyKey) : Bool :=
  ((machine.getOwnProperty? id key).map Property.enumerable).getD false

/-- The keys found by an enumeration: those to visit, and all that were met, which
hide the same keys further up the prototype chain. -/
structure FoundKeys where
  visited : Array String := #[]
  met : List String := []

/-- Meet the own string key of an object. -/
def FoundKeys.meet (machine : Machine σ) (id : ObjectId) (found : FoundKeys)
    (key : PropertyKey) : FoundKeys :=
  match key with
  | .symbol _ => found
  | .string name =>
      if found.met.contains name then found
      else
        { visited :=
            if machine.ownsEnumerable id key then found.visited.push name
            else found.visited
          met := name :: found.met }

/-- Meet all own keys of an object. -/
def meetOwnKeys (machine : Machine σ) (id : ObjectId) (found : FoundKeys) : FoundKeys :=
  (machine.ownKeys id).foldl (FoundKeys.meet machine id) found

/-- The texts of the indices of a string. -/
def stringIndices (text : String) : List String :=
  (List.range (Text.length16 text)).map fun index => (PropertyKey.index index).text

/-- The elements of an argument array, with holes as undefined. -/
def argumentElements? (machine : Machine σ) (array : Value) : Option (List Value) :=
  match machine.kindOf? array with
  | some (.array store) =>
      some (store.elements.toList.map fun element =>
        if element.isHole then .undefined else element)
  | _ => none

/-- Define one element of an arguments object for each argument, from `index` on. -/
def defineArguments (machine : Machine σ) (id : ObjectId) (index : Nat) :
    List Value -> Machine σ
  | [] => machine
  | value :: rest =>
      (machine.defineRaw id (.index index) (.plain value)).defineArguments id (index + 1)
        rest

/-- Allocate an arguments object. -/
def createArguments (machine : Machine σ) (arguments : List Value) :
    ObjectId × Machine σ :=
  let (id, machine) :=
    machine.allocate (some machine.intrinsics.objectPrototype) .arguments
  let machine := machine.defineArguments id 0 arguments
  (id, machine.defineRaw id "length" (.hidden (.ofNat arguments.length)))

end Machine

namespace Exec

variable {σ : Type}

/-- Meet the keys of an object and of those on its prototype chain. -/
def enumerateFrom : (limit : Nat) -> ObjectId -> Machine.FoundKeys ->
    Exec σ Machine.FoundKeys
  | limit, id, found => do
      let found <- ask fun machine => machine.meetOwnKeys id found
      match limit with
      | 0 => raise .chainOverflow
      | limit + 1 =>
          match <- getPrototypeOf id with
          | some parent => enumerateFrom limit parent found
          | none => return found

/-- The keys that a for-in loop visits: the enumerable string keys along the
prototype chain, each once. A string has its indices and what it inherits; other
primitives have none. -/
def enumerateKeys (target : Value) : Exec σ (List Value) := do
  let limit <- ask fun machine => machine.config.maxPrototypeChain
  let found <-
    match target with
    | .object id | .function id => enumerateFrom limit id {}
    | .string text =>
        let indices := Machine.stringIndices text
        let prototype <- ask fun machine => machine.intrinsics.stringPrototype
        enumerateFrom limit prototype { visited := indices.toArray, met := indices }
    | _ => pure {}
  return found.visited.toList.map .string

/-- Copy one property of a source object, if it is enumerable. -/
def copyProperty (target source : ObjectId) (receiver : Value) (key : PropertyKey) :
    Exec σ Unit := do
  if <- ask fun machine => machine.ownsEnumerable source key then
    let value <- getWithReceiver source key receiver
    let _ <- createDataProperty target key value

/-- Copy the own enumerable properties of a source into an object. Those of a string
are its units. -/
def copyDataProperties (target : ObjectId) (source : Value) : Exec σ Unit := do
  match source with
  | .object id | .function id =>
      (<- ask fun machine => machine.ownKeys id).forM (copyProperty target id source)
  | .string text =>
      (Text.units16 text).zipIdx.forM fun (unit, index) => do
        let _ <- createDataProperty target (.index index) (.string (Text.ofUnit unit))
  | _ => return ()

/-- The elements of an argument array. -/
def argumentElements (array : Value) : Exec σ (List Value) := do
  match <- ask fun machine => machine.argumentElements? array with
  | some elements => return elements
  | none => raise (.internalError "argument array expected")

end Exec
end ScriptVM

import ScriptVM.Machine.State

/-!
# Objects without user code

Queries and changes of objects that never run a script: own properties, own keys,
extensibility and freezing. Arrays answer for their elements and length; a proxy
stands for its target.
-/

namespace ScriptVM
namespace Machine

variable {σ : Type}

/-- Arrays do not grow beyond this length. -/
def maxArrayLength : Nat := 16777216

/-- The key of the length of arrays and strings. -/
def lengthKey : PropertyKey := .string "length"

/-- Follow proxies to the object behind them, for at most `fuel` links. -/
def throughProxies (machine : Machine σ) : Nat -> ObjectId -> Option ObjectId
  | 0, _ => none
  | fuel + 1, id =>
      match machine.kind? id with
      | some (.proxy target _) => target.objectId?.bind (machine.throughProxies fuel)
      | _ => some id

/-- The object behind a chain of proxies. The chain has no cycle, because a proxy
refers to what existed before it. -/
def behindProxies? (machine : Machine σ) (id : ObjectId) : Option ObjectId :=
  machine.throughProxies (machine.heap.objects.size + 1) id

/-- An own property of an object that is not a proxy. -/
def ordinaryOwnProperty? (machine : Machine σ) (id : ObjectId) (key : PropertyKey) :
    Option Property :=
  match machine.kind? id with
  | some (.array store) =>
      match key.arrayIndex? with
      | some index =>
          match store.elements[index]? with
          | none | some .hole => none
          | some value => some (.ofData value (!store.frozen) true (!store.frozen))
      | none =>
          if key == lengthKey then
            some (.ofData (.ofNat store.elements.size) (!store.frozen) false false)
          else machine.heap.getOwn? id key
  | _ => machine.heap.getOwn? id key

/-- An own property, with the elements and length of arrays among them. -/
def getOwnProperty? (machine : Machine σ) (id : ObjectId) (key : PropertyKey) :
    Option Property :=
  (machine.behindProxies? id).bind fun id => machine.ordinaryOwnProperty? id key

/-- The indices of the elements that are not missing, counted from `start`. -/
def elementIndices (start : Nat) : List Value -> List Nat
  | [] => []
  | .hole :: rest => elementIndices (start + 1) rest
  | _ :: rest => start :: elementIndices (start + 1) rest

/-- The own keys of an object that is not a proxy. -/
def ordinaryOwnKeys (machine : Machine σ) (id : ObjectId) : List PropertyKey :=
  let (elements, length) :=
    match machine.kind? id with
    | some (.array store) => (elementIndices 0 store.elements.toList, [lengthKey])
    | _ => ([], [])
  let keys := machine.heap.ownKeys id
  let indices := (elements ++ keys.filterMap PropertyKey.arrayIndex?).mergeSort
  let others := keys.filter fun key => key.arrayIndex?.isNone
  indices.map PropertyKey.index ++ length ++
    others.filter (fun key => !key.isSymbol) ++ others.filter PropertyKey.isSymbol

/-- The own keys: indices ascending, then strings, then symbols, the last two in
the order of insertion. -/
def ownKeys (machine : Machine σ) (id : ObjectId) : List PropertyKey :=
  match machine.behindProxies? id with
  | some id => machine.ordinaryOwnKeys id
  | none => []

/-- New properties may be added. -/
def isExtensible (machine : Machine σ) (id : ObjectId) : Bool :=
  match machine.behindProxies? id with
  | some id => machine.heap.isExtensible id
  | none => false

/-- Forbid new properties; false if there is no such object. -/
def preventExtensions (machine : Machine σ) (id : ObjectId) : Bool × Machine σ :=
  match machine.behindProxies? id with
  | some id =>
      (machine.heap.contains id, machine.modifyHeap fun heap => heap.preventExtensions id)
  | none => (false, machine)

/-- The property that freezing leaves: neither configurable nor writable. -/
def frozenProperty (property : Property) : Property :=
  match property.slot with
  | .data value _ => .ofData value false property.enumerable false
  | .accessor _ _ => { property with configurable := false }

/-- Freeze one property of the property table. -/
def freezeKey (heap : Heap ObjectKind) (id : ObjectId) (key : PropertyKey) :
    Heap ObjectKind :=
  match heap.getOwn? id key with
  | some property => heap.define id key (frozenProperty property)
  | none => heap

/-- Freeze the elements and length of an array. -/
def freezeElements : ObjectKind -> ObjectKind
  | .array store => .array { store with frozen := true }
  | kind => kind

/-- Forbid new properties and make all properties read-only; false if there is no
such object. -/
def freeze (machine : Machine σ) (id : ObjectId) : Bool × Machine σ :=
  match machine.behindProxies? id with
  | none => (false, machine)
  | some id =>
      if machine.heap.contains id then
        (true, machine.modifyHeap fun heap =>
          let heap := (heap.preventExtensions id).modifyPayload id freezeElements
          (heap.ownKeys id).foldl (fun heap key => freezeKey heap id key) heap)
      else (false, machine)

/-- The object is not extensible and all its properties are read-only. -/
def isFrozen (machine : Machine σ) (id : ObjectId) : Bool :=
  !machine.isExtensible id &&
    (machine.ownKeys id).all fun key =>
      match machine.getOwnProperty? id key with
      | some property => !property.configurable && !property.isWritable
      | none => true

/-- The value is an array, or a proxy of one. -/
def isArray (machine : Machine σ) (value : Value) : Bool :=
  match (value.objectId?.bind machine.behindProxies?).bind machine.kind? with
  | some (.array _) => true
  | _ => false

/-- The value can be the target of `new`, looking through at most `fuel` bound
functions and proxies. -/
def isConstructorWithin (machine : Machine σ) : Nat -> Value -> Bool
  | 0, _ => false
  | fuel + 1, value =>
      match machine.kindOf? value with
      | some (.function closure) => closure.template.kind.isConstructor
      | some (.native native) => native.construct.isSome
      | some (.bound target _ _) | some (.proxy target _) =>
          machine.isConstructorWithin fuel target
      | _ => false

/-- The value can be the target of `new`. -/
def isConstructor (machine : Machine σ) (value : Value) : Bool :=
  machine.isConstructorWithin (machine.heap.objects.size + 1) value

/-- The object is among those on the prototype chain of another, itself included,
within a number of links. -/
def inheritsWithin (machine : Machine σ) (prototype : ObjectId) : Nat -> ObjectId -> Bool
  | 0, id => id == prototype
  | fuel + 1, id =>
      id == prototype ||
        match machine.heap.prototypeOf id with
        | some parent => machine.inheritsWithin prototype fuel parent
        | none => false

/-- An own data property of the global object, read without running a script. -/
def getGlobal? (machine : Machine σ) (name : String) : Option Value :=
  (machine.heap.getOwn? machine.intrinsics.global (.string name)).bind Property.value?

/-- Create or overwrite a global. -/
def setGlobal (machine : Machine σ) (name : String) (value : Value) : Machine σ :=
  machine.defineRaw machine.intrinsics.global (.string name) (.hidden value)

/-- The settled state of a promise, none for anything else. -/
def promiseState? (machine : Machine σ) (value : Value) : Option (PromiseState Value) :=
  match machine.kindOf? value with
  | some (.promise record) => some record.state
  | _ => none

end Machine
end ScriptVM

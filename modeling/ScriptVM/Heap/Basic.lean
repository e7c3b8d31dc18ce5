import ScriptVM.Heap.PropertyTable
import ScriptVM.Heap.Shape

/-!
# The heap

An arena of objects. Each object has a shape, a prototype link, own properties,
an extensibility flag and a payload of internal slots; the heap is generic in the
payload. Handles of collected objects are handed out again, the most recently
freed first.
-/

namespace ScriptVM

/-- An object with internal slots of type `K`. -/
structure HeapObject (K : Type) where
  shape : ShapeId
  prototype : Option ObjectId
  properties : PropertyTable := {}
  extensible : Bool := true
  payload : K

/-- Allocation counters. -/
structure HeapStats where
  live : Nat := 0
  allocatedTotal : Nat := 0
  allocatedSinceCollection : Nat := 0
  collections : Nat := 0
  deriving DecidableEq, Repr

/-- An arena of objects with internal slots of type `K`. -/
structure Heap (K : Type) where
  objects : Array (Option (HeapObject K)) := #[]
  free : List Nat := []
  shapes : ShapeTable := {}
  stats : HeapStats := {}

namespace Heap

variable {K : Type}

/-- The object that a handle names. -/
def get? (heap : Heap K) (id : ObjectId) : Option (HeapObject K) :=
  (heap.objects[id.index]?).join

/-- The handle names a live object. -/
def contains (heap : Heap K) (id : ObjectId) : Bool :=
  (heap.get? id).isSome

/-- The internal slots of an object. -/
def payload? (heap : Heap K) (id : ObjectId) : Option K :=
  (heap.get? id).map HeapObject.payload

/-- The prototype of an object; none also for a dead handle. -/
def prototypeOf (heap : Heap K) (id : ObjectId) : Option ObjectId :=
  (heap.get? id).bind HeapObject.prototype

/-- The shape of an object. -/
def shapeOf? (heap : Heap K) (id : ObjectId) : Option ShapeId :=
  (heap.get? id).map HeapObject.shape

/-- An own property by key. -/
def getOwn? (heap : Heap K) (id : ObjectId) (key : PropertyKey) : Option Property :=
  (heap.get? id).bind fun object => object.properties.get? key

/-- An own property by key, with its offset. -/
def lookup? (heap : Heap K) (id : ObjectId) (key : PropertyKey) :
    Option (Nat × Property) :=
  (heap.get? id).bind fun object => object.properties.lookup? key

/-- The own property at an offset. -/
def propertyAt? (heap : Heap K) (id : ObjectId) (offset : Nat) :
    Option (PropertyKey × Property) :=
  (heap.get? id).bind fun object => object.properties.at? offset

/-- New own properties may be added. -/
def isExtensible (heap : Heap K) (id : ObjectId) : Bool :=
  ((heap.get? id).map HeapObject.extensible).getD false

/-- Own keys in insertion order. -/
def ownKeys (heap : Heap K) (id : ObjectId) : List PropertyKey :=
  ((heap.get? id).map fun object => object.properties.keys).getD []

/-- Apply a function to an object in place. -/
def modify (heap : Heap K) (id : ObjectId) (change : HeapObject K -> HeapObject K) :
    Heap K :=
  { heap with objects := heap.objects.modify id.index (Option.map change) }

/-- Apply a function to the internal slots of an object. -/
def modifyPayload (heap : Heap K) (id : ObjectId) (change : K -> K) : Heap K :=
  heap.modify id fun object => { object with payload := change object.payload }

/-- Replace the internal slots of an object. -/
def setPayload (heap : Heap K) (id : ObjectId) (payload : K) : Heap K :=
  heap.modify id fun object => { object with payload }

/-- Allocate an object without own properties. -/
def allocate (heap : Heap K) (prototype : Option ObjectId) (payload : K) :
    ObjectId × Heap K :=
  let (shape, shapes) := heap.shapes.root prototype
  let stats := heap.stats
  let stats :=
    { stats with
      live := stats.live + 1
      allocatedTotal := stats.allocatedTotal + 1
      allocatedSinceCollection := stats.allocatedSinceCollection + 1 }
  let object := some { shape, prototype, payload }
  match heap.free with
  | index :: free =>
      (⟨index⟩, { objects := heap.objects.setIfInBounds index object, free, shapes, stats })
  | [] =>
      (⟨heap.objects.size⟩,
        { objects := heap.objects.push object, free := [], shapes, stats })

/-- Insert or replace an own property. Appending a key follows the shared
transition tree, replacing only a value keeps the shape, and any other
replacement moves the object to a unique shape. -/
def define (heap : Heap K) (id : ObjectId) (key : PropertyKey) (property : Property) :
    Heap K :=
  match heap.get? id with
  | none => heap
  | some object =>
      match object.properties.lookup? key with
      | some (offset, existing) =>
          if existing.sameLayout property then
            heap.modify id fun object =>
              { object with properties := object.properties.setAt offset property }
          else
            let (shape, shapes) :=
              heap.shapes.unique object.prototype object.properties.size
            { heap with shapes }.modify id fun object =>
              { object with shape, properties := object.properties.setAt offset property }
      | none =>
          let (shape, shapes) := heap.shapes.transition object.shape key
          { heap with shapes }.modify id fun object =>
            { object with shape, properties := object.properties.append key property }

/-- The data property at an offset exists, so its value can be overwritten. -/
def hasDataAt (heap : Heap K) (id : ObjectId) (offset : Nat) : Bool :=
  ((heap.propertyAt? id offset).map fun entry => entry.2.isData).getD false

/-- Overwrite the value of the data property at an offset. -/
def setValueAt (heap : Heap K) (id : ObjectId) (offset : Nat) (value : Value) : Heap K :=
  heap.modify id fun object =>
    match object.properties.at? offset with
    | some (_, property) =>
        { object with properties := object.properties.setAt offset (property.withValue value) }
    | none => object

/-- Remove an own property. The remaining ones keep their order, and the object
moves to a unique shape. -/
def remove (heap : Heap K) (id : ObjectId) (key : PropertyKey) : Heap K :=
  match heap.get? id with
  | none => heap
  | some object =>
      match object.properties.offset? key with
      | none => heap
      | some offset =>
          let (shape, shapes) :=
            heap.shapes.unique object.prototype (object.properties.size - 1)
          { heap with shapes }.modify id fun object =>
            { object with shape, properties := object.properties.eraseAt offset }

/-- Replace the prototype link. An object whose prototype really changes moves to
a unique shape. Cycles and extensibility are the caller's concern. -/
def setPrototype (heap : Heap K) (id : ObjectId) (prototype : Option ObjectId) : Heap K :=
  match heap.get? id with
  | none => heap
  | some object =>
      if object.prototype == prototype then heap
      else
        let (shape, shapes) := heap.shapes.unique prototype object.properties.size
        { heap with shapes }.modify id fun object => { object with shape, prototype }

/-- Forbid new own properties. -/
def preventExtensions (heap : Heap K) (id : ObjectId) : Heap K :=
  heap.modify id fun object => { object with extensible := false }

/-- Number of live objects. -/
def size (heap : Heap K) : Nat :=
  heap.stats.live

end Heap
end ScriptVM

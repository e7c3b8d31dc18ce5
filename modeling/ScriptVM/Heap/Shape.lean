import ScriptVM.PropertyKey

/-!
# Shapes

A shape stands for a prototype and a layout of keys. Objects that start from the
same prototype and append the same keys share shapes, by way of a transition
tree; an object that leaves this pattern moves to a unique shape of its own.
-/

namespace ScriptVM

/-- Identity of a shape. -/
structure ShapeId where
  index : Nat
  deriving DecidableEq, Repr, Inhabited

/-- A node of the transition tree. -/
structure Shape where
  /-- The prototype of every object of this shape. -/
  prototype : Option ObjectId
  /-- Number of own properties in the layout. -/
  propertyCount : Nat
  /-- Shapes reached by appending one key. -/
  transitions : List (PropertyKey × ShapeId) := []
  /-- A unique shape belongs to a single object. -/
  isUnique : Bool

/-- All shapes, and the empty shape of each prototype. -/
structure ShapeTable where
  shapes : Array Shape := #[]
  roots : List (Option ObjectId × ShapeId) := []

namespace ShapeTable

/-- Number of shapes ever created. -/
def size (table : ShapeTable) : Nat :=
  table.shapes.size

/-- The shape with an identity. -/
def get? (table : ShapeTable) (id : ShapeId) : Option Shape :=
  table.shapes[id.index]?

/-- Add a shape. -/
def add (table : ShapeTable) (shape : Shape) : ShapeId × ShapeTable :=
  (⟨table.shapes.size⟩, { table with shapes := table.shapes.push shape })

/-- The empty shape of a prototype, created on first use. -/
def root (table : ShapeTable) (prototype : Option ObjectId) : ShapeId × ShapeTable :=
  match table.roots.lookup prototype with
  | some id => (id, table)
  | none =>
      let (id, table) :=
        table.add { prototype, propertyCount := 0, isUnique := false }
      (id, { table with roots := (prototype, id) :: table.roots })

/-- The shape reached by appending a key, created on first use. -/
def transition (table : ShapeTable) (source : ShapeId) (key : PropertyKey) :
    ShapeId × ShapeTable :=
  let existing := do
    let shape <- table.get? source
    shape.transitions.lookup key
  match existing with
  | some id => (id, table)
  | none =>
      let (prototype, count) :=
        match table.get? source with
        | some shape => (shape.prototype, shape.propertyCount)
        | none => (none, 0)
      let (id, table) :=
        table.add { prototype, propertyCount := count + 1, isUnique := false }
      (id, { table with
        shapes := table.shapes.modify source.index fun shape =>
          { shape with transitions := (key, id) :: shape.transitions } })

/-- A shape that no other object shares. -/
def unique (table : ShapeTable) (prototype : Option ObjectId) (count : Nat) :
    ShapeId × ShapeTable :=
  table.add { prototype, propertyCount := count, isUnique := true }

/-- Drop the empty shape of a collected prototype, so that an object that takes
over its handle starts afresh. -/
def forgetPrototype (table : ShapeTable) (prototype : ObjectId) : ShapeTable :=
  { table with roots := table.roots.filter fun entry => entry.1 != some prototype }

end ShapeTable
end ScriptVM

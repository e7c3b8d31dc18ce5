import ScriptVM.Machine.Template
import ScriptVM.Promise.Aggregate
import ScriptVM.Value

/-!
# Shared cells

State that several frames, closures or functions share. The registers of a frame
form a window. A captured variable is attached to a register of a window while
its frame lives, and holds its own value after that. The `this` of a derived
constructor is a cell that is filled once. The two halves of a pair of resolving
functions share a latch, and the functions of one combinator call an aggregate.
-/

namespace ScriptVM

/-- Identity of a register window. -/
structure WindowId where
  index : Nat
  deriving DecidableEq, Repr, Inhabited

/-- Identity of a captured variable. -/
structure UpvalueId where
  index : Nat
  deriving DecidableEq, Repr, Inhabited

/-- Identity of a `this` that is not known yet. -/
structure ThisCellId where
  index : Nat
  deriving DecidableEq, Repr, Inhabited

/-- Identity of a latch. -/
structure LatchId where
  index : Nat
  deriving DecidableEq, Repr, Inhabited

/-- Identity of an aggregate. -/
structure AggregateId where
  index : Nat
  deriving DecidableEq, Repr, Inhabited

/-- A captured variable. -/
inductive Upvalue
  /-- The variable still is a register of a live frame. -/
  | attached (window : WindowId) (register : Register)
  /-- The variable outlived its frame. -/
  | detached (value : Value)
  deriving DecidableEq, Inhabited

/-- The `this` of a scope. -/
inductive ThisBinding
  | bound (value : Value)
  /-- Filled when the parent constructor returns. -/
  | pending (cell : ThisCellId)
  deriving DecidableEq, Inhabited

/-- What arrow functions share with the function around them. -/
structure Scope where
  this : ThisBinding
  newTarget : Value := .undefined
  /-- The active function object. -/
  function : Option ObjectId := none
  /-- The object whose prototype `super` lookups start from. -/
  homeObject : Option ObjectId := none
  deriving DecidableEq, Inhabited

/-- All shared cells of a machine. -/
structure Cells where
  windows : Array (Array Value) := #[]
  upvalues : Array Upvalue := #[]
  thisCells : Array (Option Value) := #[]
  latches : Array Bool := #[]
  aggregates : Array (Aggregate Value) := #[]

namespace Cells

/-- Open a window of registers that are all undefined. -/
def openWindow (cells : Cells) (size : Nat) : WindowId × Cells :=
  (⟨cells.windows.size⟩,
    { cells with windows := cells.windows.push (Array.replicate size .undefined) })

/-- The registers of a window. -/
def window (cells : Cells) (id : WindowId) : Array Value :=
  (cells.windows[id.index]?).getD #[]

/-- Read a register; one outside of the window is undefined. -/
def register (cells : Cells) (id : WindowId) (register : Register) : Value :=
  match cells.windows[id.index]? with
  | some window => (window[register]?).getD .undefined
  | none => .undefined

/-- Write a register; one outside of the window is ignored. -/
def setRegister (cells : Cells) (id : WindowId) (register : Register) (value : Value) :
    Cells :=
  { cells with
    windows := cells.windows.modify id.index fun window =>
      window.setIfInBounds register value }

/-- Read consecutive registers. -/
def registerRange (cells : Cells) (id : WindowId) (first count : Nat) : List Value :=
  (List.range count).map fun offset => cells.register id (first + offset)

/-- Add a captured variable. -/
def addUpvalue (cells : Cells) (upvalue : Upvalue) : UpvalueId × Cells :=
  (⟨cells.upvalues.size⟩, { cells with upvalues := cells.upvalues.push upvalue })

/-- Read a captured variable. -/
def upvalue (cells : Cells) (id : UpvalueId) : Value :=
  match cells.upvalues[id.index]? with
  | some (.attached window register) => cells.register window register
  | some (.detached value) => value
  | none => .undefined

/-- Write a captured variable. -/
def setUpvalue (cells : Cells) (id : UpvalueId) (value : Value) : Cells :=
  match cells.upvalues[id.index]? with
  | some (.attached window register) => cells.setRegister window register value
  | some (.detached _) =>
      { cells with upvalues := cells.upvalues.setIfInBounds id.index (.detached value) }
  | none => cells

/-- Let a captured variable keep its present value; a detached one stays as it is. -/
def detach (cells : Cells) (id : UpvalueId) : Cells :=
  { cells with
    upvalues := cells.upvalues.setIfInBounds id.index (.detached (cells.upvalue id)) }

/-- The captured variable still is a register. -/
def isAttached (cells : Cells) (id : UpvalueId) : Bool :=
  match cells.upvalues[id.index]? with
  | some (.attached _ _) => true
  | _ => false

/-- Add a `this` that is not known yet. -/
def addThisCell (cells : Cells) : ThisCellId × Cells :=
  (⟨cells.thisCells.size⟩, { cells with thisCells := cells.thisCells.push none })

/-- The `this` of a scope, if it is known. -/
def this? (cells : Cells) (scope : Scope) : Option Value :=
  match scope.this with
  | .bound value => some value
  | .pending cell => (cells.thisCells[cell.index]?).join

/-- Give the `this` of a scope its value; false if it had one. -/
def bindThis (cells : Cells) (scope : Scope) (value : Value) : Bool × Cells :=
  match scope.this with
  | .bound _ => (false, cells)
  | .pending cell =>
      match (cells.thisCells[cell.index]?).join with
      | some _ => (false, cells)
      | none =>
          (true, { cells with
            thisCells := cells.thisCells.setIfInBounds cell.index (some value) })

/-- Add a latch that is not set. -/
def addLatch (cells : Cells) : LatchId × Cells :=
  (⟨cells.latches.size⟩, { cells with latches := cells.latches.push false })

/-- Set a latch and tell whether it was set before. -/
def setLatch (cells : Cells) (id : LatchId) : Bool × Cells :=
  ((cells.latches[id.index]?).getD false,
    { cells with latches := cells.latches.setIfInBounds id.index true })

/-- Add an aggregate. -/
def addAggregate (cells : Cells) (kind : CombinatorKind) : AggregateId × Cells :=
  (⟨cells.aggregates.size⟩,
    { cells with aggregates := cells.aggregates.push { kind } })

/-- Apply an operation to an aggregate. -/
def updateAggregate {α : Type} (cells : Cells) (id : AggregateId) (fallback : α)
    (operation : Aggregate Value -> α × Aggregate Value) : α × Cells :=
  match cells.aggregates[id.index]? with
  | none => (fallback, cells)
  | some aggregate =>
      let (answer, aggregate) := operation aggregate
      (answer, { cells with
        aggregates := cells.aggregates.setIfInBounds id.index aggregate })

/-- The objects that a captured variable keeps alive. One that is attached keeps
the whole window alive. -/
def upvalueReferences (cells : Cells) (id : UpvalueId) : List ObjectId :=
  match cells.upvalues[id.index]? with
  | some (.attached window _) =>
      (cells.window window).toList.filterMap Value.objectId?
  | some (.detached value) => value.objectId?.toList
  | none => []

/-- The objects that a scope keeps alive. -/
def scopeReferences (cells : Cells) (scope : Scope) : List ObjectId :=
  ((cells.this? scope).bind Value.objectId?).toList ++ scope.newTarget.objectId?.toList ++
    scope.function.toList ++ scope.homeObject.toList

end Cells
end ScriptVM

import ScriptVM.Machine.Host
import ScriptVM.Machine.InlineCache
import ScriptVM.Machine.References
import ScriptVM.Promise.Rejections

/-!
# The machine

The state of a machine: its heap and shared cells, the frame stack, queued jobs,
inline caches, symbols and the functions that the embedder registered.
-/

namespace ScriptVM

/-- Allocate a native function object with its length and name. -/
def Heap.allocateNative (heap : Heap ObjectKind) (functionPrototype : ObjectId)
    (function : NativeFunction) (arity : Nat) : ObjectId × Heap ObjectKind :=
  let (id, heap) := heap.allocate (some functionPrototype) (.native function)
  let heap := heap.define id "length" (.ofData (.ofNat arity) false false true)
  (id, heap.define id "name" (.ofData (.string function.name) false false true))

/-- The objects that the machine itself refers to. -/
structure Intrinsics where
  global : ObjectId
  objectPrototype : ObjectId
  functionPrototype : ObjectId
  arrayPrototype : ObjectId
  stringPrototype : ObjectId
  numberPrototype : ObjectId
  booleanPrototype : ObjectId
  symbolPrototype : ObjectId
  iteratorPrototype : ObjectId
  arrayIteratorPrototype : ObjectId
  generatorPrototype : ObjectId
  promisePrototype : ObjectId
  errorPrototype : ObjectId
  typeErrorPrototype : ObjectId
  referenceErrorPrototype : ObjectId
  rangeErrorPrototype : ObjectId
  syntaxErrorPrototype : ObjectId
  aggregateErrorPrototype : ObjectId
  deriving DecidableEq, Repr

namespace Intrinsics

/-- The prototype of error objects of a kind. -/
def errorPrototypeOf (intrinsics : Intrinsics) : ErrorKind -> ObjectId
  | .typeError => intrinsics.typeErrorPrototype
  | .referenceError => intrinsics.referenceErrorPrototype
  | .rangeError => intrinsics.rangeErrorPrototype
  | .syntaxError => intrinsics.syntaxErrorPrototype
  | .aggregateError => intrinsics.aggregateErrorPrototype
  | .error | .internalError => intrinsics.errorPrototype

/-- The intrinsics, which every collection keeps. -/
def roots (intrinsics : Intrinsics) : List ObjectId :=
  [ intrinsics.global
  , intrinsics.objectPrototype
  , intrinsics.functionPrototype
  , intrinsics.arrayPrototype
  , intrinsics.stringPrototype
  , intrinsics.numberPrototype
  , intrinsics.booleanPrototype
  , intrinsics.symbolPrototype
  , intrinsics.iteratorPrototype
  , intrinsics.arrayIteratorPrototype
  , intrinsics.generatorPrototype
  , intrinsics.promisePrototype
  , intrinsics.errorPrototype
  , intrinsics.typeErrorPrototype
  , intrinsics.referenceErrorPrototype
  , intrinsics.rangeErrorPrototype
  , intrinsics.syntaxErrorPrototype
  , intrinsics.aggregateErrorPrototype ]

end Intrinsics

/-- A queued microtask. -/
inductive Job (σ : Type)
  /-- Run one handler of a settled promise and settle the derived promise. -/
  | reaction (handler : Handler) (capability : Option ObjectId)
      (settlement : Settlement) (argument : Value)
  /-- Call the `then` method of a value that a promise is resolved with. -/
  | resolveThenable (promise : ObjectId) (thenable thenMethod : Value)
  | host (body : HostProgram σ)

/-- The objects that a job keeps alive. What a host program holds is the
embedder's concern. -/
def Job.references {σ : Type} : Job σ -> List ObjectId
  | reaction handler capability _ argument =>
      handler.references ++ capability.toList ++ argument.objectId?.toList
  | resolveThenable promise thenable thenMethod =>
      promise :: valueReferences [thenable, thenMethod]
  | host _ => []

/-- What is done to promises and to microtasks, and what becomes of rejections. -/
inductive PromiseEvent (σ : Type)
  | created (promise : ObjectId)
  | registered (promise : ObjectId) (reaction : Reaction)
  | settled (promise : ObjectId) (settlement : Settlement) (value : Value)
  /-- A microtask is queued that is no reaction to a settlement. -/
  | queued (job : Job σ)
  /-- A microtask that was taken from the queue is run. -/
  | started (job : Job σ)
  /-- A checkpoint emptied the queue of microtasks. -/
  | finished
  /-- The embedder took the reasons that were reported. -/
  | handedOut (reasons : List Value)

/-- A machine whose embedder has state `σ`. -/
structure Machine (σ : Type) where
  heap : Heap ObjectKind
  cells : Cells := {}
  /-- The running frames, innermost last. -/
  frames : Array Frame := #[]
  /-- Native calls that are under way. -/
  nativeDepth : Nat := 0
  /-- The inline caches of each template. -/
  caches : Array (Array InlineCache) := #[]
  intrinsics : Intrinsics
  /-- The descriptions of all symbols. -/
  symbols : Array (Option String)
  jobs : EventLoop (Job σ) (HostProgram σ) := {}
  rejections : Rejections ObjectId := {}
  /-- Reasons of rejections that are due to be reported. -/
  unhandled : List Value := []
  hosts : Array (HostFunction σ) := #[]
  config : Config
  /-- What was done so far, oldest first. No operation reads it. -/
  journal : Array (PromiseEvent σ) := #[]
  /-- The embedder's own state. -/
  world : σ

namespace Machine

variable {σ : Type}

/-- The internal slots of an object. -/
def kind? (machine : Machine σ) (id : ObjectId) : Option ObjectKind :=
  machine.heap.payload? id

/-- The internal slots of an object value. -/
def kindOf? (machine : Machine σ) (value : Value) : Option ObjectKind :=
  value.objectId?.bind machine.kind?

/-- The object is a proxy. -/
def isProxy (machine : Machine σ) (id : ObjectId) : Bool :=
  ((machine.kind? id).map ObjectKind.isProxy).getD false

/-- The value that names an object, tagged by whether it can be called. -/
def objectValue (machine : Machine σ) (id : ObjectId) : Value :=
  if ((machine.kind? id).map ObjectKind.isCallable).getD false then .function id
  else .object id

/-- The description of a symbol. -/
def symbolDescription (machine : Machine σ) (id : SymbolId) : Option String :=
  (machine.symbols[id.index]?).join

/-- The text of a symbol. -/
def symbolText (machine : Machine σ) (id : SymbolId) : String :=
  "Symbol(" ++ (machine.symbolDescription id).getD "" ++ ")"

/-- The prototype on which a primitive looks up its properties. -/
def primitivePrototype? (machine : Machine σ) : Value -> Option ObjectId
  | .string _ => some machine.intrinsics.stringPrototype
  | .number _ => some machine.intrinsics.numberPrototype
  | .boolean _ => some machine.intrinsics.booleanPrototype
  | .symbol _ => some machine.intrinsics.symbolPrototype
  | _ => none

/-- Change the heap. -/
def modifyHeap (machine : Machine σ) (change : Heap ObjectKind -> Heap ObjectKind) :
    Machine σ :=
  { machine with heap := change machine.heap }

/-- Change the shared cells. -/
def modifyCells (machine : Machine σ) (change : Cells -> Cells) : Machine σ :=
  { machine with cells := change machine.cells }

/-- Change the innermost frame. -/
def modifyTop (machine : Machine σ) (change : Frame -> Frame) : Machine σ :=
  { machine with frames := machine.frames.modify (machine.frames.size - 1) change }

/-- The innermost frame. -/
def top? (machine : Machine σ) : Option Frame :=
  machine.frames.back?

/-- Read a register of the innermost frame. -/
def register (machine : Machine σ) (register : Register) : Value :=
  match machine.frames.back? with
  | some frame => machine.cells.register frame.window register
  | none => .undefined

/-- Write a register of the innermost frame. -/
def setRegister (machine : Machine σ) (register : Register) (value : Value) : Machine σ :=
  match machine.frames.back? with
  | some frame =>
      let window := frame.window
      machine.modifyCells fun cells => cells.setRegister window register value
  | none => machine

/-- The stack frame text of a running frame. -/
def describeFrame (frame : Frame) : StackFrame :=
  let position := (frame.template.chunk.positionAt? (frame.next - 1)).getD {}
  let name := frame.template.name
  { functionName := if name == "" then none else some name
    sourceUrl := none
    line := position.line
    column := position.column }

/-- The call stack, innermost frame first. -/
def captureStack (machine : Machine σ) : List StackFrame :=
  machine.frames.toList.reverse.map describeFrame

/-- Attach the call stack to a fault that has none. -/
def attachStack (machine : Machine σ) : Exception -> Exception
  | .fault fault =>
      if fault.stack.isEmpty then .fault (fault.withStack machine.captureStack)
      else .fault fault
  | exception => exception

/-- Allocate an object. -/
def allocate (machine : Machine σ) (prototype : Option ObjectId) (kind : ObjectKind) :
    ObjectId × Machine σ :=
  let (id, heap) := machine.heap.allocate prototype kind
  (id, { machine with heap })

/-- Allocate a plain object. -/
def allocateOrdinary (machine : Machine σ) : ObjectId × Machine σ :=
  machine.allocate (some machine.intrinsics.objectPrototype) .ordinary

/-- Allocate an array. -/
def createArray (machine : Machine σ) (elements : Array Value) : Value × Machine σ :=
  let (id, machine) :=
    machine.allocate (some machine.intrinsics.arrayPrototype) (.array { elements })
  (.object id, machine)

/-- Define an own property of an object directly. -/
def defineRaw (machine : Machine σ) (id : ObjectId) (key : PropertyKey)
    (property : Property) : Machine σ :=
  machine.modifyHeap fun heap => heap.define id key property

/-- Make an error object out of a fault. -/
def errorObject (machine : Machine σ) (fault : Fault) : Value × Machine σ :=
  let (id, machine) :=
    machine.allocate (some (machine.intrinsics.errorPrototypeOf fault.kind)) .error
  let machine := machine.defineRaw id "message" (.hidden (.string fault.message))
  let machine := machine.defineRaw id "stack" (.hidden (.string fault.trace))
  let machine :=
    if fault.kind == .internalError then
      machine.defineRaw id "name" (.hidden (.string "InternalError"))
    else machine
  (.object id, machine)

/-- The value that a handler of an exception gets. -/
def exceptionValue (machine : Machine σ) : Exception -> Value × Machine σ
  | .value value => (value, machine)
  | .fault fault => machine.errorObject fault

/-- Create an error object with the present call stack. -/
def createError (machine : Machine σ) (kind : ErrorKind) (message : String) :
    Value × Machine σ :=
  let fault : Fault := { kind, message }
  machine.errorObject (fault.withStack machine.captureStack)

/-- The result object of an iterator step. -/
def iterationResult (machine : Machine σ) (value : Value) (done : Bool) :
    Value × Machine σ :=
  let (id, machine) := machine.allocateOrdinary
  let machine := machine.defineRaw id "value" (.plain value)
  (.object id, machine.defineRaw id "done" (.plain (.boolean done)))

/-- Allocate a native function object. -/
def createNative (machine : Machine σ) (native : NativeFunction) (arity : Nat) :
    Value × Machine σ :=
  let (id, heap) :=
    machine.heap.allocateNative machine.intrinsics.functionPrototype native arity
  (.function id, { machine with heap })

/-- Create a symbol. -/
def newSymbol (machine : Machine σ) (description : Option String) : Value × Machine σ :=
  (.symbol ⟨machine.symbols.size⟩,
    { machine with symbols := machine.symbols.push description })

/-- Write down what is done. -/
def note (machine : Machine σ) (event : PromiseEvent σ) : Machine σ :=
  { machine with journal := machine.journal.push event }

/-- Allocate a pending promise. -/
def allocatePromise (machine : Machine σ) (prototype : ObjectId) : ObjectId × Machine σ :=
  let (promise, machine) := machine.allocate (some prototype) (.promise {})
  (promise, machine.note (.created promise))

/-- Queue a microtask. -/
def enqueueJob (machine : Machine σ) (job : Job σ) : Machine σ :=
  { machine with jobs := machine.jobs.enqueueMicrotask job }

/-- Queue a microtask that is no reaction. -/
def submitJob (machine : Machine σ) (job : Job σ) : Machine σ :=
  (machine.enqueueJob job).note (.queued job)

end Machine
end ScriptVM

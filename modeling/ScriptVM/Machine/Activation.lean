import ScriptVM.Machine.Exec
import ScriptVM.Machine.Routing

/-!
# Activations

How frames come and go: binding the arguments of a call, pushing and popping, and
the function objects that a running frame makes from the functions nested in its
code.
-/

namespace ScriptVM
namespace Machine

variable {σ : Type}

/-- The closure of a function object. -/
def closure? (machine : Machine σ) (id : ObjectId) : Option Closure :=
  match machine.kind? id with
  | some (.function closure) => some closure
  | _ => none

/-- Change the closure of a function object. -/
def modifyClosure (machine : Machine σ) (id : ObjectId) (change : Closure -> Closure) :
    Machine σ :=
  machine.modifyHeap fun heap => heap.modifyPayload id fun kind =>
    match kind with
    | .function closure => .function (change closure)
    | kind => kind

/-- Push a frame. -/
def pushFrame (machine : Machine σ) (frame : Frame) : Machine σ :=
  { machine with frames := machine.frames.push frame }

/-- Take the innermost frame off the stack to keep it. -/
def takeFrame (machine : Machine σ) : Machine σ :=
  { machine with frames := machine.frames.pop }

/-- Pop the innermost frame for good, with its captured variables detached. -/
def popFrame (machine : Machine σ) : Machine σ :=
  match machine.frames.back? with
  | none => machine
  | some frame =>
      let (_, cells) := frame.detachFrom machine.cells 0
      { machine with frames := machine.frames.pop, cells }

/-- Detach the captured variables of the innermost frame from a register on. -/
def detachFrom (machine : Machine σ) (first : Register) : Machine σ :=
  match machine.frames.back? with
  | none => machine
  | some frame =>
      let (frame, cells) := frame.detachFrom machine.cells first
      { machine with
        cells
        frames := machine.frames.setIfInBounds (machine.frames.size - 1) frame }

/-- Write values to consecutive registers of a window. -/
def fillRegisters (cells : Cells) (window : WindowId) (register : Register) :
    List Value -> Cells
  | [] => cells
  | value :: rest =>
      fillRegisters (cells.setRegister window register value) window (register + 1) rest

/-- A frame for a closure, with parameters and rest parameter bound. -/
def openFrame (machine : Machine σ) (function : ObjectId) (closure : Closure)
    (scope : Scope) (arguments : List Value) (returnTo : ReturnTo) : Frame × Machine σ :=
  let info := closure.template.chunk.info
  let (frame, cells) := Frame.start machine.cells closure.template scope returnTo
  let cells :=
    fillRegisters cells frame.window 0 (arguments.take info.parameterCount)
  let machine := { machine with cells }
  let frame :=
    { frame with function := some function, upvalues := closure.upvalues, arguments }
  if info.hasRest then
    let (rest, machine) := machine.createArray (arguments.drop info.parameterCount).toArray
    (frame, machine.modifyCells fun cells =>
      cells.setRegister frame.window info.parameterCount rest)
  else (frame, machine)

/-- The scope of a plain call. Arrow functions keep that of the function around
them; in sloppy code the global object stands in for a missing receiver. -/
def callScope (machine : Machine σ) (function : ObjectId) (closure : Closure)
    (receiver : Value) : Scope :=
  if closure.template.kind.isArrow then
    closure.lexicalScope.getD { this := .bound .undefined }
  else
    let receiver :=
      if !closure.template.isStrict && receiver.isNullish then
        .object machine.intrinsics.global
      else receiver
    { this := .bound receiver
      function := some function
      homeObject := closure.homeObject }

/-- A frame for a plain call of a closure. -/
def callFrame (machine : Machine σ) (function : ObjectId) (closure : Closure)
    (receiver : Value) (arguments : List Value) (returnTo : ReturnTo) :
    Frame × Machine σ :=
  machine.openFrame function closure (machine.callScope function closure receiver)
    arguments returnTo

/-- A closure that can run as a frame of the current dispatch run. -/
def inlineCallee? (machine : Machine σ) (callee : Value) : Option (ObjectId × Closure) :=
  match callee with
  | .function id => do
      let closure <- machine.closure? id
      let kind := closure.template.kind
      if kind.isGenerator || kind.isAsync || kind.isClassConstructor then none
      else some (id, closure)
  | _ => none

/-- The object that instances made by a new function get as prototype, if the kind
of function has one. -/
def instancePrototype? (machine : Machine σ) (function : ObjectId) :
    FunctionKind -> Option ObjectId × Machine σ
  | .normal =>
      let (id, machine) := machine.allocateOrdinary
      (some id, machine.defineRaw id "constructor" (.hidden (.function function)))
  | .generator =>
      let (id, machine) :=
        machine.allocate (some machine.intrinsics.generatorPrototype) .ordinary
      (some id, machine)
  | _ => (none, machine)

/-- Allocate the function object of a closure. -/
def instantiate (machine : Machine σ) (closure : Closure) : Value × Machine σ :=
  let info := closure.template.chunk.info
  let (id, machine) :=
    machine.allocate (some machine.intrinsics.functionPrototype) (.function closure)
  let machine :=
    machine.defineRaw id "length" (.ofData (.ofNat info.parameterCount) false false true)
  let machine :=
    machine.defineRaw id "name" (.ofData (.string info.name) false false true)
  match machine.instancePrototype? id info.kind with
  | (some prototype, machine) =>
      (.function id,
        machine.defineRaw id "prototype" (.ofData (.object prototype) true false false))
  | (none, machine) => (.function id, machine)

/-- Resolve captures against a frame. -/
def resolveCaptures (frame : Frame) (cells : Cells) :
    List Capture -> Option (List UpvalueId) × Frame × Cells
  | [] => (some [], frame, cells)
  | .register register :: rest =>
      let (id, frame, cells) := frame.capture cells register
      let (ids, frame, cells) := resolveCaptures frame cells rest
      (ids.map (id :: ·), frame, cells)
  | .upvalue index :: rest =>
      match frame.upvalues[index]? with
      | none => (none, frame, cells)
      | some id =>
          let (ids, frame, cells) := resolveCaptures frame cells rest
          (ids.map (id :: ·), frame, cells)

/-- The closure of a nested function over the innermost frame; none if a capture
cannot be resolved. -/
def captureClosure (machine : Machine σ) (template : Template) :
    Option Closure × Machine σ :=
  match machine.frames.back? with
  | none => (none, machine)
  | some frame =>
      let lexicalScope := if template.kind.isArrow then some frame.scope else none
      let (upvalues, frame, cells) :=
        resolveCaptures frame machine.cells template.chunk.info.captures
      (upvalues.map fun upvalues =>
          { template, upvalues := upvalues.toArray, lexicalScope },
        { machine with
          cells
          frames := machine.frames.setIfInBounds (machine.frames.size - 1) frame })

end Machine
end ScriptVM

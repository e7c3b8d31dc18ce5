import ScriptVM.Machine.Objects
import ScriptVM.Machine.Display

/-!
# Computations of the machine

A computation changes the machine and may throw. Where an operation can run user
code that leads back to the same operation, it goes through an invocation; what
invocations do is supplied from outside, together with the fuel that bounds them.
So every operation is an ordinary definition over the same interface, and the only
recursion is on fuel.

The outside also watches: it may interrupt a run after any change of the machine, between
two instructions, before an instruction uses one of its operands, and where a frame suspends
out of place. Nothing handles an interruption, so it tells what the machine was like in the
middle of the run.
-/

namespace ScriptVM

/-- An operation that user code can lead back to. -/
inductive Invocation
  | call (callee receiver : Value) (arguments : List Value)
  | construct (callee : Value) (arguments : List Value) (newTarget : Value)
  | get (object : ObjectId) (key : PropertyKey) (receiver : Value)
  | set (object : ObjectId) (key : PropertyKey) (value receiver : Value)
  | has (object : ObjectId) (key : PropertyKey)
  | delete (target : Value) (key : PropertyKey)
  | prototypeOf (object : ObjectId)
  | instanceOf (value target : Value)
  /-- Drain the microtask queue and count what ran. -/
  | checkpoint
  /-- Run tasks and microtasks until none is left. -/
  | untilIdle

/-- The answer to an invocation. -/
abbrev Invocation.Answer : Invocation -> Type
  | call .. | construct .. | get .. => Value
  | set .. | has .. | delete .. | instanceOf .. => Bool
  | prototypeOf _ => Option ObjectId
  | checkpoint => Nat
  | untilIdle => LoopStats

/-- What an operand of an instruction refers to. -/
inductive Referent
  /-- A register of the frame. -/
  | register (register : Register)
  | constant (index : Nat)
  /-- A constant that must be a string. -/
  | name (index : Nat)
  /-- A nested function. -/
  | function (index : Nat)
  | cacheSlot (slot : Nat)
  deriving DecidableEq, Repr

/-- An internal error about a suspension that is out of place. -/
inductive Misstep
  /-- A frame suspends that belongs to no coroutine or was called in place. -/
  | outsideCoroutineFrame
  /-- A frame suspends that native code called. -/
  | outsideCoroutine
  /-- A new generator does anything but come to its initial yield. -/
  | missedInitialYield
  /-- A generator awaits, or comes to its initial yield once more. -/
  | inGenerator
  /-- An async function yields. -/
  | inAsync
  deriving DecidableEq, Repr

namespace Misstep

/-- The text of the error. -/
def message : Misstep -> String
  | outsideCoroutineFrame => "suspension outside a coroutine frame"
  | outsideCoroutine => "unexpected suspension outside a coroutine"
  | missedInitialYield => "generator prologue did not reach InitialYield"
  | inGenerator => "unexpected suspension in a generator"
  | inAsync => "yield inside an async function"

end Misstep

/-- What the outside sees of a run: the machine, and what the instruction of its
innermost frame is about to use. -/
structure Sight (σ : Type) where
  machine : Machine σ
  used : Option Referent := none
  /-- The innermost frame is about to carry out its next instruction. -/
  between : Bool := false
  /-- A frame has suspended out of place, and the error is about to be raised. -/
  misstep : Option (Misstep × Frame) := none

/-- Why a computation of the machine stopped early. -/
inductive Stop (σ : Type)
  | thrown (exception : Exception)
  | outOfFuel
  /-- The watch picked this sight. -/
  | interrupted (sight : Sight σ)

/-- A computation that needs nothing from outside. -/
abbrev Step (σ : Type) := EStateM (Stop σ) (Machine σ)

/-- What a computation gets from outside. -/
structure Env (σ : Type) where
  /-- Bounds every loop. -/
  fuel : Nat
  /-- Picks the sights at which a run is interrupted. -/
  watch : Sight σ -> Bool
  /-- Performs invocations. -/
  perform : (invocation : Invocation) -> Step σ invocation.Answer

/-- A computation of the machine. -/
abbrev Exec (σ : Type) := ReaderT (Env σ) (Step σ)

namespace Exec

variable {σ α : Type}

/-- Throw an exception. -/
@[inline] def raise (exception : Exception) : Exec σ α :=
  fun _ machine => .error (.thrown exception) machine

/-- Run a computation and give its exception as a value. Nothing else is caught. -/
def attempt (computation : Exec σ α) : Exec σ (Except Exception α) :=
  fun env machine =>
    match computation env machine with
    | .ok answer machine => .ok (.ok answer) machine
    | .error (.thrown exception) machine => .ok (.error exception) machine
    | .error stop machine => .error stop machine

/-- Go on with the answer, or throw the exception. -/
@[inline] def ofExcept : Except Exception α -> Exec σ α
  | .ok answer => pure answer
  | .error exception => raise exception

/-- Stop because the fuel ran out. -/
@[inline] def exhausted : Exec σ α :=
  fun _ machine => .error .outOfFuel machine

/-- Ask the machine without changing it. -/
@[inline] def ask (query : Machine σ -> α) : Exec σ α :=
  fun _ machine => .ok (query machine) machine

/-- Change the machine and give an answer, unless the watch picks the new machine. -/
@[inline] def change (operation : Machine σ -> α × Machine σ) : Exec σ α :=
  fun env machine =>
    let (answer, machine) := operation machine
    if env.watch { machine } then .error (.interrupted { machine }) machine
    else .ok answer machine

/-- Change the machine. -/
@[inline] def update (operation : Machine σ -> Machine σ) : Exec σ Unit :=
  change fun machine => ((), operation machine)

/-- Let the watch see the machine. -/
def observe : Exec σ Unit :=
  update id

/-- Write down what is done. -/
def note (event : PromiseEvent σ) : Exec σ Unit :=
  update fun machine => machine.note event

/-- Let the watch see what is used next. -/
@[inline] def use (referent : Referent) : Exec σ Unit :=
  fun env machine =>
    let sight : Sight σ := { machine, used := some referent }
    if env.watch sight then .error (.interrupted sight) machine else .ok () machine

/-- Let the watch see that the next instruction comes now. -/
@[inline] def pause : Exec σ Unit :=
  fun env machine =>
    let sight : Sight σ := { machine, between := true }
    if env.watch sight then .error (.interrupted sight) machine else .ok () machine

/-- Raise the error about a frame that suspends out of place, and let the watch see it. -/
def stray (misstep : Misstep) (frame : Frame) : Exec σ α :=
  fun env machine =>
    let sight : Sight σ := { machine, misstep := some (misstep, frame) }
    if env.watch sight then .error (.interrupted sight) machine
    else .error (.thrown (.internalError misstep.message)) machine

/-- Perform an invocation. -/
@[inline] def perform (invocation : Invocation) : Exec σ invocation.Answer :=
  fun env => env.perform invocation

/-- The fuel for loops. -/
def fuel : Exec σ Nat :=
  fun env machine => .ok env.fuel machine

/-- Go through states until one step answers, for at most `fuel` steps. -/
def iterateFrom {β : Type} (step : β -> Exec σ (β ⊕ α)) (env : Env σ) :
    (fuel : Nat) -> β -> Machine σ -> EStateM.Result (Stop σ) (Machine σ) α
  | 0, _, machine => .error .outOfFuel machine
  | fuel + 1, state, machine =>
      match step state env machine with
      | .ok (.inl state) machine => iterateFrom step env fuel state machine
      | .ok (.inr answer) machine => .ok answer machine
      | .error stop machine => .error stop machine

/-- Go through states until one step answers. -/
def iterate {β : Type} (step : β -> Exec σ (β ⊕ α)) (state : β) : Exec σ α :=
  fun env machine => iterateFrom step env env.fuel state machine

/-- Throw a fault about a type whose message depends on the machine. -/
def typeError (message : Machine σ -> String) : Exec σ α := do
  raise (.typeError (<- ask message))

/-- Run a computation one native call deeper. -/
def withNativeDepth (computation : Exec σ α) : Exec σ α := do
  if <- ask fun machine => decide (machine.config.maxNativeDepth <= machine.nativeDepth) then
    raise .stackOverflow
  update fun machine => { machine with nativeDepth := machine.nativeDepth + 1 }
  let outcome <- attempt computation
  update fun machine => { machine with nativeDepth := machine.nativeDepth - 1 }
  ofExcept outcome

/-- Refuse a call if the frame stack is full. -/
def checkCallDepth : Exec σ Unit := do
  if <- ask fun machine => decide (machine.config.maxCallDepth <= machine.frames.size) then
    raise .stackOverflow

/-- Call a function. -/
def call (callee receiver : Value) (arguments : List Value) : Exec σ Value :=
  perform (.call callee receiver arguments)

/-- The value that a handler of an exception gets. -/
def exceptionValue (exception : Exception) : Exec σ Value :=
  change fun machine => machine.exceptionValue exception

/-- Allocate an object. -/
def allocate (prototype : Option ObjectId) (kind : ObjectKind) : Exec σ ObjectId :=
  change fun machine => machine.allocate prototype kind

/-- Define an own property of an object directly. -/
def defineRaw (id : ObjectId) (key : PropertyKey) (property : Property) : Exec σ Unit :=
  update fun machine => machine.defineRaw id key property

/-- Allocate an array. -/
def createArray (elements : List Value) : Exec σ Value :=
  change fun machine => machine.createArray elements.toArray

end Exec
end ScriptVM

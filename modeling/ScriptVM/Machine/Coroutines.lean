import ScriptVM.Machine.Dispatch
import ScriptVM.Machine.Promises

/-!
# Coroutines

Generators and async functions run in a frame that moves between the stack and the
coroutine object. A generator is resumed by its methods; an async function is
resumed by the promise it awaits and settles a promise of its own in the end.
-/

namespace ScriptVM
namespace Machine

variable {σ : Type}

/-- The coroutine of an object. -/
def coroutine? (machine : Machine σ) (id : ObjectId) : Option Coroutine :=
  match machine.kind? id with
  | some (.coroutine coroutine) => some coroutine
  | _ => none

/-- Store the state of a coroutine, with its frame while it is suspended. -/
def park (machine : Machine σ) (id : ObjectId) (state : CoroutineState)
    (frame : Option Frame) : Machine σ :=
  machine.modifyHeap fun heap => heap.modifyPayload id fun kind =>
    match kind with
    | .coroutine coroutine => .coroutine { coroutine with state, frame }
    | kind => kind

end Machine

namespace Exec

variable {σ : Type}

/-- Store the state of a coroutine, with its frame while it is suspended. -/
def park (id : ObjectId) (state : CoroutineState) (frame : Option Frame) : Exec σ Unit :=
  update fun machine => machine.park id state frame

/-- Take the frame of a coroutine that is about to run. -/
def unpark (id : ObjectId) : Exec σ (Option Frame) := do
  let coroutine <- ask fun machine => machine.coroutine? id
  park id .running none
  return coroutine.bind Coroutine.frame

/-- The frame of a coroutine as it goes on after a resumption: the value that was
sent in arrives in a register, or is kept for the iterator it delegates to. -/
def receive (frame : Frame) (mode : ResumeMode) (value : Value) : Exec σ Frame := do
  if frame.delegating then
    return { frame with delegating := false, delegation := some (mode, value) }
  match mode, frame.resumeRegister with
  | .next, some register =>
      update fun machine => machine.modifyCells fun cells =>
        cells.setRegister frame.window register value
      return { frame with resumeRegister := none }
  | _, _ => return frame

/-- How a resumption enters the innermost frame. -/
def enter (base : Nat) (delegating : Bool) (mode : ResumeMode) (value : Value) :
    Exec σ Flow :=
  if delegating then pure .continue
  else
    match mode with
    | .next => pure .continue
    | .throw => raise (.value value)
    | .return => returnValue base value

/-- Push the frame of a coroutine as the base of a dispatch run, resume it and run it
until it suspends or ends. -/
def runCoroutine (frame : Frame) (mode : ResumeMode) (value : Value) :
    Exec σ FrameExit := do
  let resumed <- receive frame mode value
  withNativeDepth do
    checkCallDepth
    let base <- ask fun machine => machine.frames.size
    update fun machine => machine.pushFrame resumed
    runFrom base (enter base frame.delegating mode value)

/-- Allocate a running coroutine. -/
def createCoroutine (prototype : ObjectId) (kind : CoroutineKind) : Exec σ ObjectId :=
  allocate (some prototype) (.coroutine { state := .running, frame := none, kind })

/-- Create the generator of a call. Its parameters are set up at once. -/
def createGenerator (function : ObjectId) (frame : Frame) : Exec σ Value := do
  let fallback <- ask fun machine => machine.intrinsics.generatorPrototype
  let prototype <- prototypeFromConstructor (.function function) fallback
  let id <- createCoroutine prototype .generator
  match <- attempt (runCoroutine { frame with coroutine := some id } .next .undefined) with
  | .ok (.started frame) =>
      park id .suspendedStart (some frame)
      return .object id
  | .ok _ =>
      park id .completed none
      stray .missedInitialYield frame
  | .error exception =>
      park id .completed none
      raise exception

/-- The result of resuming a generator that has no frame any more. -/
def resumeCompleted (mode : ResumeMode) (value : Value) : Exec σ Value :=
  match mode with
  | .next => iterationResult .undefined true
  | .return => iterationResult value true
  | .throw => raise (.value value)

/-- Resume a generator that is suspended. -/
def resumeSuspended (id : ObjectId) (mode : ResumeMode) (value : Value) :
    Exec σ Value := do
  match <- unpark id with
  | none => raise (.internalError "suspended generator without a frame")
  | some frame =>
      match <- attempt (runCoroutine frame mode value) with
      | .ok (.yielded value frame delegated) =>
          park id .suspendedYield (some frame)
          if delegated then return value else iterationResult value false
      | .ok (.returned value) =>
          park id .completed none
          iterationResult value true
      | .ok _ =>
          park id .completed none
          stray .inGenerator frame
      | .error exception =>
          park id .completed none
          raise exception

/-- The method that resumes a generator in a mode. -/
def resumeMethod : ResumeMode -> String
  | .next => "Generator.prototype.next"
  | .return => "Generator.prototype.return"
  | .throw => "Generator.prototype.throw"

/-- The object of a generator. -/
def generator? (machine : Machine σ) (value : Value) : Option (ObjectId × Coroutine) := do
  let id <- value.objectId?
  let coroutine <- machine.coroutine? id
  if coroutine.kind == .generator then some (id, coroutine) else none

/-- Resume a generator. -/
def resumeGenerator (generator : Value) (mode : ResumeMode) (value : Value) :
    Exec σ Value := do
  match <- ask fun machine => generator? machine generator with
  | none =>
      typeError fun machine =>
        resumeMethod mode ++ " called on incompatible receiver " ++
          machine.display generator
  | some (id, coroutine) =>
      match coroutine.state with
      | .running => raise (.typeError "Generator is already running")
      | .completed => resumeCompleted mode value
      | .suspendedYield => resumeSuspended id mode value
      | .suspendedStart =>
          if mode == .next then resumeSuspended id mode value
          else
            park id .completed none
            resumeCompleted mode value

/-- Park an async function that awaits a value, or settle its promise. -/
def concludeAsync (coroutine promise : ObjectId) (outcome : Except Exception FrameExit) :
    Exec σ Unit := do
  match outcome with
  | .ok (.awaiting value frame) =>
      park coroutine .suspendedYield (some frame)
      registerReaction (<- promiseOf value)
        { capability := none
          onFulfilled := .asyncResume coroutine
          onRejected := .asyncResume coroutine }
  | .ok (.returned value) =>
      park coroutine .completed none
      resolvePromise promise value
  | .ok (.yielded _ frame _) | .ok (.started frame) =>
      park coroutine .completed none
      stray .inAsync frame
  | .error exception =>
      park coroutine .completed none
      rejectWith promise exception

/-- Call an async function: run it up to its first wait and give its promise. -/
def startAsync (frame : Frame) : Exec σ Value := do
  let promise <- newPromise
  let prototype <- ask fun machine => machine.intrinsics.objectPrototype
  let coroutine <- createCoroutine prototype (.async promise)
  let frame := { frame with coroutine := some coroutine }
  concludeAsync coroutine promise (<- attempt (runCoroutine frame .next .undefined))
  return .object promise

/-- The way in which a settlement resumes an async function. -/
def resumption : Settlement -> ResumeMode
  | .fulfilled => .next
  | .rejected => .throw

/-- Resume an async function with the settlement of the promise that it awaits. -/
def resumeAsync (id : ObjectId) (settlement : Settlement) (value : Value) :
    Exec σ Unit := do
  match <- ask fun machine => machine.coroutine? id with
  | some { state := .suspendedYield, frame := _, kind := .async promise } =>
      match <- unpark id with
      | none => raise (.internalError "parked async function without a frame")
      | some frame =>
          concludeAsync id promise
            (<- attempt (runCoroutine frame (resumption settlement) value))
  | _ =>
      raise (.internalError "resuming an async function that is not parked")

end Exec
end ScriptVM

import ScriptVM.Machine.Cells
import ScriptVM.Machine.Exception

/-!
# Call frames

A frame is the activation of a function: where it stands in its code, its
registers and captured variables, the try regions it is in, and the completions
that its finally bodies will resume.
-/

namespace ScriptVM

/-- How a suspended coroutine is resumed. -/
inductive ResumeMode
  | next
  | throw
  | return
  deriving DecidableEq, Repr

/-- A try region of a frame. -/
inductive TryRegion
  /-- An active try body, or a catch body guarded by a finally body. -/
  | handler (catchTarget finallyTarget : Option Nat)
  /-- A running finally body; its completion is the one at this depth. -/
  | finallyBody (completionDepth : Nat)
  deriving DecidableEq, Repr

/-- What a finally body resumes when it ends. -/
inductive Completion
  /-- Go on after the finally body. -/
  | normal
  | return (value : Value)
  | throw (exception : Exception)
  /-- Jump once `depth` more regions are left. -/
  | jump (target depth : Nat)
  deriving DecidableEq

/-- Where the result of a frame goes. -/
inductive ReturnTo
  /-- To the native caller that pushed the frame. -/
  | boundary
  /-- Into a register of the frame below. -/
  | caller (destination : Register)
  /-- To wherever the frame below returns. -/
  | tailReturn
  deriving DecidableEq, Repr

/-- How the result of a constructor is completed. -/
inductive ConstructKind
  /-- Not a constructor call. -/
  | none
  /-- Anything but an object is replaced by `this`. -/
  | base
  /-- Undefined is replaced by the `this` of the parent constructor. -/
  | derived
  deriving DecidableEq, Repr

/-- The activation of a function. -/
structure Frame where
  template : Template
  /-- The function object, none for scripts. -/
  function : Option ObjectId := none
  /-- The offset of the next instruction. -/
  next : Nat := 0
  window : WindowId
  /-- The captured variables of the running closure. -/
  upvalues : Array UpvalueId := #[]
  /-- The captured registers of this frame, in the order of capture. -/
  attached : List (Register × UpvalueId) := []
  scope : Scope
  /-- The arguments as they were passed. -/
  arguments : List Value := []
  argumentsObject : Option ObjectId := none
  /-- The try regions, innermost first. -/
  tryRegions : List TryRegion := []
  /-- The pending completions of finally bodies, outermost first. -/
  completions : Array Completion := #[]
  /-- The exception that entered the current catch body. -/
  exception : Option Value := none
  returnTo : ReturnTo := .boundary
  construct : ConstructKind := .none
  /-- The coroutine this frame belongs to. -/
  coroutine : Option ObjectId := none
  /-- The register that takes the next value sent into the coroutine. -/
  resumeRegister : Option Register := none
  /-- The coroutine is suspended while it delegates to another iterator. -/
  delegating : Bool := false
  /-- What the coroutine was resumed with, to be passed on to that iterator. -/
  delegation : Option (ResumeMode × Value) := none

namespace Frame

/-- A frame with fresh registers. -/
def start (cells : Cells) (template : Template) (scope : Scope) (returnTo : ReturnTo) :
    Frame × Cells :=
  let (window, cells) := cells.openWindow template.chunk.registerCount
  ({ template, window, scope, returnTo }, cells)

/-- The captured variable of a register; capturing it again gives the same one. -/
def capture (frame : Frame) (cells : Cells) (register : Register) :
    UpvalueId × Frame × Cells :=
  match frame.attached.lookup register with
  | some id => (id, frame, cells)
  | none =>
      let (id, cells) := cells.addUpvalue (.attached frame.window register)
      (id, { frame with attached := frame.attached ++ [(register, id)] }, cells)

/-- Detach the captured variables of the registers from `first` on. -/
def detachFrom (frame : Frame) (cells : Cells) (first : Register) : Frame × Cells :=
  let leaving := frame.attached.filter fun entry => first <= entry.1
  ({ frame with attached := frame.attached.filter fun entry => entry.1 < first },
    leaving.foldl (fun cells entry => cells.detach entry.2) cells)

/-- A tail call may take over the frame: nothing in it is still to be done. -/
def canReplace (frame : Frame) : Bool :=
  frame.tryRegions.isEmpty && frame.completions.isEmpty &&
    frame.construct == .none && frame.coroutine.isNone

/-- Enter a try region. -/
def enterTry (frame : Frame) (catchTarget finallyTarget : Option Nat) : Frame :=
  { frame with tryRegions := .handler catchTarget finallyTarget :: frame.tryRegions }

/-- Leave the innermost try region. -/
def exitTry (frame : Frame) : Frame :=
  { frame with tryRegions := frame.tryRegions.tail }

/-- The value that a completion holds. -/
def completionValue? : Completion -> Option Value
  | .return value => some value
  | .throw (.value value) => some value
  | _ => none

/-- The objects that a frame keeps alive. -/
def references (frame : Frame) (cells : Cells) : List ObjectId :=
  (cells.window frame.window).toList.filterMap Value.objectId? ++
    frame.upvalues.toList.flatMap cells.upvalueReferences ++
    cells.scopeReferences frame.scope ++
    frame.arguments.filterMap Value.objectId? ++
    frame.function.toList ++ frame.argumentsObject.toList ++ frame.coroutine.toList ++
    (frame.exception.bind Value.objectId?).toList ++
    (frame.delegation.bind fun entry => entry.2.objectId?).toList ++
    frame.completions.toList.filterMap fun completion =>
      (completionValue? completion).bind Value.objectId?

end Frame
end ScriptVM

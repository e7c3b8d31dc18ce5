import ScriptVM.Machine.Frame
import ScriptVM.Machine.Builtin
import ScriptVM.Promise.Record

/-!
# Kinds of objects

The internal slots that tell one kind of object from another, and the references
that they hold.
-/

namespace ScriptVM

/-- The elements of an array; a hole marks a missing one. -/
structure ArrayStore where
  elements : Array Value := #[]
  /-- Elements and length are read-only. -/
  frozen : Bool := false
  deriving Inhabited

/-- Function code with the variables it captured. -/
structure Closure where
  template : Template
  upvalues : Array UpvalueId := #[]
  /-- The scope of the defining frame, for arrow functions. -/
  lexicalScope : Option Scope := none
  /-- The object whose prototype `super` lookups start from. -/
  homeObject : Option ObjectId := none
  /-- The field initializer of a class constructor. -/
  fieldInitializer : Option ObjectId := none

/-- Identity of a function that the embedder registered. -/
structure HostId where
  index : Nat
  deriving DecidableEq, Repr, Inhabited

/-- What a native function does when it is called. -/
inductive NativeBehavior
  | builtin (function : Builtin)
  | host (function : HostId)
  /-- Resolve or reject a promise, unless the latch of the pair is set. -/
  | resolving (promise : ObjectId) (latch : LatchId) (reject : Bool)
  /-- Report one input of a combinator. -/
  | combinatorElement (index : Nat) (aggregate : AggregateId) (capability : ObjectId)
      (settlement : Settlement)
  /-- Run a finally callback before a settlement is passed on. -/
  | finallyStep (onFinally : Value) (settlement : Settlement)
  /-- Produce a settlement again after a finally callback. -/
  | settled (value : Value) (settlement : Settlement)
  deriving DecidableEq

/-- A built-in function or a function of the embedder. -/
structure NativeFunction where
  name : String
  behavior : NativeBehavior
  construct : Option BuiltinConstructor := none
  deriving DecidableEq

/-- The life of a coroutine. -/
inductive CoroutineState
  /-- Created, with its body not entered yet. -/
  | suspendedStart
  | suspendedYield
  /-- Its frame is on the stack. -/
  | running
  /-- Its frame is gone. -/
  | completed
  deriving DecidableEq, Repr

/-- What drives a coroutine. -/
inductive CoroutineKind
  | generator
  /-- An async function, which settles this promise in the end. -/
  | async (promise : ObjectId)
  deriving DecidableEq, Repr

/-- An activation that can be suspended. -/
structure Coroutine where
  state : CoroutineState
  frame : Option Frame
  kind : CoroutineKind

/-- What a reaction does when its promise settles one way. -/
inductive Handler
  | callable (function : Value)
  /-- Pass the fulfilment value on. -/
  | identity
  /-- Pass the rejection reason on. -/
  | thrower
  /-- Resume an async function. -/
  | asyncResume (coroutine : ObjectId)
  deriving DecidableEq

/-- The handlers of both settlements and the promise that their result settles. -/
structure Reaction where
  /-- The derived promise; none if the result is not wanted. -/
  capability : Option ObjectId
  onFulfilled : Handler
  onRejected : Handler
  deriving DecidableEq

/-- The handler of one settlement. -/
def Reaction.handler (reaction : Reaction) : Settlement -> Handler
  | .fulfilled => reaction.onFulfilled
  | .rejected => reaction.onRejected

/-- The internal slots of an object. -/
inductive ObjectKind
  | ordinary
  | array (store : ArrayStore)
  | function (closure : Closure)
  | native (function : NativeFunction)
  | bound (target receiver : Value) (arguments : List Value)
  | arguments
  | error
  | coroutine (coroutine : Coroutine)
  | promise (record : PromiseRecord Value Reaction)
  | proxy (target handler : Value)
  | arrayIterator (array : Value) (index : Nat) (done : Bool)

namespace ObjectKind

/-- Property access must not rely on the property table alone. -/
def isExotic : ObjectKind -> Bool
  | array _ | proxy _ _ => true
  | _ => false

/-- The object is a proxy. -/
def isProxy : ObjectKind -> Bool
  | proxy _ _ => true
  | _ => false

/-- The object can be called. -/
def isCallable : ObjectKind -> Bool
  | function _ | native _ | bound _ _ _ => true
  | proxy target _ => target.isCallable
  | _ => false

end ObjectKind
end ScriptVM

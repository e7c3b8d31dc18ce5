import ScriptVM.Builtins.Arguments
import ScriptVM.Machine.Promises

/-!
# Built-ins of promises

Constructing promises and reacting to them.
-/

namespace ScriptVM
namespace Builtins

open Exec

variable {σ : Type}

/-- Make a promise and give its executor the functions that settle it. An executor
that throws rejects the promise. -/
def constructPromise (arguments : List Value) (newTarget : Value) : Exec σ Value := do
  let executor := argument arguments 0
  if !executor.isCallable then
    typeError fun machine =>
      "Promise resolver " ++ machine.display executor ++ " is not a function"
  let fallback <- ask fun machine => machine.intrinsics.promisePrototype
  let prototype <- prototypeFromConstructor newTarget fallback
  let promise <- change fun machine => machine.allocatePromise prototype
  withResolvingFunctions promise fun resolve reject => do
    let _ <- call executor .undefined [resolve, reject]
  return .object promise

/-- The promise that a method was called on. -/
def receiverPromise (receiver : Value) (method : String) : Exec σ ObjectId := do
  match <- ask fun machine => machine.promiseId? receiver with
  | some id => return id
  | none =>
      typeError fun machine =>
        "Method Promise.prototype." ++ method ++ " called on incompatible receiver " ++
          machine.display receiver

/-- A function handles a settlement; anything else lets it pass. -/
def handlerOr (passing : Handler) (value : Value) : Handler :=
  if value.isCallable then .callable value else passing

/-- React to a promise; the result settles a derived promise. -/
def promiseThen (receiver : Value) (arguments : List Value) : Exec σ Value := do
  let promise <- receiverPromise receiver "then"
  let derived <- newPromise
  registerReaction promise
    { capability := some derived
      onFulfilled := handlerOr .identity (argument arguments 0)
      onRejected := handlerOr .thrower (argument arguments 1) }
  return .object derived

/-- React to a rejection. -/
def promiseCatch (receiver onRejected : Value) : Exec σ Value :=
  invokeMethod receiver "then" [.undefined, onRejected]

/-- Allocate a function that runs a finally callback. -/
def createFinallyStep (onFinally : Value) (settlement : Settlement) : Exec σ Value :=
  change fun machine =>
    machine.createNative
      { name := "", behavior := .finallyStep onFinally settlement } 1

/-- Run a callback when a promise settles, and pass the settlement on unless the
callback throws or gives a promise that rejects. -/
def promiseFinally (receiver onFinally : Value) : Exec σ Value := do
  if !receiver.isObject then
    typeError fun machine =>
      "Method Promise.prototype.finally called on incompatible receiver " ++
        machine.display receiver
  if onFinally.isCallable then
    let onFulfilled <- createFinallyStep onFinally .fulfilled
    let onRejected <- createFinallyStep onFinally .rejected
    invokeMethod receiver "then" [onFulfilled, onRejected]
  else invokeMethod receiver "then" [onFinally, onFinally]

/-- Run a finally callback and wait for its result before the settlement goes on. -/
def runFinallyStep (onFinally : Value) (settlement : Settlement) (value : Value) :
    Exec σ Value := do
  let result <- call onFinally .undefined []
  let promise <- promiseOf result
  let thunk <- change fun machine =>
    machine.createNative { name := "", behavior := .settled value settlement } 0
  invokeMethod (.object promise) "then" [thunk]

/-- Produce a settlement again. -/
def produceSettlement (settlement : Settlement) (value : Value) : Exec σ Value :=
  match settlement with
  | .fulfilled => pure value
  | .rejected => raise (.value value)

/-- A promise rejected with a reason. -/
def rejectedPromise (reason : Value) : Exec σ Value := do
  let promise <- newPromise
  settlePromise promise .rejected reason
  return .object promise

end Builtins
end ScriptVM

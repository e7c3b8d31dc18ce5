import ScriptVM.Builtins.Table
import ScriptVM.Machine.Embedding

/-!
# Calls

Calling and constructing any value. Closures get a frame of their own dispatch run,
native functions run directly, and bound functions and proxies lead on to what they
stand for.
-/

namespace ScriptVM
namespace Exec

variable {σ : Type}

/-- Run a function of the embedder. -/
def runHost (id : HostId) (receiver : Value) (arguments : List Value) : Exec σ Value := do
  match <- ask fun machine => machine.hosts[id.index]? with
  | some body => runProgram (body receiver arguments)
  | none => raise (.internalError "host function expected")

/-- Run a native function. -/
def runNative (behavior : NativeBehavior) (receiver : Value) (arguments : List Value) :
    Exec σ Value := do
  let first := Builtins.argument arguments 0
  match behavior with
  | .builtin builtin => Builtins.run builtin receiver arguments
  | .host id => runHost id receiver arguments
  | .resolving promise latch reject =>
      callResolving promise latch reject first
      return .undefined
  | .combinatorElement index aggregate capability settlement =>
      reportToCombinator index aggregate capability settlement first
      return .undefined
  | .finallyStep onFinally settlement => Builtins.runFinallyStep onFinally settlement first
  | .settled value settlement => Builtins.produceSettlement settlement value

/-- Call a closure. -/
def callClosure (id : ObjectId) (closure : Closure) (receiver : Value)
    (arguments : List Value) : Exec σ Value := do
  let kind := closure.template.kind
  if kind.isClassConstructor then
    raise (.typeError
      ("Class constructor " ++ closure.template.name ++
        " cannot be invoked without 'new'"))
  let frame <- change fun machine =>
    machine.callFrame id closure receiver arguments .boundary
  if kind.isGenerator then createGenerator id frame
  else if kind.isAsync then startAsync frame
  else runBoundaryFrame frame

/-- Call a proxy. -/
def callProxy (target handler receiver : Value) (arguments : List Value) :
    Exec σ Value := do
  match <- trap? handler "apply" with
  | none => call target receiver arguments
  | some trap => call trap handler [target, receiver, <- createArray arguments]

/-- Call any value. -/
def callValue (callee receiver : Value) (arguments : List Value) : Exec σ Value := do
  match callee with
  | .function id =>
      match <- ask fun machine => machine.kind? id with
      | some (.function closure) => callClosure id closure receiver arguments
      | some (.native native) =>
          withNativeDepth (runNative native.behavior receiver arguments)
      | some (.bound target bound leading) =>
          withNativeDepth (call target bound (leading ++ arguments))
      | some (.proxy target handler) => callProxy target handler receiver arguments
      | _ => notCallable callee
  | _ => notCallable callee

/-- Refuse anything that is not a constructor. -/
def notConstructor {α : Type} (callee : Value) : Exec σ α :=
  typeError fun machine => machine.display callee ++ " is not a constructor"

/-- Construct with a closure whose `this` comes from the parent constructor. -/
def constructDerived (id : ObjectId) (closure : Closure) (arguments : List Value)
    (newTarget : Value) : Exec σ Value := do
  let frame <- change fun machine =>
    let (cell, cells) := machine.cells.addThisCell
    let scope : Scope :=
      { this := .pending cell
        newTarget
        function := some id
        homeObject := closure.homeObject }
    { machine with cells }.openFrame id closure scope arguments .boundary
  runBoundaryFrame { frame with construct := .derived }

/-- Construct with a closure that gets a new object as `this`. -/
def constructBase (id : ObjectId) (closure : Closure) (arguments : List Value)
    (newTarget : Value) : Exec σ Value := do
  let fallback <- ask fun machine => machine.intrinsics.objectPrototype
  let prototype <- prototypeFromConstructor newTarget fallback
  let this := Value.object (<- allocate (some prototype) .ordinary)
  let scope : Scope :=
    { this := .bound this
      newTarget
      function := some id
      homeObject := closure.homeObject }
  let frame <- change fun machine =>
    machine.openFrame id closure scope arguments .boundary
  if closure.template.kind == .classConstructor then runFieldInitializer id this
  runBoundaryFrame { frame with construct := .base }

/-- Construct with a proxy. -/
def constructProxy (id : ObjectId) (target handler : Value) (arguments : List Value)
    (newTarget : Value) : Exec σ Value := do
  if !(<- ask fun machine => machine.isConstructor target) then
    notConstructor (.object id)
  match <- trap? handler "construct" with
  | some trap =>
      let list <- createArray arguments
      let result <- call trap handler [target, list, newTarget]
      if result.isObject then return result
      else raise (.typeError "'construct' on proxy: trap returned non-object")
  | none =>
      let newTarget :=
        if newTarget.objectId? == some id then target else newTarget
      perform (.construct target arguments newTarget)

/-- Construct with any value. -/
def constructValue (callee : Value) (arguments : List Value) (newTarget : Value) :
    Exec σ Value := do
  match callee.objectId? with
  | none => notConstructor callee
  | some id =>
      match <- ask fun machine => machine.kind? id with
      | some (.function closure) =>
          let kind := closure.template.kind
          if !kind.isConstructor then notConstructor callee
          else if kind == .derivedConstructor then
            constructDerived id closure arguments newTarget
          else constructBase id closure arguments newTarget
      | some (.native native) =>
          match native.construct with
          | some constructor =>
              withNativeDepth (Builtins.construct constructor arguments newTarget)
          | none => notConstructor callee
      | some (.bound target _ leading) =>
          let newTarget :=
            if newTarget.strictlyEquals callee then target else newTarget
          withNativeDepth
            (perform (.construct target (leading ++ arguments) newTarget))
      | some (.proxy target handler) =>
          constructProxy id target handler arguments newTarget
      | _ => notConstructor callee

end Exec
end ScriptVM

import ScriptVM.Machine.Activation
import ScriptVM.Machine.Iteration

/-!
# Classes

Turning constructor closures into classes, installing methods, and what the
constructors and methods of a class find through `super`.
-/

namespace ScriptVM
namespace Exec

variable {σ : Type}

/-- The word `super` has no meaning in this function. -/
def superUnexpected : Exception :=
  .fault { kind := .syntaxError, message := "'super' keyword unexpected here" }

/-- The prototypes of the prototype object and of the constructor of a class with a
parent class. -/
def heritageOf (parent : Value) : Exec σ (Option ObjectId × ObjectId) := do
  match parent.objectId?, <- ask fun machine => machine.isConstructor parent with
  | some parentId, true =>
      match <- getProperty parent "prototype" with
      | .null => return (none, parentId)
      | .object id | .function id => return (some id, parentId)
      | other =>
          typeError fun machine =>
            "Class extends value does not have valid prototype property " ++
              machine.display other
  | _, _ =>
      typeError fun machine =>
        "Class extends value " ++ machine.display parent ++
          " is not a constructor or null"

/-- The prototypes of the prototype object and of the constructor of a class. -/
def classPrototypes (heritage : Option Value) : Exec σ (Option ObjectId × ObjectId) := do
  let intrinsics <- ask Machine.intrinsics
  match heritage with
  | none => return (some intrinsics.objectPrototype, intrinsics.functionPrototype)
  | some .null => return (none, intrinsics.functionPrototype)
  | some parent => heritageOf parent

/-- Turn a constructor into a class with a prototype object. -/
def createClass (constructor : Value) (heritage : Option Value) : Exec σ Unit := do
  match constructor.objectId? with
  | none => raise (.internalError "class constructor expected")
  | some id =>
      let (prototypeParent, constructorParent) <- classPrototypes heritage
      let prototype <- allocate prototypeParent .ordinary
      defineRaw prototype "constructor" (.hidden constructor)
      defineRaw id "prototype" (.ofData (.object prototype) false false false)
      update fun machine =>
        (machine.modifyHeap fun heap => heap.setPrototype id (some constructorParent))
          |>.modifyClosure id fun closure => { closure with homeObject := some prototype }

/-- The descriptor with which a class element is installed. -/
def methodDescriptor (method : Value) : MethodKind -> Descriptor
  | .method => .ofData method true false true
  | .getter =>
      { get := some method, enumerable := some false, configurable := some true }
  | .setter =>
      { set := some method, enumerable := some false, configurable := some true }

/-- Install a method and make the target its home object. -/
def defineMethod (target : ObjectId) (key : PropertyKey) (method : Value)
    (kind : MethodKind) : Exec σ Unit := do
  match method.objectId? with
  | some id =>
      update fun machine => machine.modifyClosure id fun closure =>
        { closure with homeObject := some target }
  | none => pure ()
  if !(<- defineOwnProperty target key (methodDescriptor method kind)) then
    typeError fun machine => "Cannot redefine property: " ++ machine.displayKey key

/-- Give a class the initializer of its fields, which shares its home object. -/
def setFieldInitializer (constructor initializer : ObjectId) : Exec σ Unit :=
  update fun machine =>
    let homeObject := (machine.closure? constructor).bind Closure.homeObject
    (machine.modifyClosure initializer fun closure => { closure with homeObject })
      |>.modifyClosure constructor fun closure =>
        { closure with fieldInitializer := some initializer }

/-- Run the field initializer of a class on a new instance. -/
def runFieldInitializer (constructor : ObjectId) (this : Value) : Exec σ Unit := do
  match <- ask fun machine =>
      (machine.closure? constructor).bind Closure.fieldInitializer with
  | none => return ()
  | some initializer => let _ <- call (.function initializer) this []

/-- The scope of the innermost frame. -/
def currentScope : Exec σ Scope := do
  match <- ask fun machine => machine.top? with
  | some frame => return frame.scope
  | none => raise (.internalError "no active frame")

/-- The `this` of the innermost frame. -/
def currentThis : Exec σ Value := do
  let scope <- currentScope
  match <- ask fun machine => machine.cells.this? scope with
  | some this => return this
  | none => raise .thisBeforeSuper

/-- Construct the parent of the running constructor, then bind `this` once and run
the field initializer. -/
def superCall (arguments : List Value) : Exec σ Value := do
  let scope <- currentScope
  match scope.function with
  | none => raise superUnexpected
  | some active =>
      let parent <-
        match <- getPrototypeOf active with
        | some id => ask fun machine => machine.objectValue id
        | none => pure .null
      if !(<- ask fun machine => machine.isConstructor parent) then
        typeError fun machine =>
          "Super constructor " ++ machine.display parent ++
            " of anonymous class is not a constructor"
      let this <- perform (.construct parent arguments scope.newTarget)
      let bound <- change fun machine =>
        let (bound, cells) := machine.cells.bindThis scope this
        (bound, { machine with cells })
      if !bound then
        raise (.referenceError "Super constructor may only be called once")
      runFieldInitializer active this
      return this

/-- Read a property of the parent of the home object, with the current `this` as
receiver. -/
def superGet (key : PropertyKey) : Exec σ Value := do
  match (<- currentScope).homeObject with
  | none => raise superUnexpected
  | some home =>
      let this <- currentThis
      match <- getPrototypeOf home with
      | some prototype => getWithReceiver prototype key this
      | none =>
          typeError fun machine =>
            "Cannot read properties of null (reading '" ++ machine.displayKey key ++ "')"

end Exec
end ScriptVM

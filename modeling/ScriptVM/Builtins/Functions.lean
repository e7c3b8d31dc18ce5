import ScriptVM.Builtins.Arguments
import ScriptVM.Machine.Operators

/-!
# Built-ins of functions

Calling, binding and describing functions.
-/

namespace ScriptVM
namespace Builtins

open Exec

variable {σ : Type}

/-- There is no compiler for source texts. -/
def constructFunction : Exec σ Value :=
  raise (.typeError "Code generation from strings is not supported")

/-- Refuse a receiver that is not a function. -/
def requireCallable (receiver : Value) (method : String) : Exec σ Unit :=
  if receiver.isCallable then pure ()
  else
    typeError fun machine =>
      "Function.prototype." ++ method ++ " called on " ++ machine.display receiver ++
        ", which is not a function"

/-- Call the receiver with a given receiver and arguments. -/
def callMethod (receiver : Value) (arguments : List Value) : Exec σ Value := do
  requireCallable receiver "call"
  call receiver (argument arguments 0) (arguments.drop 1)

/-- The elements of an array-like object. -/
def listOfArrayLike (value : Value) : Exec σ (List Value) := do
  let length <- lengthOfArrayLike value
  (List.range length).mapM fun index => getProperty value (.index index)

/-- Call the receiver with a given receiver and the elements of an array-like object
as arguments. -/
def applyMethod (receiver : Value) (arguments : List Value) : Exec σ Value := do
  requireCallable receiver "apply"
  let spread := argument arguments 1
  let list <-
    if spread.isNullish then pure []
    else if spread.isObject then listOfArrayLike spread
    else raise (.typeError "CreateListFromArrayLike called on non-object")
  call receiver (argument arguments 0) list

/-- The number of parameters that are left after some are bound. -/
def boundLength (length : Value) (bound : Nat) : Float :=
  let size :=
    match length with
    | .number value =>
        if value.isFinite then Float.ofInt (Number.truncate value)
        else if value > 0 then value
        else 0
    | _ => 0
  let rest := (if size > 0 then size else 0) - Float.ofNat bound
  if rest > 0 then rest else 0

/-- A function that calls the receiver with a fixed receiver and leading arguments. -/
def bindMethod (receiver : Value) (arguments : List Value) : Exec σ Value := do
  requireCallable receiver "bind"
  match receiver.objectId? with
  | none => raise (.typeError "Bind must be called on a function")
  | some target =>
      let leading := arguments.drop 1
      let prototype <- getPrototypeOf target
      let length <- getProperty receiver Machine.lengthKey
      let name := ((<- getProperty receiver "name").string?).getD ""
      let id <- allocate prototype (.bound receiver (argument arguments 0) leading)
      defineRaw id "length"
        (.ofData (.number (boundLength length leading.length)) false false true)
      defineRaw id "name" (.ofData (.string ("bound " ++ name)) false false true)
      return .function id

/-- The text of a closure: its head, with a note in place of its body. -/
def closureText (template : Template) : String :=
  let kind := template.kind
  let head :=
    if kind.isClassConstructor then "class " ++ template.name
    else if kind.isGenerator then "function* " ++ template.name ++ "()"
    else if kind.isAsync then "async function " ++ template.name ++ "()"
    else "function " ++ template.name ++ "()"
  head ++ " \x7b [bytecode] \x7d"

/-- The text of a function. -/
def functionToString (receiver : Value) : Exec σ Value := do
  match receiver with
  | .function id =>
      match <- ask fun machine => machine.kind? id with
      | some (.function closure) => return .string (closureText closure.template)
      | some (.native builtin) =>
          return .string ("function " ++ builtin.name ++ "() \x7b [native code] \x7d")
      | _ => return .string "function () \x7b [native code] \x7d"
  | _ =>
      raise (.typeError
        "Function.prototype.toString requires that 'this' be a Function")

end Builtins
end ScriptVM

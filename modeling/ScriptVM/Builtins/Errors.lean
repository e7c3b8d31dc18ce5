import ScriptVM.Builtins.Arguments
import ScriptVM.Machine.Iteration

/-!
# Built-ins of errors

Constructing error objects and describing them.
-/

namespace ScriptVM
namespace Builtins

open Exec

variable {σ : Type}

/-- Give an error the cause that an options object names. -/
def takeCause (error : ObjectId) (options : Value) : Exec σ Unit := do
  match options.objectId? with
  | none => return ()
  | some id =>
      if <- hasProperty id "cause" then
        defineRaw error "cause" (.hidden (<- getProperty options "cause"))

/-- Give an aggregate error the list of errors that an iterable yields. -/
def takeErrors (error : ObjectId) (iterable : Value) : Exec σ Unit := do
  let list <- createArray (<- iterateToList iterable)
  defineRaw error "errors" (.hidden list)

/-- Make an error object. An aggregate error takes the iterable of errors before its
message. -/
def constructError (kind : ErrorKind) (arguments : List Value) (newTarget : Value) :
    Exec σ Value := do
  let fallback <- ask fun machine => machine.intrinsics.errorPrototypeOf kind
  let prototype <-
    if newTarget.isUndefined then pure fallback
    else prototypeFromConstructor newTarget fallback
  let id <- allocate (some prototype) .error
  let own := if kind == .aggregateError then arguments.drop 1 else arguments
  let message := argument own 0
  let text <- if message.isUndefined then pure none else some <$> toText message
  match text with
  | some text => defineRaw id "message" (.hidden (.string text))
  | none => pure ()
  takeCause id (argument own 1)
  if kind == .aggregateError then takeErrors id (argument arguments 0)
  let fault : Fault := { kind, message := text.getD "" }
  let trace <- ask fun machine => (fault.withStack machine.captureStack).trace
  defineRaw id "stack" (.hidden (.string trace))
  return .object id

/-- The text of a property, or a default if it is undefined. -/
def textOr (target : Value) (key : PropertyKey) (fallback : String) : Exec σ String := do
  let value <- getProperty target key
  if value.isUndefined then return fallback else toText value

/-- The text of an error: its name and its message, as far as they are not empty. -/
def errorToString (receiver : Value) : Exec σ Value := do
  if !receiver.isObject then
    typeError fun machine =>
      "Error.prototype.toString requires that 'this' be an Object, got " ++
        machine.display receiver
  let name <- textOr receiver "name" "Error"
  let message <- textOr receiver "message" ""
  return .string
    (if message == "" then name
    else if name == "" then message
    else name ++ ": " ++ message)

end Builtins
end ScriptVM

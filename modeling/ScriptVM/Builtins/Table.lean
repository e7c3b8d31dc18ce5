import ScriptVM.Builtins.Arrays
import ScriptVM.Builtins.Errors
import ScriptVM.Builtins.Functions
import ScriptVM.Builtins.Promises
import ScriptVM.Builtins.Symbols
import ScriptVM.Machine.Coroutines

/-!
# The table of built-ins

What each built-in does when it is called, and when it is the target of `new`.
-/

namespace ScriptVM
namespace Builtins

open Exec

variable {σ : Type}

/-- Make a proxy of an object. It can be called if its target can. -/
def constructProxy (arguments : List Value) : Exec σ Value := do
  let target := argument arguments 0
  let handler := argument arguments 1
  if !target.isObject || !handler.isObject then
    raise (.typeError "Cannot create proxy with a non-object as target or handler")
  let id <- allocate none (.proxy target handler)
  return if target.isCallable then .function id else .object id

/-- Call a built-in. -/
def run (builtin : Builtin) (receiver : Value) (arguments : List Value) :
    Exec σ Value :=
  let first := argument arguments 0
  let second := argument arguments 1
  match builtin with
  | .emptyFunction => pure .undefined
  | .returnThis => pure receiver
  | .arrayIteratorNext => arrayIteratorNext receiver
  | .generatorNext => resumeGenerator receiver .next first
  | .generatorReturn => resumeGenerator receiver .return first
  | .generatorThrow => resumeGenerator receiver .throw first
  | .objectCall => constructObject arguments .undefined
  | .objectKeys => keys first
  | .objectGetPrototypeOf => prototypeOf first
  | .objectSetPrototypeOf => setPrototype first second
  | .objectDefineProperty => defineProperty first second (argument arguments 2)
  | .objectGetOwnPropertyDescriptor => getOwnPropertyDescriptor first second
  | .objectGetOwnPropertyNames => getOwnPropertyNames first
  | .objectCreate => createWith first second
  | .objectFreeze => freeze first
  | .objectIsFrozen => isFrozen first
  | .hasOwnProperty => hasOwnProperty receiver first
  | .isPrototypeOf => isPrototypeOf receiver first
  | .propertyIsEnumerable => propertyIsEnumerable receiver first
  | .objectToString => objectToString receiver
  | .objectValueOf => objectValueOf receiver
  | .functionCall => constructFunction
  | .callMethod => callMethod receiver arguments
  | .applyMethod => applyMethod receiver arguments
  | .bindMethod => bindMethod receiver arguments
  | .functionToString => functionToString receiver
  | .hasInstance => Value.boolean <$> ordinaryHasInstance receiver first
  | .arrayCall => constructArray arguments .undefined
  | .arrayIsArray => Value.boolean <$> ask fun machine => machine.isArray first
  | .arrayPush => arrayPush receiver arguments
  | .arrayJoin => arrayJoin receiver first
  | .arrayToString => arrayToString receiver
  | .arrayValues => arrayValues receiver
  | .symbolCall => createSymbol first
  | .symbolToString => symbolToString receiver
  | .symbolValueOf => symbolValueOf receiver
  | .promiseCall =>
      raise (.typeError "Promise constructor cannot be invoked without 'new'")
  | .promiseResolve => Value.object <$> promiseOf first
  | .promiseReject => rejectedPromise first
  | .promiseAll => combine .all first
  | .promiseAllSettled => combine .allSettled first
  | .promiseAny => combine .any first
  | .promiseRace => race first
  | .promiseThen => promiseThen receiver arguments
  | .promiseCatch => promiseCatch receiver first
  | .promiseFinally => promiseFinally receiver first
  | .errorCall kind => constructError kind arguments .undefined
  | .errorToString => errorToString receiver
  | .proxyCall => raise (.typeError "Constructor Proxy requires 'new'")

/-- Construct with a built-in. -/
def construct (constructor : BuiltinConstructor) (arguments : List Value)
    (newTarget : Value) : Exec σ Value :=
  match constructor with
  | .object => constructObject arguments newTarget
  | .function => constructFunction
  | .array => constructArray arguments newTarget
  | .promise => constructPromise arguments newTarget
  | .error kind => constructError kind arguments newTarget
  | .proxy => constructProxy arguments

end Builtins
end ScriptVM

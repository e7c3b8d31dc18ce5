import ScriptVM.Fault

/-!
# Built-in functions

The functions that every machine starts with, by name. What each does is defined
where the machine runs it.
-/

namespace ScriptVM

/-- The behaviour of a built-in when it is called. -/
inductive Builtin
  /-- The prototype of all functions: accepts anything and returns undefined. -/
  | emptyFunction
  | returnThis
  | arrayIteratorNext
  | generatorNext | generatorReturn | generatorThrow
  | objectCall
  | objectKeys | objectGetPrototypeOf | objectSetPrototypeOf | objectDefineProperty
  | objectGetOwnPropertyDescriptor | objectGetOwnPropertyNames | objectCreate
  | objectFreeze | objectIsFrozen
  | hasOwnProperty | isPrototypeOf | propertyIsEnumerable | objectToString | objectValueOf
  | functionCall
  | callMethod | applyMethod | bindMethod | functionToString | hasInstance
  | arrayCall | arrayIsArray
  | arrayPush | arrayJoin | arrayToString | arrayValues
  | symbolCall | symbolToString | symbolValueOf
  | promiseCall
  | promiseResolve | promiseReject | promiseAll | promiseAllSettled | promiseAny
  | promiseRace | promiseThen | promiseCatch | promiseFinally
  | errorCall (kind : ErrorKind)
  | errorToString
  | proxyCall
  deriving DecidableEq, Repr

/-- The behaviour of a built-in when it is the target of `new`. -/
inductive BuiltinConstructor
  | object
  | function
  | array
  | promise
  | error (kind : ErrorKind)
  | proxy
  deriving DecidableEq, Repr

end ScriptVM

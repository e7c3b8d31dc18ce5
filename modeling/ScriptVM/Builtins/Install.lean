import ScriptVM.Machine.Symbols
import ScriptVM.Machine.State

/-!
# Installing the built-ins

The heap that every machine starts with: the intrinsic prototypes, the built-in
functions on them, the constructors and the global object. Objects are allocated
and properties defined in a fixed order.
-/

namespace ScriptVM
namespace Builtins

/-- A computation that fills a heap. It knows the prototype of functions. -/
abbrev Install := ReaderT ObjectId (StateM (Heap ObjectKind))

namespace Install

/-- Allocate an object. -/
def allocate (prototype : Option ObjectId) (kind : ObjectKind) : Install ObjectId :=
  modifyGet fun heap => heap.allocate prototype kind

/-- Allocate a plain object with a prototype. -/
def object (prototype : ObjectId) : Install ObjectId :=
  allocate (some prototype) .ordinary

/-- Define an own property. -/
def define (target : ObjectId) (key : PropertyKey) (property : Property) : Install Unit :=
  modify fun heap => heap.define target key property

/-- Define a property that can be changed but is not enumerable. -/
def hidden (target : ObjectId) (key : PropertyKey) (value : Value) : Install Unit :=
  define target key (.hidden value)

/-- Define a property that stays as it is. -/
def constant (target : ObjectId) (key : PropertyKey) (value : Value) : Install Unit :=
  define target key (.ofData value false false false)

/-- Define the tag that the default text of an object shows. -/
def tag (target : ObjectId) (text : String) : Install Unit :=
  define target (.symbol .toStringTag) (.ofData (.string text) false false true)

/-- Allocate a native function. -/
def native (function : NativeFunction) (arity : Nat) : Install ObjectId := do
  let prototype <- read
  modifyGet fun heap => heap.allocateNative prototype function arity

/-- Allocate a built-in function. -/
def function (name : String) (builtin : Builtin) (arity : Nat) : Install ObjectId :=
  native { name, behavior := .builtin builtin } arity

/-- Install a method under a key. -/
def methodAt (target : ObjectId) (key : PropertyKey) (name : String) (builtin : Builtin)
    (arity : Nat) : Install ObjectId := do
  let id <- function name builtin arity
  hidden target key (.function id)
  return id

/-- Install methods under their names. -/
def methods (target : ObjectId) (entries : List (String × Builtin × Nat)) :
    Install Unit :=
  entries.forM fun (name, builtin, arity) => do
    let _ <- methodAt target name name builtin arity

/-- Install a constructor that is linked with a prototype object both ways. -/
def constructor (name : String) (builtin : Builtin) (construct : BuiltinConstructor)
    (arity : Nat) (prototype : ObjectId) : Install ObjectId := do
  let id <- native { name, behavior := .builtin builtin, construct := some construct } arity
  constant id "prototype" (.object prototype)
  hidden prototype "constructor" (.function id)
  return id

/-- Install the iterator prototypes: that of all iterators, of array iterators and of
generators. -/
def iterators (objectPrototype : ObjectId) : Install (ObjectId × ObjectId × ObjectId) := do
  let iterator <- object objectPrototype
  let _ <- methodAt iterator (.symbol .iterator) "[Symbol.iterator]" .returnThis 0
  let arrayIterator <- object iterator
  methods arrayIterator [("next", .arrayIteratorNext, 0)]
  tag arrayIterator "Array Iterator"
  let generator <- object iterator
  methods generator
    [ ("next", .generatorNext, 1)
    , ("return", .generatorReturn, 1)
    , ("throw", .generatorThrow, 1) ]
  tag generator "Generator"
  return (iterator, arrayIterator, generator)

/-- Install the constructor and the methods of objects. -/
def objects (global prototype : ObjectId) : Install Unit := do
  let id <- constructor "Object" .objectCall .object 1 prototype
  methods id
    [ ("keys", .objectKeys, 1)
    , ("getPrototypeOf", .objectGetPrototypeOf, 1)
    , ("setPrototypeOf", .objectSetPrototypeOf, 2)
    , ("defineProperty", .objectDefineProperty, 3)
    , ("getOwnPropertyDescriptor", .objectGetOwnPropertyDescriptor, 2)
    , ("getOwnPropertyNames", .objectGetOwnPropertyNames, 1)
    , ("create", .objectCreate, 2)
    , ("freeze", .objectFreeze, 1)
    , ("isFrozen", .objectIsFrozen, 1) ]
  methods prototype
    [ ("hasOwnProperty", .hasOwnProperty, 1)
    , ("isPrototypeOf", .isPrototypeOf, 1)
    , ("propertyIsEnumerable", .propertyIsEnumerable, 1)
    , ("toString", .objectToString, 0)
    , ("valueOf", .objectValueOf, 0) ]
  hidden global "Object" (.function id)

/-- Install the constructor and the methods of functions. -/
def functions (global : ObjectId) : Install Unit := do
  let prototype <- read
  let id <- constructor "Function" .functionCall .function 1 prototype
  methods prototype
    [ ("call", .callMethod, 1)
    , ("apply", .applyMethod, 2)
    , ("bind", .bindMethod, 1)
    , ("toString", .functionToString, 0) ]
  let hasInstance <- function "[Symbol.hasInstance]" .hasInstance 1
  constant prototype (.symbol .hasInstance) (.function hasInstance)
  hidden global "Function" (.function id)

/-- Install the constructor and the methods of arrays. -/
def arrays (global prototype : ObjectId) : Install Unit := do
  let id <- constructor "Array" .arrayCall .array 1 prototype
  methods id [("isArray", .arrayIsArray, 1)]
  methods prototype
    [ ("push", .arrayPush, 1)
    , ("join", .arrayJoin, 1)
    , ("toString", .arrayToString, 0) ]
  let values <- methodAt prototype "values" "values" .arrayValues 0
  hidden prototype (.symbol .iterator) (.function values)
  hidden global "Array" (.function id)

/-- Install the symbol function and the methods of symbols. -/
def symbols (global prototype : ObjectId) : Install Unit := do
  let id <- function "Symbol" .symbolCall 0
  constant id "prototype" (.object prototype)
  hidden prototype "constructor" (.function id)
  SymbolId.wellKnown.forM fun (symbol, name) => constant id name (.symbol symbol)
  methods prototype
    [ ("toString", .symbolToString, 0)
    , ("valueOf", .symbolValueOf, 0) ]
  tag prototype "Symbol"
  hidden global "Symbol" (.function id)

/-- Install the constructor and the methods of promises. -/
def promises (global prototype : ObjectId) : Install Unit := do
  let id <- constructor "Promise" .promiseCall .promise 1 prototype
  methods id
    [ ("resolve", .promiseResolve, 1)
    , ("reject", .promiseReject, 1)
    , ("all", .promiseAll, 1)
    , ("allSettled", .promiseAllSettled, 1)
    , ("any", .promiseAny, 1)
    , ("race", .promiseRace, 1) ]
  methods prototype
    [ ("then", .promiseThen, 2)
    , ("catch", .promiseCatch, 1)
    , ("finally", .promiseFinally, 1) ]
  tag prototype "Promise"
  hidden global "Promise" (.function id)

/-- Install the constructor of errors of one kind. -/
def errorConstructor (kind : ErrorKind) (arity : Nat) (prototype : ObjectId) :
    Install ObjectId :=
  constructor kind.name (.errorCall kind) (.error kind) arity prototype

/-- Install the texts that errors of a kind inherit. -/
def errorTexts (kind : ErrorKind) (prototype : ObjectId) : Install Unit := do
  hidden prototype "name" (.string kind.name)
  hidden prototype "message" (.string "")

/-- Install the general error constructor. -/
def errors (global objectPrototype : ObjectId) : Install (ObjectId × ObjectId) := do
  let prototype <- object objectPrototype
  let id <- errorConstructor .error 1 prototype
  errorTexts .error prototype
  methods prototype [("toString", .errorToString, 0)]
  hidden global "Error" (.function id)
  return (id, prototype)

/-- Install the constructor of a special kind of errors. -/
def errorKind (global parent parentPrototype : ObjectId) (kind : ErrorKind)
    (arity : Nat) : Install ObjectId := do
  let prototype <- object parentPrototype
  let id <- errorConstructor kind arity prototype
  modify fun heap => heap.setPrototype id (some parent)
  errorTexts kind prototype
  hidden global kind.name (.function id)
  return prototype

/-- Install the proxy constructor. -/
def proxies (global : ObjectId) : Install Unit := do
  let id <- native
    { name := "Proxy", behavior := .builtin .proxyCall, construct := some .proxy } 2
  hidden global "Proxy" (.function id)

/-- Install the global values. -/
def globals (global : ObjectId) : Install Unit := do
  hidden global "globalThis" (.object global)
  constant global "NaN" (.number (0.0 / 0.0))
  constant global "Infinity" (.number (1.0 / 0.0))
  constant global "undefined" .undefined

/-- Install everything on the prototype of objects. -/
def everything (objectPrototype : ObjectId) : Install Intrinsics := do
  let functionPrototype <- read
  let global <- object objectPrototype
  let arrayPrototype <- allocate (some objectPrototype) (.array {})
  let stringPrototype <- object objectPrototype
  let numberPrototype <- object objectPrototype
  let booleanPrototype <- object objectPrototype
  let symbolPrototype <- object objectPrototype
  let promisePrototype <- object objectPrototype
  let (iteratorPrototype, arrayIteratorPrototype, generatorPrototype) <-
    iterators objectPrototype
  objects global objectPrototype
  functions global
  arrays global arrayPrototype
  symbols global symbolPrototype
  promises global promisePrototype
  let (error, errorPrototype) <- errors global objectPrototype
  let special := errorKind global error errorPrototype
  let typeErrorPrototype <- special .typeError 1
  let referenceErrorPrototype <- special .referenceError 1
  let rangeErrorPrototype <- special .rangeError 1
  let syntaxErrorPrototype <- special .syntaxError 1
  let aggregateErrorPrototype <- special .aggregateError 2
  proxies global
  globals global
  return {
    global, objectPrototype, functionPrototype, arrayPrototype, stringPrototype,
    numberPrototype, booleanPrototype, symbolPrototype, iteratorPrototype,
    arrayIteratorPrototype, generatorPrototype, promisePrototype, errorPrototype,
    typeErrorPrototype, referenceErrorPrototype, rangeErrorPrototype,
    syntaxErrorPrototype, aggregateErrorPrototype }

end Install

/-- The heap that every machine starts with, and its intrinsics. -/
def initialHeap : Intrinsics × Heap ObjectKind :=
  let (objectPrototype, heap) := ({} : Heap ObjectKind).allocate none .ordinary
  let (functionPrototype, heap) :=
    heap.allocate (some objectPrototype)
      (.native { name := "", behavior := .builtin .emptyFunction })
  ((Install.everything objectPrototype).run functionPrototype).run heap

/-- A machine that has not run anything. -/
def newMachine {σ : Type} (config : Config) (world : σ) : Machine σ :=
  { heap := initialHeap.2
    intrinsics := initialHeap.1
    symbols := SymbolId.wellKnownDescriptions
    config
    world }

end Builtins
end ScriptVM

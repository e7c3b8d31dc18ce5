import ScriptVM.Machine.Host

/-!
# Replies

The answers of all requests in one type, for embedders that choose their requests at
run time.
-/

namespace ScriptVM

/-- The answer to some request. -/
inductive Reply
  | value (value : Value)
  | thrown (exception : Exception)
  | failed (failure : Failure)
  /-- What was asked for does not exist. -/
  | absent
  | text (text : String)
  /-- The answer of a test outside the machine. -/
  | test (answer : Bool)
  | property (property : Property)
  | key (key : PropertyKey)
  | keys (keys : List PropertyKey)
  | promise (state : PromiseState Value)
  | values (values : List Value)
  /-- Tasks and microtasks that were dropped. -/
  | dropped (tasks microtasks : Nat)
  | loop (stats : LoopStats)
  | collection (stats : Heap.CollectionStats)
  | heap (stats : HeapStats)
  | config (config : Config)
  deriving Inhabited

namespace Reply

/-- The reply of an operation that may throw. -/
def ofExcept {α : Type} (reply : α -> Reply) : Except Exception α -> Reply
  | .ok answer => reply answer
  | .error exception => thrown exception

/-- The reply of an operation that may fail. -/
def ofFailing {α : Type} (reply : α -> Reply) : Except Failure α -> Reply
  | .ok answer => reply answer
  | .error failure => failed failure

/-- The reply of an operation that may find nothing. -/
def ofOption {α : Type} (reply : α -> Reply) : Option α -> Reply
  | some answer => reply answer
  | none => absent

/-- The reply of a test. -/
def boolean (answer : Bool) : Reply :=
  value (.boolean answer)

/-- The reply of an operation without a result. -/
def unit (_ : Unit) : Reply :=
  value .undefined

/-- The reply of a question for an object that may be missing. -/
def object (id : Option ObjectId) : Reply :=
  value ((id.map Value.object).getD .null)

/-- What a reply means to a program that only passes values on: a value, an exception,
or undefined for everything else. -/
def result : Reply -> Except Exception Value
  | .value answer => .ok answer
  | .thrown exception => .error exception
  | .failed (.uncaught _ reason) => .error (.value reason)
  | .failed (.invalid refusal) => .error (.internalError (Failure.invalid refusal).text)
  | _ => .ok .undefined

/-- The value that a reply hands over, if any. -/
def carried? : Reply -> Option Value
  | .value answer | .thrown (.value answer) | .failed (.uncaught _ answer) => some answer
  | .failed (.invalid _) => some .undefined
  | _ => none

end Reply

/-- The reply that an answer amounts to. -/
def Request.reply : (request : Request) -> request.Response -> Reply
  | execute _ => .ofFailing .value
  | call .. | construct .. | resume .. | get .. | getWithReceiver .. => .ofExcept .value
  | set .. => .ofExcept .unit
  | setWithReceiver .. | delete .. | has .. => .ofExcept .boolean
  | createDataProperty .. | define .. | setPrototypeOf .. => .ofExcept .boolean
  | getOwn .. => .ofOption .property
  | ownKeys _ => .keys
  | prototypeOf _ => .ofExcept .object
  | preventExtensions _ | isExtensible _ | freeze _ | isFrozen _ => .boolean
  | isArray _ | isConstructor _ => .boolean
  | toPrimitive .. => .ofExcept .value
  | toNumber _ => .ofExcept fun number => .value (.number number)
  | toText _ => .ofExcept fun text => .value (.string text)
  | toPropertyKey _ => .ofExcept .key
  | display _ => fun text => .value (.string text)
  | looseEquals .. | instanceOf .. => .ofExcept .boolean
  | createError .. | newSymbol _ | globalObject => .value
  | symbolDescription _ => .ofOption .text
  | getGlobal _ => .ofOption .value
  | setGlobal .. => .unit
  | createObject | createArray _ | newPromise => .value
  | resolvePromise .. | rejectPromise .. => .ofExcept .unit
  | promiseState _ => .ofOption .promise
  | runMicrotasks => .ofFailing fun count => .value (.ofNat count)
  | runEventLoop => .ofFailing .loop
  | discardJobs => fun (tasks, microtasks) => .dropped tasks microtasks
  | takeUnhandledRejections => .values
  | collectGarbage _ => .ofOption .collection
  | heapStats => .heap
  | config => .config

end ScriptVM

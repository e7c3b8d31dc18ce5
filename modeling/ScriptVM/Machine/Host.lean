import ScriptVM.Machine.ObjectKind
import ScriptVM.Machine.Config
import ScriptVM.Machine.Descriptor
import ScriptVM.Heap.Collect
import ScriptVM.Schedule.EventLoop

/-!
# Host programs

What an embedder does to a machine, and what its functions do when a script calls
them, is a program of requests. Each request names one operation of the machine
and says what its answer looks like; an operation that can throw answers with the
exception, and the program decides whether to go on. The embedder's own state has
type `σ`.
-/

namespace ScriptVM

/-- The kind of primitive that a conversion prefers. -/
inductive PreferredType
  | default
  | number
  | string
  deriving DecidableEq, Repr

/-- The word that a conversion method gets to see. -/
def PreferredType.text : PreferredType -> String
  | default => "default"
  | number => "number"
  | string => "string"

/-- One operation that an embedder can ask for. -/
inductive Request
  | execute (chunk : Chunk)
  | call (callee receiver : Value) (arguments : List Value)
  /-- Without a new target the callee is the new target. -/
  | construct (callee : Value) (arguments : List Value) (newTarget : Option Value)
  | resume (mode : ResumeMode) (generator value : Value)
  | get (target : Value) (key : PropertyKey)
  | getWithReceiver (object : ObjectId) (key : PropertyKey) (receiver : Value)
  | set (target : Value) (key : PropertyKey) (value : Value) (strict : Bool)
  | setWithReceiver (object : ObjectId) (key : PropertyKey) (value receiver : Value)
  | delete (target : Value) (key : PropertyKey) (strict : Bool)
  | has (object : ObjectId) (key : PropertyKey)
  | createDataProperty (object : ObjectId) (key : PropertyKey) (value : Value)
  | define (object : ObjectId) (key : PropertyKey) (descriptor : Descriptor)
  | getOwn (object : ObjectId) (key : PropertyKey)
  | ownKeys (object : ObjectId)
  | prototypeOf (object : ObjectId)
  | setPrototypeOf (object : ObjectId) (prototype : Option ObjectId)
  | preventExtensions (object : ObjectId)
  | isExtensible (object : ObjectId)
  | freeze (object : ObjectId)
  | isFrozen (object : ObjectId)
  | isArray (value : Value)
  | isConstructor (value : Value)
  | toPrimitive (value : Value) (hint : PreferredType)
  | toNumber (value : Value)
  | toText (value : Value)
  | toPropertyKey (value : Value)
  | display (value : Value)
  | looseEquals (left right : Value)
  | instanceOf (value target : Value)
  | createError (kind : ErrorKind) (message : String)
  | newSymbol (description : Option String)
  | symbolDescription (symbol : SymbolId)
  | globalObject
  | getGlobal (name : String)
  | setGlobal (name : String) (value : Value)
  | createObject
  | createArray (elements : List Value)
  | newPromise
  | resolvePromise (promise value : Value)
  | rejectPromise (promise reason : Value)
  | promiseState (promise : Value)
  | runMicrotasks
  | runEventLoop
  | discardJobs
  | takeUnhandledRejections
  | collectGarbage (roots : List Value)
  | heapStats
  | config

/-- The answer to a request. -/
abbrev Request.Response : Request -> Type
  | execute _ => Except Failure Value
  | call .. | construct .. | resume .. => Except Exception Value
  | get .. | getWithReceiver .. => Except Exception Value
  | set .. => Except Exception Unit
  | setWithReceiver .. | delete .. | has .. => Except Exception Bool
  | createDataProperty .. | define .. => Except Exception Bool
  | getOwn .. => Option Property
  | ownKeys _ => List PropertyKey
  | prototypeOf _ => Except Exception (Option ObjectId)
  | setPrototypeOf .. => Except Exception Bool
  | preventExtensions _ | isExtensible _ | freeze _ | isFrozen _ => Bool
  | isArray _ | isConstructor _ => Bool
  | toPrimitive .. => Except Exception Value
  | toNumber _ => Except Exception Float
  | toText _ => Except Exception String
  | toPropertyKey _ => Except Exception PropertyKey
  | display _ => String
  | looseEquals .. | instanceOf .. => Except Exception Bool
  | createError .. | newSymbol _ | globalObject => Value
  | symbolDescription _ => Option String
  | getGlobal _ => Option Value
  | setGlobal .. => Unit
  | createObject | createArray _ | newPromise => Value
  | resolvePromise .. | rejectPromise .. => Except Exception Unit
  | promiseState _ => Option (PromiseState Value)
  | runMicrotasks => Except Failure Nat
  | runEventLoop => Except Failure LoopStats
  | discardJobs => Nat × Nat
  | takeUnhandledRejections => List Value
  | collectGarbage _ => Option Heap.CollectionStats
  | heapStats => HeapStats
  | config => Config

/-- A program of an embedder with state `σ`. -/
inductive HostProgram (σ : Type)
  /-- Give a result, or throw. -/
  | finish (outcome : Except Exception Value)
  /-- Read the embedder's state. -/
  | read (next : σ -> HostProgram σ)
  /-- Replace the embedder's state. -/
  | write (world : σ) (next : HostProgram σ)
  /-- Ask for an operation and go on with the answer. -/
  | request (request : Request) (next : request.Response -> HostProgram σ)
  /-- Make a function out of a program with a receiver and arguments, install it
  as a global and go on with the function. -/
  | register (name : String) (arity : Nat)
      (body : Value -> List Value -> HostProgram σ) (next : Value -> HostProgram σ)
  /-- Queue a program as a host task. -/
  | enqueueTask (body next : HostProgram σ)
  /-- Queue a program as a microtask. -/
  | enqueueMicrotask (body next : HostProgram σ)

/-- The body of a function that an embedder registered. -/
abbrev HostFunction (σ : Type) := Value -> List Value -> HostProgram σ

namespace HostProgram

/-- Run a program and go on with its outcome. -/
def andThen {σ : Type} (program : HostProgram σ)
    (continuation : Except Exception Value -> HostProgram σ) : HostProgram σ :=
  match program with
  | finish outcome => continuation outcome
  | read next => read fun world => (next world).andThen continuation
  | write world next => write world (next.andThen continuation)
  | request asked next => request asked fun answer => (next answer).andThen continuation
  | register name arity body next =>
      register name arity body fun function => (next function).andThen continuation
  | enqueueTask body next => enqueueTask body (next.andThen continuation)
  | enqueueMicrotask body next => enqueueMicrotask body (next.andThen continuation)

end HostProgram
end ScriptVM

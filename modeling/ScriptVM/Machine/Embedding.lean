import ScriptVM.Machine.Session

/-!
# Embedding

What each request of a host program does, and how a host program runs.
-/

namespace ScriptVM
namespace Exec

variable {σ : Type}

/-- The promise that an embedder names. -/
def promiseOperand (value : Value) : Exec σ ObjectId := do
  match <- ask fun machine => machine.promiseId? value with
  | some id => return id
  | none => typeError fun machine => machine.display value ++ " is not a promise"

/-- Answer a request. -/
def answer : (request : Request) -> Exec σ request.Response
  | .execute chunk => executeChunk chunk
  | .call callee receiver arguments => attempt (call callee receiver arguments)
  | .construct callee arguments newTarget =>
      attempt (perform (.construct callee arguments (newTarget.getD callee)))
  | .resume mode generator value => attempt (resumeGenerator generator mode value)
  | .get target key => attempt (getProperty target key)
  | .getWithReceiver id key receiver => attempt (getWithReceiver id key receiver)
  | .set target key value strict => attempt (setProperty target key value strict)
  | .setWithReceiver id key value receiver =>
      attempt (setWithReceiver id key value receiver)
  | .delete target key strict => attempt (deleteProperty target key strict)
  | .has id key => attempt (hasProperty id key)
  | .createDataProperty id key value => attempt (createDataProperty id key value)
  | .define id key descriptor => attempt (defineOwnProperty id key descriptor)
  | .getOwn id key => ask fun machine => machine.getOwnProperty? id key
  | .ownKeys id => ask fun machine => machine.ownKeys id
  | .prototypeOf id => attempt (getPrototypeOf id)
  | .setPrototypeOf id prototype => attempt (setPrototypeOf id prototype)
  | .preventExtensions id => change fun machine => machine.preventExtensions id
  | .isExtensible id => ask fun machine => machine.isExtensible id
  | .freeze id => change fun machine => machine.freeze id
  | .isFrozen id => ask fun machine => machine.isFrozen id
  | .isArray value => ask fun machine => machine.isArray value
  | .isConstructor value => ask fun machine => machine.isConstructor value
  | .toPrimitive value hint => attempt (toPrimitive value hint)
  | .toNumber value => attempt (toNumber value)
  | .toText value => attempt (toText value)
  | .toPropertyKey value => attempt (toPropertyKey value)
  | .display value => ask fun machine => machine.display value
  | .looseEquals left right => attempt (looseEquals left right)
  | .instanceOf value target => attempt (instanceOf value target)
  | .createError kind message => change fun machine => machine.createError kind message
  | .newSymbol description => change fun machine => machine.newSymbol description
  | .symbolDescription id => ask fun machine => machine.symbolDescription id
  | .globalObject => ask fun machine => Value.object machine.intrinsics.global
  | .getGlobal name => ask fun machine => machine.getGlobal? name
  | .setGlobal name value => update fun machine => machine.setGlobal name value
  | .createObject => do return Value.object (<- change Machine.allocateOrdinary)
  | .createArray elements => createArray elements
  | .newPromise => do return Value.object (<- newPromise)
  | .resolvePromise promise value =>
      attempt do resolvePromise (<- promiseOperand promise) value
  | .rejectPromise promise reason =>
      attempt do settlePromise (<- promiseOperand promise) .rejected reason
  | .promiseState promise => ask fun machine => machine.promiseState? promise
  | .runMicrotasks => runMicrotasks
  | .runEventLoop => runEventLoop
  | .discardJobs =>
      change fun machine =>
        let (counts, jobs) := machine.jobs.discard
        (counts, { machine with jobs })
  | .takeUnhandledRejections => change Machine.takeUnhandled
  | .collectGarbage kept => change fun machine => machine.collectGarbage kept
  | .heapStats => ask fun machine => machine.heap.stats
  | .config => ask Machine.config

/-- Run a host program. -/
def runProgram : HostProgram σ -> Exec σ Value
  | .finish outcome => ofExcept outcome
  | .read next => do runProgram (next (<- ask Machine.world))
  | .write world next => do
      update fun machine => { machine with world }
      runProgram next
  | .request request next => do runProgram (next (<- answer request))
  | .register name arity body next => do
      runProgram (next (<- change fun machine => machine.registerHost name arity body))
  | .enqueueTask body next => do
      update fun machine => { machine with jobs := machine.jobs.enqueueTask body }
      runProgram next
  | .enqueueMicrotask body next => do
      update fun machine => machine.submitJob (.host body)
      runProgram next

end Exec
end ScriptVM

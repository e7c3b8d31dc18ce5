import ScriptVM.Machine.Coroutines

/-!
# Sessions

Executing chunks and draining queues on behalf of an embedder. What escapes is
turned into a value, so that the embedder can look at it.
-/

namespace ScriptVM
namespace Machine

variable {σ : Type}

/-- Make a template of a chunk, with empty inline caches. -/
def addTemplate (machine : Machine σ) (chunk : Chunk) : Template × Machine σ :=
  let (template, slots) := Template.ofChunk machine.caches.size chunk
  let caches := slots.map fun count => Array.replicate count InlineCache.uninitialized
  (template, { machine with caches := machine.caches ++ caches.toArray })

/-- The frame of a script. -/
def scriptFrame (machine : Machine σ) (chunk : Chunk) : Frame × Machine σ :=
  let (template, machine) := machine.addTemplate chunk
  let scope : Scope := { this := .bound (.object machine.intrinsics.global) }
  let (frame, cells) := Frame.start machine.cells template scope .boundary
  (frame, { machine with cells })

/-- The failure that an embedder gets to see when an exception escapes. -/
def uncaught (machine : Machine σ) (exception : Exception) : Failure × Machine σ :=
  let (value, machine) := machine.exceptionValue exception
  (.uncaught (machine.display value) value, machine)

/-- The reason of a rejection that never got a handler. -/
def unhandledReason? (machine : Machine σ) (id : ObjectId) : Option Value :=
  match machine.promise? id with
  | some { state := .rejected reason, reactions := _, handled := false } => some reason
  | _ => none

/-- Report the rejections that never got a handler. -/
def reportRejections (machine : Machine σ) : Machine σ :=
  let (promises, rejections) := machine.rejections.take
  { machine with
    rejections
    unhandled := machine.unhandled ++ promises.filterMap machine.unhandledReason? }

/-- Hand out the reasons that were reported. -/
def takeUnhandled (machine : Machine σ) : List Value × Machine σ :=
  (machine.unhandled, { machine with unhandled := [] }.note (.handedOut machine.unhandled))

/-- The objects that a machine keeps alive by itself between runs. -/
def roots (machine : Machine σ) : List ObjectId :=
  machine.intrinsics.roots ++ valueReferences machine.unhandled ++
    machine.rejections.pending ++ machine.jobs.microtasks.jobs.flatMap Job.references

/-- Free every object that neither the machine nor the embedder keeps alive. Refused
while frames or native calls are under way, since what they hold is not visible. -/
def collectGarbage (machine : Machine σ) (kept : List Value) :
    Option Heap.CollectionStats × Machine σ :=
  if !machine.frames.isEmpty || 0 < machine.nativeDepth then (none, machine)
  else
    let roots := machine.roots ++ valueReferences kept
    let (stats, heap) :=
      machine.heap.collect (ObjectKind.references machine.cells) roots
    (some stats, { machine with heap })

/-- Install a function of the embedder as a global. -/
def registerHost (machine : Machine σ) (name : String) (arity : Nat)
    (body : HostFunction σ) : Value × Machine σ :=
  let id : HostId := ⟨machine.hosts.size⟩
  let machine := { machine with hosts := machine.hosts.push body }
  let (function, machine) := machine.createNative { name, behavior := .host id } arity
  (function, machine.setGlobal name function)

end Machine

namespace Exec

variable {σ α : Type}

/-- Run a computation and give what escapes as a failure. -/
def reporting (computation : Exec σ α) : Exec σ (Except Failure α) := do
  match <- attempt computation with
  | .ok answer => return .ok answer
  | .error exception => return .error (<- change fun machine => machine.uncaught exception)

/-- Drain the microtask queue. -/
def runMicrotasks : Exec σ (Except Failure Nat) :=
  reporting (perform .checkpoint)

/-- Run tasks and microtasks until none is left. -/
def runEventLoop : Exec σ (Except Failure LoopStats) :=
  reporting (perform .untilIdle)

/-- Run a verified chunk as a script, and then the microtasks if that is wanted. -/
def runScript (chunk : Chunk) : Exec σ (Except Failure Value) := do
  let frame <- change fun machine => machine.scriptFrame chunk
  match <- reporting (runBoundaryFrame frame) with
  | .error failure => return .error failure
  | .ok value =>
      if <- ask fun machine => machine.config.drainMicrotasksOnExecute then
        match <- runMicrotasks with
        | .error failure => return .error failure
        | .ok _ => return .ok value
      else return .ok value

/-- Verify a chunk, unless that is switched off, and execute it as a script. -/
def executeChunk (chunk : Chunk) : Exec σ (Except Failure Value) := do
  if <- ask fun machine => machine.config.verifyBytecode then
    match chunk.verify Chunk.defaultMaxRegisters with
    | .error refusal => return .error (.invalid refusal)
    | .ok () => runScript chunk
  else runScript chunk

end Exec
end ScriptVM

import ScriptVM.Proofs.DepthBlindness.Builtins
import ScriptVM.Proofs.EventLoops

/-!
# Runs at different depths

What the instructions of a frame do, what coroutines and the requests of an embedder do, and
what drains the queues go on alike at different native depths. So does every invocation, by
induction on the fuel.
-/

namespace ScriptVM

-- Long sequences make large instances.
set_option synthInstance.maxSize 512

variable {σ α : Type} {inside : Bool}
variable (value receiver target callee newTarget : Value) (arguments : List Value)
  (base index : Nat) (id : ObjectId) (mode : ResumeMode) (register first : Register)
  (template : Template) (frame : Frame) (key : PropertyKey) (name : String) (closure : Closure)
  (chunk : Chunk)

open Machine

namespace Exec

/-! ## Instructions -/

instance : DepthBlind inside (currentFrame : Exec σ Frame) := by
  unfold currentFrame
  refine .bind inferInstance fun top => ?_
  split <;> infer_instance

instance : DepthBlind inside (upvalueOperand index : Exec σ UpvalueId) := by
  unfold upvalueOperand
  refine .bind inferInstance fun frame => ?_
  split <;> infer_instance

instance (id : UpvalueId) :
    DepthBlind inside (update fun machine =>
      machine.modifyCells fun cells => cells.setUpvalue id value : Exec σ Unit) :=
  .update fun _ _ _ => rfl

instance : DepthBlind inside (readGlobal name : Exec σ Value) := by
  unfold readGlobal
  infer_instance

instance : DepthBlind inside (hasGlobal name : Exec σ Bool) := by
  unfold hasGlobal
  infer_instance

instance blind_element :
    DepthBlind inside (ask fun machine =>
      match machine.kindOf? target with
      | some (.array store) => store.elements[index]?.filter fun value => !value.isHole
      | _ => none : Exec σ (Option Value)) :=
  .ask fun _ _ _ _ => rfl

instance (key : Value) : DepthBlind inside (getIndexed target key : Exec σ Value) := by
  unfold getIndexed
  split
  · refine .bind inferInstance fun element => ?_
    split <;> infer_instance
  · infer_instance

instance (target : ObjectId) : DepthBlind inside (defineField target key value : Exec σ Unit) := by
  unfold defineField
  infer_instance

instance (target : ObjectId) (getter setter : Value) :
    DepthBlind inside (defineAccessor target key getter setter : Exec σ Unit) := by
  unfold defineAccessor
  infer_instance

instance :
    DepthBlind inside (change fun machine =>
      machine.createArguments arguments : Exec σ ObjectId) :=
  .change (carries_createArguments arguments)

instance (iterator : Value) (received : Value) :
    DepthBlind inside (delegate iterator mode received : Exec σ Delegated) := by
  unfold delegate
  cases mode with
  | next => infer_instance
  | throw =>
      refine .bind inferInstance fun method => ?_
      split <;> infer_instance
  | «return» =>
      refine .bind inferInstance fun method => ?_
      split <;> infer_instance

/-! ## Coroutines -/

instance : DepthBlind inside (resumeCompleted mode value : Exec σ Value) := by
  unfold resumeCompleted
  cases mode <;> infer_instance

/-! ## Sessions and requests -/

instance (exception : Exception) :
    DepthBlind inside (change fun machine => machine.uncaught exception : Exec σ Failure) :=
  .change (carries_uncaught exception)

instance (computation : Exec σ α) [blind : DepthBlind inside computation] :
    DepthBlind inside (reporting computation) := by
  refine .bind inferInstance fun outcome => ?_
  split <;> infer_instance

instance : DepthBlind true (runMicrotasks : Exec σ (Except Failure Nat)) := by
  unfold runMicrotasks
  infer_instance

instance : DepthBlind true (runEventLoop : Exec σ (Except Failure LoopStats)) := by
  unfold runEventLoop
  infer_instance

instance : DepthBlind inside (promiseOperand value : Exec σ ObjectId) := by
  unfold promiseOperand
  refine .bind inferInstance fun found => ?_
  split <;> infer_instance

instance : DepthBlind inside (change fun machine => machine.preventExtensions id : Exec σ Bool) :=
  .change (carries_preventExtensions id)

instance : DepthBlind inside (change fun machine => machine.freeze id : Exec σ Bool) :=
  .change (carries_freeze id)

/-! ## Calls -/

instance (handler : Value) :
    DepthBlind inside (callProxy target handler receiver arguments : Exec σ Value) := by
  unfold callProxy
  refine .bind inferInstance fun trap => ?_
  split <;> infer_instance

instance : DepthBlind inside (notConstructor callee : Exec σ α) := by
  unfold notConstructor
  infer_instance

instance blind_constructProxy
    (id : ObjectId) (target handler : Value) (arguments : List Value) (newTarget : Value) :
    DepthBlind inside (constructProxy id target handler arguments newTarget :
      Exec σ Value) := by
  have trapped : DepthBlind inside (do
      match <- trap? handler "construct" with
      | some trap =>
          let list <- createArray arguments
          let result <- call trap handler [target, list, newTarget]
          if result.isObject then return result
          else raise (.typeError "'construct' on proxy: trap returned non-object")
      | none =>
          let newTarget :=
            if newTarget.objectId? == some id then target else newTarget
          perform (.construct target arguments newTarget) : Exec σ Value) := by
    refine .bind inferInstance fun trap => ?_
    split <;> infer_instance
  unfold constructProxy
  infer_instance

/-! ## Operands -/

instance blind_modifyTop (move : Frame -> Frame) :
    DepthBlind inside (update fun machine => machine.modifyTop move : Exec σ Unit) :=
  .update fun _ _ _ => rfl

instance (target : Nat) : DepthBlind inside (jump target : Exec σ Unit) :=
  blind_modifyTop _

instance (target : Nat) : DepthBlind inside (gotoFinally target : Exec σ Unit) :=
  blind_modifyTop _

instance : DepthBlind inside (resumeInto register : Exec σ Unit) :=
  blind_modifyTop _

instance : DepthBlind inside (ask fun machine : Machine σ => machine.register register) :=
  .ask fun _ _ _ _ => rfl

instance : DepthBlind inside (read register : Exec σ Value) := by
  unfold read
  infer_instance

instance : DepthBlind inside (write register value : Exec σ Unit) :=
  .bind inferInstance fun _ => .update (moves_setRegister register value)

instance (window : WindowId) (count : Nat) :
    DepthBlind inside
      (ask fun machine : Machine σ => machine.cells.registerRange window first count) :=
  .ask fun _ _ _ _ => rfl

instance (count : Nat) : DepthBlind inside (readRange first count : Exec σ (List Value)) := by
  unfold readRange
  infer_instance

instance : DepthBlind inside (readObject register : Exec σ ObjectId) := by
  unfold readObject
  refine .bind inferInstance fun value => ?_
  split <;> infer_instance

instance : DepthBlind inside (readKey register : Exec σ PropertyKey) := by
  unfold readKey
  infer_instance

instance : DepthBlind inside (nameOperand template index : Exec σ String) := by
  unfold nameOperand
  refine .bind inferInstance fun _ => ?_
  split <;> infer_instance

instance : DepthBlind inside (constantOperand template index : Exec σ Value) := by
  unfold constantOperand
  refine .bind inferInstance fun _ => ?_
  split <;> infer_instance

/-! ## Operations of instructions -/

instance : DepthBlind inside (superCall arguments : Exec σ Value) := by
  have bindThis : ∀ scope this, DepthBlind inside (change fun machine =>
      ((machine.cells.bindThis scope this).1,
        { machine with cells := (machine.cells.bindThis scope this).2 }) :
          Exec σ Bool) := fun scope this =>
    .change fun _ _ _ => rfl
  unfold superCall
  refine .bind inferInstance fun scope => ?_
  split
  · infer_instance
  · refine .bind inferInstance fun prototype => ?_
    dsimp only
    split <;>
    · refine .bind inferInstance fun parent => ?_
      refine .bind inferInstance fun constructs => ?_
      split
      · exact .bind inferInstance fun _ => inferInstance
      · infer_instance

instance (source : Register) (strict : Bool) :
    DepthBlind inside (assignGlobal name source strict : Exec σ Unit) := by
  unfold assignGlobal
  infer_instance

instance (key : Value) (source : Register) (strict : Bool) :
    DepthBlind inside (setIndexed target key source strict : Exec σ Unit) := by
  unfold setIndexed
  infer_instance

instance (template : TemplateId) (slot : Nat) :
    DepthBlind inside (getNamed target key template slot : Exec σ Value) := by
  unfold getNamed
  split
  · infer_instance
  · next id _ =>
      refine .bind (.change fun limit depth machine => ?_) fun answer => by
        split <;> infer_instance
      exact ite_carried (carries_cachedLookup id key template slot limit depth machine) rfl

instance : DepthBlind inside (argumentsObject : Exec σ Value) := by
  unfold argumentsObject
  refine .bind inferInstance fun frame => ?_
  split <;> infer_instance

instance : DepthBlind inside (createClosure template index : Exec σ Value) := by
  unfold createClosure
  refine .bind inferInstance fun _ => ?_
  split
  · infer_instance
  · next nested _ =>
      refine .bind (.change (carries_captureClosure nested)) fun captured => ?_
      split
      · infer_instance
      · exact .change (carries_instantiate _)

instance (callee : ObjectId × Closure) (returnTo : ReturnTo) :
    DepthBlind inside (pushCall callee receiver arguments returnTo : Exec σ Unit) :=
  .update fun limit depth machine => by
    simp only [callFrame_atDepth]
    rfl

instance (destination : Register) :
    DepthBlind inside (callInto destination callee receiver arguments : Exec σ Unit) := by
  unfold callInto
  refine .bind inferInstance fun closure => ?_
  split <;> infer_instance

theorem DepthBlind.flow
    {operation : Machine σ -> Except Exception Flow × Machine σ}
    (carries : CarriesDepth operation) :
    DepthBlind inside (flow operation) :=
  .bind (.change carries) fun _ => inferInstance

instance : DepthBlind inside (returnValue base value : Exec σ Flow) :=
  .flow fun limit depth machine => carries_returnFrom base value _ limit depth machine

instance : DepthBlind inside (tailCall base callee receiver arguments : Exec σ Flow) := by
  unfold tailCall
  refine .bind inferInstance fun closure => ?_
  split
  · infer_instance
  · next id closure =>
      have replaces : ∀ returnTo, DepthBlind inside (update fun machine =>
          let (frame, machine) := machine.callFrame id closure receiver arguments returnTo
          machine.popFrame.pushFrame frame : Exec σ Unit) := fun returnTo =>
        .update fun limit depth machine => by
          simp only [callFrame_atDepth, popFrame_atDepth]
          rfl
      infer_instance

instance : DepthBlind inside (update fun machine => machine.detachFrom first : Exec σ Unit) :=
  .update (moves_detachFrom first)

instance : DepthBlind inside (update Machine.takeFrame : Exec σ Unit) :=
  .update fun _ _ _ => rfl

instance : DepthBlind inside (suspend base : Exec σ Frame) := by
  unfold suspend
  infer_instance

instance (result : Value) : DepthBlind inside (suspendDelegating base result : Exec σ Flow) := by
  unfold suspendDelegating
  infer_instance

instance (destination iterator : Register) :
    DepthBlind inside (yieldStar base destination iterator : Exec σ Flow) := by
  unfold yieldStar
  refine .bind inferInstance fun iterator => ?_
  refine .bind inferInstance fun frame => ?_
  refine .bind inferInstance fun _ => ?_
  dsimp only
  refine .bind inferInstance fun delegated => ?_
  split <;> infer_instance

/-! ## Dispatch -/

instance (slot : Nat) :
    DepthBlind inside (setNamed target key value template slot : Exec σ Unit) := by
  have cacheable : DepthBlind inside (ask fun machine : Machine σ =>
      if machine.config.inlineCaches then target.objectId?.filter machine.isPlain else none) :=
    .ask fun _ _ _ _ => rfl
  have stores : ∀ id, DepthBlind inside (change fun machine =>
      machine.cachedStore id value template.id slot : Exec σ Bool) :=
    fun id => .change (carries_cachedStore id value template.id slot)
  have remembers : ∀ id, DepthBlind inside (update fun machine =>
      machine.rememberOwn id key template.id slot : Exec σ Unit) :=
    fun id => .update (moves_rememberOwn id key template.id slot)
  unfold setNamed
  refine .bind inferInstance fun cacheable => ?_
  split <;> infer_instance

instance (constructor : Value) (heritage : Option Value) :
    DepthBlind inside (createClass constructor heritage : Exec σ Unit) := by
  unfold createClass
  split
  · infer_instance
  · exact .bind inferInstance fun _ => .bind inferInstance fun _ => .bind inferInstance fun _ =>
      .bind inferInstance fun _ => .update fun _ _ _ => rfl

instance (id : UpvalueId) :
    DepthBlind inside (ask fun machine : Machine σ => machine.cells.upvalue id) :=
  .ask fun _ _ _ _ => rfl

instance (instruction : Instruction) :
    DepthBlind inside (act template instruction : Exec σ Unit) := by
  cases instruction with
  | loadCallee d =>
      unfold act
      refine .bind inferInstance fun frame => ?_
      split <;> infer_instance
  | _ => unfold act; dsimp only; infer_instance

instance (instruction : Instruction) :
    DepthBlind inside (execute base template instruction : Exec σ Flow) := by
  have ends : DepthBlind inside (flow fun machine => machine.endFinally base : Exec σ Flow) :=
    .flow (carries_endFinally base)
  unfold execute
  split <;> infer_instance

instance : DepthBlind inside (fetch : Exec σ (Option (Template × Instruction))) := by
  have next : DepthBlind inside (ask fun machine : Machine σ =>
      machine.top?.map fun frame => (frame.template, frame.next)) :=
    .ask fun _ _ _ _ => rfl
  unfold fetch
  refine .bind inferInstance fun top => ?_
  split
  · infer_instance
  · split <;> infer_instance

instance : DepthBlind inside (step base : Exec σ Flow) := by
  unfold step
  refine .bind inferInstance fun fetched => ?_
  split <;> infer_instance

instance (exception : Exception) : DepthBlind inside (handle base exception : Exec σ Unit) := by
  have unwinds : ∀ exception, DepthBlind inside (change fun machine =>
      machine.unwind exception (machine.frames.size - base) : Exec σ Bool) :=
    fun exception => .change fun limit depth machine =>
      carries_unwind exception _ limit depth machine
  have attaches : DepthBlind inside (ask fun machine : Machine σ =>
      machine.attachStack exception) := .ask fun _ _ _ _ => by cases exception <;> rfl
  unfold handle
  infer_instance

instance (next : Exec σ Flow) [blind : DepthBlind inside next] :
    DepthBlind inside (advance base next) := by
  unfold advance
  refine .bind inferInstance fun outcome => ?_
  split <;> infer_instance

instance : DepthBlind inside (runFrames base : Exec σ FrameExit) := by
  have round : DepthBlind inside (do
      pause
      match <- advance base (step base) with
      | some exit => return .inr exit
      | none => return .inl () : Exec σ (Unit ⊕ FrameExit)) := by
    refine .bind inferInstance fun _ => .bind inferInstance fun outcome => ?_
    split <;> infer_instance
  unfold runFrames
  infer_instance

instance (first : Exec σ Flow) [blind : DepthBlind inside first] :
    DepthBlind inside (runFrom base first) := by
  unfold runFrom
  refine .bind inferInstance fun exit => ?_
  split <;> infer_instance

instance : DepthBlind inside (update fun machine => machine.pushFrame frame : Exec σ Unit) :=
  .update fun _ _ _ => rfl

instance : DepthBlind inside (runBoundaryFrame frame : Exec σ Value) := by
  have runs : ∀ base, DepthBlind true (do
      match <- runFrames base with
      | .returned value => return value
      | .yielded _ frame _ | .awaiting _ frame | .started frame =>
          stray .outsideCoroutine frame : Exec σ Value) := by
    intro base
    refine .bind inferInstance fun exit => ?_
    split <;> infer_instance
  unfold runBoundaryFrame
  infer_instance

/-! ## Resumed frames -/

instance : DepthBlind inside (receive frame mode value : Exec σ Frame) := by
  have fills : ∀ window register, DepthBlind inside (update fun machine =>
      machine.modifyCells fun cells => cells.setRegister window register value :
        Exec σ Unit) :=
    fun _ _ => .update fun _ _ _ => rfl
  unfold receive
  split
  · infer_instance
  · split <;> infer_instance

instance (delegating : Bool) :
    DepthBlind inside (enter base delegating mode value : Exec σ Flow) := by
  unfold enter
  split
  · infer_instance
  · split <;> infer_instance

instance : DepthBlind inside (runCoroutine frame mode value : Exec σ FrameExit) := by
  unfold runCoroutine
  infer_instance

/-! ## Coroutines -/

instance (prototype : ObjectId) (kind : CoroutineKind) :
    DepthBlind inside (createCoroutine prototype kind : Exec σ ObjectId) :=
  blind_allocate ..

instance (state : CoroutineState) (frame : Option Frame) :
    DepthBlind inside (park id state frame : Exec σ Unit) :=
  .update fun _ _ _ => rfl

instance : DepthBlind inside (unpark id : Exec σ (Option Frame)) := by
  unfold unpark
  infer_instance

instance (function : ObjectId) :
    DepthBlind inside (createGenerator function frame : Exec σ Value) := by
  unfold createGenerator
  refine .bind inferInstance fun fallback => .bind inferInstance fun prototype => ?_
  refine .bind inferInstance fun id => .bind inferInstance fun outcome => ?_
  split <;> infer_instance

instance : DepthBlind inside (resumeSuspended id mode value : Exec σ Value) := by
  unfold resumeSuspended
  refine .bind inferInstance fun held => ?_
  split
  · infer_instance
  · refine .bind inferInstance fun outcome => ?_
    split <;> infer_instance

instance : DepthBlind inside (ask fun machine : Machine σ => generator? machine value) :=
  .ask fun _ _ _ _ => rfl

instance (generator : Value) :
    DepthBlind inside (resumeGenerator generator mode value : Exec σ Value) := by
  unfold resumeGenerator
  refine .bind inferInstance fun found => ?_
  split
  · infer_instance
  · split <;> infer_instance

instance (coroutine promise : ObjectId) (outcome : Except Exception FrameExit) :
    DepthBlind inside (concludeAsync coroutine promise outcome : Exec σ Unit) := by
  unfold concludeAsync
  split <;> infer_instance

instance : DepthBlind inside (startAsync frame : Exec σ Value) := by
  unfold startAsync
  infer_instance

instance (settlement : Settlement) :
    DepthBlind inside (resumeAsync id settlement value : Exec σ Unit) := by
  unfold resumeAsync
  refine .bind inferInstance fun found => ?_
  split
  · refine .bind inferInstance fun held => ?_
    split <;> infer_instance
  · infer_instance

/-! ## Closures and scripts -/

instance : DepthBlind inside (callClosure id closure receiver arguments : Exec σ Value) := by
  have opens : DepthBlind inside (change fun machine =>
      machine.callFrame id closure receiver arguments .boundary : Exec σ Frame) :=
    .change fun limit depth machine =>
      machine.callFrame_atDepth limit depth id closure receiver arguments .boundary
  unfold callClosure
  infer_instance

instance : DepthBlind inside (constructDerived id closure arguments newTarget : Exec σ Value) := by
  unfold constructDerived
  refine .bind (.change fun limit depth machine => ?_) fun frame => inferInstance
  exact carries_openFrame id closure _ arguments .boundary limit depth
    { machine with cells := machine.cells.addThisCell.2 }

instance : DepthBlind inside (constructBase id closure arguments newTarget : Exec σ Value) := by
  have opens : ∀ scope, DepthBlind inside (change fun machine =>
      machine.openFrame id closure scope arguments .boundary : Exec σ Frame) :=
    fun scope => .change (carries_openFrame id closure scope arguments .boundary)
  unfold constructBase
  infer_instance

instance : DepthBlind inside (change fun machine => machine.scriptFrame chunk : Exec σ Frame) :=
  .change fun _ _ _ => rfl

instance :
    DepthBlind inside (ask fun machine : Machine σ => machine.config.drainMicrotasksOnExecute) :=
  .ask fun _ _ _ _ => rfl

instance : DepthBlind inside (ask fun machine : Machine σ => machine.config.verifyBytecode) :=
  .ask fun _ _ _ _ => rfl

instance : DepthBlind true (runScript chunk : Exec σ (Except Failure Value)) := by
  unfold runScript
  refine .bind inferInstance fun frame => .bind inferInstance fun outcome => ?_
  split
  · infer_instance
  · refine .bind inferInstance fun drains => ?_
    split
    · refine .bind inferInstance fun outcome => ?_
      split <;> infer_instance
    · infer_instance

instance : DepthBlind true (executeChunk chunk : Exec σ (Except Failure Value)) := by
  unfold executeChunk
  refine .bind inferInstance fun verifies => ?_
  split
  · split <;> infer_instance
  · infer_instance

end Exec
/-! ## Requests -/

namespace Exec

instance (builtin : Builtin) :
    DepthBlind inside (Builtins.run builtin receiver arguments : Exec σ Value) := by
  unfold Builtins.run
  cases builtin <;> infer_instance

/-- No garbage is collected while a native call is under way. -/
instance (kept : List Value) :
    DepthBlind true (change fun machine : Machine σ => machine.collectGarbage kept) := by
  refine ⟨fun {first second} matching depths deep machine => ?_⟩
  have refused : ∀ (limit depth : Nat), 0 < depth ->
      (machine.atDepth limit depth).collectGarbage kept =
        (none, machine.atDepth limit depth) :=
    fun limit depth under => if_pos (Bool.or_eq_true_iff.2 (.inr (decide_eq_true under)))
  have below : 0 < depths.shallow := deep rfl
  unfold change
  dsimp only
  rw [show (depths.outer machine).collectGarbage kept = _ from
      refused _ _ (Nat.lt_of_lt_of_le below depths.le),
    show (depths.inner machine).collectGarbage kept = _ from refused _ _ below]
  dsimp only
  rw [matching.unwatched, if_neg Bool.false_ne_true]
  split
  · exact .interrupted ..
  · exact .settled none machine

instance (request : Request) : DepthBlind true (answer request : Exec σ request.Response) := by
  cases request with
  | setGlobal | discardJobs | takeUnhandledRejections =>
      unfold answer
      exact .change fun _ _ _ => rfl
  | symbolDescription | getGlobal | promiseState | heapStats | config =>
      unfold answer
      exact .ask fun _ _ _ _ => rfl
  | _ => unfold answer; infer_instance

/-! ## Host programs -/

instance (program : HostProgram σ) : DepthBlind true (runProgram program) := by
  induction program with
  | finish outcome =>
      unfold runProgram
      infer_instance
  | read next step =>
      unfold runProgram
      exact .bind (.ask fun _ _ _ _ => rfl) fun world => step world
  | write world next step =>
      unfold runProgram
      exact .bind (.update fun _ _ _ => rfl) fun _ => step
  | request request next step =>
      unfold runProgram
      exact .bind inferInstance fun answer => step answer
  | register name arity body next _ step =>
      unfold runProgram
      exact .bind (.change fun _ _ _ => rfl) fun function => step function
  | enqueueTask body next _ step =>
      unfold runProgram
      exact .bind (.update fun _ _ _ => rfl) fun _ => step
  | enqueueMicrotask body next _ step =>
      unfold runProgram
      exact .bind (.update fun _ _ _ => rfl) fun _ => step

/-! ## Functions -/

instance (id : HostId) : DepthBlind true (runHost id receiver arguments : Exec σ Value) := by
  unfold runHost
  refine .bind (.ask fun _ _ _ _ => rfl) fun body => ?_
  split <;> infer_instance

instance (behavior : NativeBehavior) :
    DepthBlind true (runNative behavior receiver arguments : Exec σ Value) := by
  unfold runNative
  cases behavior <;> infer_instance

instance : DepthBlind inside (callValue callee receiver arguments : Exec σ Value) := by
  unfold callValue
  split
  · refine .bind inferInstance fun kind => ?_
    split <;> infer_instance
  · infer_instance

instance : DepthBlind inside (constructValue callee arguments newTarget : Exec σ Value) := by
  unfold constructValue
  split
  · infer_instance
  · refine .bind inferInstance fun kind => ?_
    split
    · infer_instance
    · split <;> infer_instance
    all_goals infer_instance

/-! ## Jobs -/

instance (handler : Handler) (settlement : Settlement) (argument : Value) :
    DepthBlind inside (runHandler handler settlement argument :
      Exec σ (Option (Except Exception Value))) := by
  unfold runHandler
  cases handler <;> infer_instance

instance (job : Job σ) : DepthBlind true (runJob job) := by
  cases job with
  | host body =>
      unfold runJob
      infer_instance
  | resolveThenable promise thenable thenMethod =>
      unfold runJob
      infer_instance
  | reaction handler capability settlement argument =>
      unfold runJob
      refine .bind inferInstance fun outcome => ?_
      cases capability <;> rcases outcome with _ | _ | _ <;> infer_instance

/-! ## Queues -/

section

variable {first second : Env σ} {depths : Depths}

section

variable (matching : first.Matches second)
include matching

/-- Draining the microtask queue goes on alike, job by job. -/
theorem agrees_drain
    (under : 0 < depths.shallow)
    (rounds ran : Nat)
    (machine : Machine σ) :
    Agrees depths ((scheduler first).drain rounds ran (depths.outer machine))
      ((scheduler second).drain rounds ran (depths.inner machine)) := by
  induction rounds generalizing ran machine with
  | zero => exact .spent ..
  | succ rounds more =>
      unfold Scheduler.drain
      cases taken : machine.jobs.nextMicrotask? with
      | none =>
          rw [show ((scheduler first).loop (depths.outer machine)).nextMicrotask? = none
              from taken,
            show ((scheduler second).loop (depths.inner machine)).nextMicrotask? = none
              from taken]
          exact .settled ran machine
      | some next =>
          obtain ⟨job, loop⟩ := next
          have blind : DepthBlind true (do
              note (.started job)
              runJob job : Exec σ Unit) := inferInstance
          have agrees : Agrees depths
              ((scheduler first).runMicrotask job
                ((scheduler first).withLoop loop (depths.outer machine)))
              ((scheduler second).runMicrotask job
                ((scheduler second).withLoop loop (depths.inner machine))) :=
            blind.agrees matching depths (fun _ => under) { machine with jobs := loop }
          rw [show ((scheduler first).loop (depths.outer machine)).nextMicrotask? =
              some (job, loop) from taken,
            show ((scheduler second).loop (depths.inner machine)).nextMicrotask? =
              some (job, loop) from taken]
          dsimp only
          generalize (scheduler first).runMicrotask job _ = left at agrees
          generalize (scheduler second).runMicrotask job _ = right at agrees
          cases agrees with
          | interrupted => exact .interrupted ..
          | thrown => exact .thrown ..
          | spent => exact .spent ..
          | settled answer machine => exact more (ran + 1) machine

/-- A checkpoint goes on alike. -/
theorem agrees_checkpoint
    (under : 0 < depths.shallow)
    (rounds : Nat)
    (machine : Machine σ) :
    Agrees depths ((scheduler first).checkpoint rounds (depths.outer machine))
      ((scheduler second).checkpoint rounds (depths.inner machine)) := by
  have reported : ∀ (machine : Machine σ) (limit depth : Nat),
      (if machine.config.trackUnhandledRejections then
          (machine.atDepth limit depth).reportRejections
        else machine.atDepth limit depth) =
        (if machine.config.trackUnhandledRejections then machine.reportRejections
          else machine).atDepth limit depth :=
    fun _ _ _ => ite_moved rfl rfl
  have finished : ∀ machine : Machine σ,
      (scheduler first).checkpointFinished (depths.outer machine) =
          depths.outer ((scheduler first).checkpointFinished machine) ∧
        (scheduler second).checkpointFinished (depths.inner machine) =
          depths.inner ((scheduler first).checkpointFinished machine) := fun machine =>
    ⟨congrArg (Machine.note · .finished) (reported machine depths.limit depths.deep),
      congrArg (Machine.note · .finished) (reported machine depths.limit depths.shallow)⟩
  have drained := agrees_drain matching under rounds 0
    { machine with jobs := machine.jobs.openCheckpoint }
  unfold Scheduler.checkpoint
  dsimp only
  cases inside : machine.jobs.inCheckpoint with
  | true =>
      rw [if_pos (show ((scheduler first).loop (depths.outer machine)).inCheckpoint = true
          from inside),
        if_pos (show ((scheduler second).loop (depths.inner machine)).inCheckpoint = true
          from inside)]
      exact .settled 0 machine
  | false =>
      have outside : ¬ machine.jobs.inCheckpoint = true := by
        rw [inside]
        exact Bool.false_ne_true
      rw [if_neg (show ¬ ((scheduler first).loop (depths.outer machine)).inCheckpoint = true
          from outside),
        if_neg (show ¬ ((scheduler second).loop (depths.inner machine)).inCheckpoint = true
          from outside)]
      have agrees : Agrees depths
          ((scheduler first).drain rounds 0 ((scheduler first).withLoop
            ((scheduler first).loop (depths.outer machine)).openCheckpoint
            (depths.outer machine)))
          ((scheduler second).drain rounds 0 ((scheduler second).withLoop
            ((scheduler second).loop (depths.inner machine)).openCheckpoint
            (depths.inner machine))) := drained
      generalize (scheduler first).drain rounds 0 _ = left at agrees
      generalize (scheduler second).drain rounds 0 _ = right at agrees
      cases agrees with
      | interrupted => exact .interrupted ..
      | thrown exception after =>
          exact .thrown exception
            { after with jobs := after.jobs.closeCheckpoint (!machine.jobs.microtasks.isEmpty) }
      | spent => exact .spent ..
      | settled ran after =>
          let closed : Machine σ :=
            { after with jobs := after.jobs.closeCheckpoint (!machine.jobs.microtasks.isEmpty) }
          show Agrees depths
            (.ok ran ((scheduler first).checkpointFinished (depths.outer closed)))
            (.ok ran ((scheduler second).checkpointFinished (depths.inner closed)))
          rw [(finished closed).1, (finished closed).2]
          exact .settled ran _

/-- Running the host tasks goes on alike. -/
theorem agrees_runTasks
    (under : 0 < depths.shallow)
    (fuel rounds : Nat)
    (machine : Machine σ) :
    Agrees depths ((scheduler first).runTasks fuel rounds (depths.outer machine))
      ((scheduler second).runTasks fuel rounds (depths.inner machine)) := by
  induction rounds generalizing machine with
  | zero => exact .spent ..
  | succ rounds more =>
      unfold Scheduler.runTasks
      cases taken : machine.jobs.nextTask? with
      | none =>
          rw [show ((scheduler first).loop (depths.outer machine)).nextTask? = none from taken,
            show ((scheduler second).loop (depths.inner machine)).nextTask? = none from taken]
          exact .settled () machine
      | some next =>
          obtain ⟨task, loop⟩ := next
          have blind : DepthBlind true (do
              observe
              let _ <- runProgram task : Exec σ Unit) := inferInstance
          have agrees : Agrees depths
              ((scheduler first).runTask task
                ((scheduler first).withLoop loop (depths.outer machine)))
              ((scheduler second).runTask task
                ((scheduler second).withLoop loop (depths.inner machine))) :=
            blind.agrees matching depths (fun _ => under) { machine with jobs := loop }
          rw [show ((scheduler first).loop (depths.outer machine)).nextTask? =
              some (task, loop) from taken,
            show ((scheduler second).loop (depths.inner machine)).nextTask? =
              some (task, loop) from taken]
          dsimp only
          generalize (scheduler first).runTask task _ = left at agrees
          generalize (scheduler second).runTask task _ = right at agrees
          cases agrees with
          | interrupted => exact .interrupted ..
          | thrown => exact .thrown ..
          | spent => exact .spent ..
          | settled answer middle =>
              have agrees := agrees_checkpoint matching under fuel middle
              dsimp only
              generalize (scheduler first).checkpoint fuel _ = left at agrees
              generalize (scheduler second).checkpoint fuel _ = right at agrees
              cases agrees with
              | interrupted => exact .interrupted ..
              | thrown => exact .thrown ..
              | spent => exact .spent ..
              | settled count after => exact more after

/-- Running until both queues are empty goes on alike. -/
theorem agrees_runUntilIdle
    (under : 0 < depths.shallow)
    (fuel : Nat)
    (machine : Machine σ) :
    Agrees depths ((scheduler first).runUntilIdle fuel (depths.outer machine))
      ((scheduler second).runUntilIdle fuel (depths.inner machine)) := by
  have checked := agrees_checkpoint matching under fuel machine
  rw [Scheduler.runUntilIdle_eq, Scheduler.runUntilIdle_eq]
  generalize (scheduler first).checkpoint fuel _ = left at checked
  generalize (scheduler second).checkpoint fuel _ = right at checked
  cases checked with
  | interrupted => exact .interrupted ..
  | thrown => exact .thrown ..
  | spent => exact .spent ..
  | settled count middle =>
      have tasks := agrees_runTasks matching under fuel fuel middle
      dsimp only
      generalize (scheduler first).runTasks fuel fuel _ = left at tasks
      generalize (scheduler second).runTasks fuel fuel _ = right at tasks
      cases tasks with
      | interrupted => exact .interrupted ..
      | thrown => exact .thrown ..
      | spent => exact .spent ..
      | settled _ after => exact .settled _ after

end

/-- Operations that drain no queue go on alike at every depth. -/
theorem blind_operation
    (invocation : Invocation)
    (checkpoint : invocation ≠ .checkpoint)
    (idle : invocation ≠ .untilIdle) :
    DepthBlind inside (operation invocation : Exec σ invocation.Answer) := by
  cases invocation with
  | checkpoint => exact absurd rfl checkpoint
  | untilIdle => exact absurd rfl idle
  | _ => unfold operation; infer_instance

theorem agrees_operation
    (matching : first.Matches second)
    (depths : Depths)
    (invocation : Invocation)
    (under : invocation.Drains -> 0 < depths.shallow)
    (machine : Machine σ) :
    Agrees depths (operation invocation first (depths.outer machine))
      (operation invocation second (depths.inner machine)) := by
  by_cases checkpoint : invocation = .checkpoint
  · subst checkpoint
    show Agrees depths ((scheduler first).checkpoint first.fuel (depths.outer machine))
      ((scheduler second).checkpoint second.fuel (depths.inner machine))
    rw [matching.fuel]
    exact agrees_checkpoint matching (under (.inl rfl)) second.fuel machine
  · by_cases idle : invocation = .untilIdle
    · subst idle
      show Agrees depths ((scheduler first).runUntilIdle first.fuel (depths.outer machine))
        ((scheduler second).runUntilIdle second.fuel (depths.inner machine))
      rw [matching.fuel]
      exact agrees_runUntilIdle matching (under (.inr rfl)) second.fuel machine
    · have blind : DepthBlind false (operation invocation : Exec σ invocation.Answer) :=
        blind_operation invocation checkpoint idle
      exact blind.agrees matching depths nofun machine

end

end Exec

/-- A run that heeds the limit of native calls goes on like one that nobody watches. -/
theorem Env.matches_watched
    {watch : Sight σ -> Bool}
    (heeds : ∀ sight : Sight σ,
      sight.machine.config.maxNativeDepth <= sight.machine.nativeDepth -> watch sight = true)
    (fuel : Nat) :
    (Env.watched fuel watch).Matches (Env.ofFuel fuel) := by
  induction fuel with
  | zero => exact ⟨rfl, heeds, fun _ => rfl, fun _ _ _ _ => .spent ..⟩
  | succ fuel more => exact ⟨rfl, heeds, fun _ => rfl, Exec.agrees_operation more⟩

end ScriptVM

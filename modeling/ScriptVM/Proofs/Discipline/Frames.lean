import ScriptVM.Proofs.Coherence
import ScriptVM.Proofs.Discipline.Operations

/-!
# Frames under a discipline

For many disciplines frames do not matter, nor does what closures and coroutines hold. Such
a discipline is obeyed by all that a dispatch run does, and by coroutines, provided that it
is obeyed by the few instructions that change properties without a check.
-/

namespace ScriptVM

-- Long sequences make large instances.
set_option synthInstance.maxSize 512

variable {σ α : Type}
variable (base index : Nat) (frame : Frame) (value receiver : Value) (arguments : List Value)
  (register : Register) (mode : ResumeMode) (id : ObjectId) (template : Template) (chunk : Chunk)

/-- The instruction may change properties without a check: it defines a global, gives a class
its prototype object, or writes through an inline cache. -/
def Instruction.Unchecked : Instruction -> Prop
  | .defineGlobal .. | .createClass .. | .setNamed .. => True
  | _ => False

/-- The innermost frame has just fetched this instruction of its code. -/
def Machine.Performs
    (machine : Machine σ)
    (template : Template)
    (instruction : Instruction) : Prop :=
  ∃ frame, machine.top? = some frame ∧ frame.template = template ∧
    template.instruction? (frame.next - 1) = some instruction

theorem Machine.performs_jump
    {machine : Machine σ}
    {frame : Frame}
    {instruction : Instruction}
    (standing : machine.top? = some frame)
    (fetched : frame.template.instruction? frame.next = some instruction) :
    (machine.modifyTop fun top => { top with next := frame.next + 1 }).Performs
      frame.template instruction := by
  obtain ⟨below, stack⟩ := stack_of_top? standing
  exact ⟨_, top?_of_stack (stack_modifyTop _ stack), rfl, fetched⟩

/-- A lawful discipline for which frames do not matter. -/
class Discipline.Frameless (discipline : Discipline σ) : Prop extends discipline.Lawful where
  beside (machine : Machine σ) {cells : Cells} (frames : Array Frame) (nativeDepth : Nat)
    (caches : Array (Array InlineCache)) : machine.cells.KeepsShared cells ->
    discipline.passes machine { machine with cells, frames, nativeDepth, caches }
  allocateFunction (machine : Machine σ) (prototype : Option ObjectId) (closure : Closure) :
    discipline.passes machine (machine.allocate prototype (.function closure)).2
  /-- The watch may pick what an instruction is about to use. -/
  uses {α : Type} (machine : Machine σ) (referent : Referent) :
    discipline.keeps machine
      (.error (.interrupted { machine, used := some referent }) machine :
        EStateM.Result _ _ α)
  /-- The watch may pick what a machine is like between two instructions. -/
  pauses {α : Type} (machine : Machine σ) :
    discipline.keeps machine
      (.error (.interrupted { machine, between := true }) machine : EStateM.Result _ _ α)
  /-- The watch may pick a frame that suspends out of place. -/
  strays {α : Type} (machine : Machine σ) (misstep : Misstep) (frame : Frame) :
    discipline.keeps machine
      (.error (.interrupted { machine, misstep := some (misstep, frame) }) machine :
        EStateM.Result _ _ α)

/-- A frameless discipline that is obeyed by the instructions that check nothing. -/
class Discipline.Dispatching (discipline : Discipline σ) : Prop
    extends discipline.Frameless where
  unchecked {template : Template} {instruction : Instruction} {machine : Machine σ}
    {env : Env σ} :
    instruction.Unchecked -> machine.Performs template instruction ->
    discipline.Sound env -> discipline.keeps machine (Exec.act template instruction env machine)

variable {discipline : Discipline σ} [frameless : discipline.Frameless]

/-! ## Changes of a machine -/

namespace Discipline

variable (machine : Machine σ)

theorem passes_cells {cells : Cells} (keeps : machine.cells.KeepsShared cells) :
    discipline.passes machine { machine with cells } :=
  frameless.beside machine machine.frames machine.nativeDepth machine.caches keeps

theorem passes_frames (frames : Array Frame) :
    discipline.passes machine { machine with frames } :=
  frameless.beside machine frames machine.nativeDepth machine.caches (.refl machine.cells)

theorem passes_caches (caches : Array (Array InlineCache)) :
    discipline.passes machine { machine with caches } :=
  frameless.beside machine machine.frames machine.nativeDepth caches (.refl machine.cells)

theorem passes_setRegister (register : Register) (value : Value) :
    discipline.passes machine (machine.setRegister register value) := by
  unfold Machine.setRegister
  split
  · exact passes_cells machine ⟨rfl, rfl⟩
  · exact frameless.refl machine

theorem passes_popFrame (machine : Machine σ) : discipline.passes machine machine.popFrame := by
  unfold Machine.popFrame
  split
  · exact frameless.refl machine
  · exact frameless.beside machine _ machine.nativeDepth machine.caches
      (.of_recaptures (Frame.recaptures_detachFrom ..))

theorem passes_detachFrom (first : Register) :
    discipline.passes machine (machine.detachFrom first) := by
  unfold Machine.detachFrom
  split
  · exact frameless.refl machine
  · exact frameless.beside machine _ machine.nativeDepth machine.caches
      (.of_recaptures (Frame.recaptures_detachFrom ..))

theorem passes_openFrame
    (function : ObjectId)
    (closure : Closure)
    (scope : Scope)
    (arguments : List Value)
    (returnTo : ReturnTo) :
    discipline.passes machine
      (machine.openFrame function closure scope arguments returnTo).2 := by
  have filled : machine.cells.KeepsShared
      (Machine.fillRegisters (Frame.start machine.cells closure.template scope returnTo).2
        (Frame.start machine.cells closure.template scope returnTo).1.window 0
        (arguments.take closure.template.chunk.info.parameterCount)) := by
    have started : machine.cells.KeepsShared
        (Frame.start machine.cells closure.template scope returnTo).2 := ⟨rfl, rfl⟩
    exact started.trans (.fillRegisters _ _ _ 0)
  unfold Machine.openFrame
  dsimp only
  split
  · exact frameless.trans (passes_cells machine filled)
      (frameless.trans (passes_createArray _ _) (passes_cells _ ⟨rfl, rfl⟩))
  · exact passes_cells machine filled

/-- A new function object gets its properties without a check. -/
theorem passes_instantiate (closure : Closure) :
    discipline.passes machine (machine.instantiate closure).2 := by
  refine frameless.known fun known => ?_
  have free := unguarded_allocate known (some machine.intrinsics.functionPrototype)
    (.function closure)
  have made := frameless.allocateFunction machine (some machine.intrinsics.functionPrototype)
    closure
  have prototyped : ∀ (machine : Machine σ) (function : ObjectId) (kind : FunctionKind),
      discipline.passes machine (machine.instancePrototype? function kind).2 := by
    intro machine function kind
    refine frameless.known fun known => ?_
    unfold Machine.instancePrototype?
    split
    · exact frameless.trans (frameless.allocate machine _ .ordinary)
        (passes_definePlain _ (unguarded_allocate known _ _) _ _)
    · exact frameless.allocate machine _ .ordinary
    · exact frameless.refl machine
  unfold Machine.instantiate
  dsimp only
  have tells : (machine.allocate (some machine.intrinsics.functionPrototype)
      (.function closure)).2.heap.Tells _ Machine.lengthKey :=
    machine.heap.tells_allocate _ (fun _ => ObjectKind.noConfusion) _
  have named := fun length name => frameless.trans made (frameless.trans
    (passes_define _ free tells length) (passes_definePlain _ free "name" name))
  have settled : ∀ {before after : Machine σ} {prototype : Option ObjectId}
      {made : Option ObjectId × Machine σ}, made = (prototype, after) ->
        discipline.passes before made.2 -> discipline.passes before after :=
    fun equation passes => by rw [equation] at passes; exact passes
  split
  · next prototype after equation =>
      exact frameless.trans (named _ _) (frameless.trans (settled equation (prototyped _ _ _))
        (passes_definePlain _ free _ _))
  · next after equation =>
      exact frameless.trans (named _ _) (settled equation (prototyped _ _ _))

theorem passes_captureClosure (template : Template) :
    discipline.passes machine (machine.captureClosure template).2 := by
  unfold Machine.captureClosure
  split
  · exact frameless.refl machine
  · exact frameless.beside machine _ machine.nativeDepth machine.caches
      (.of_recaptures (Machine.recaptures_resolveCaptures ..))

theorem passes_unwind (exception : Exception) (count : Nat) :
    discipline.passes machine (machine.unwind exception count).2 := by
  induction count generalizing machine with
  | zero => exact frameless.refl machine
  | succ count step =>
      unfold Machine.unwind
      split
      · exact frameless.refl machine
      · split
        · exact frameless.trans (passes_exceptionValue machine exception) (passes_frames _ _)
        · exact passes_frames machine _
        · exact frameless.trans (passes_popFrame machine) (step _)

theorem passes_returnFrom (base : Nat) (value : Value) (count : Nat) :
    discipline.passes machine (machine.returnFrom base value count).2 := by
  induction count generalizing machine value with
  | zero => exact frameless.refl machine
  | succ count step =>
      unfold Machine.returnFrom
      split
      · exact frameless.refl machine
      · split
        · exact passes_frames machine _
        · have popped : discipline.passes machine machine.popFrame := passes_popFrame machine
          dsimp only
          split
          · exact popped
          · split
            · exact popped
            · split
              · exact popped
              · exact frameless.trans popped (passes_setRegister _ _ _)
              · exact frameless.trans popped (step _ _)

theorem passes_endFinally (base : Nat) :
    discipline.passes machine (machine.endFinally base).2 := by
  unfold Machine.endFinally
  split
  · exact frameless.refl machine
  · split
    · have left : ∀ change, discipline.passes machine (machine.modifyTop change) :=
        fun change => passes_frames machine _
      dsimp only
      split
      · exact left _
      · exact frameless.trans (left _) (passes_returnFrom _ _ _ _)
      · exact left _
      · exact frameless.trans (left _) (passes_frames _ _)
      · exact left _
    · exact passes_frames machine _

theorem passes_cachedLookup
    (id : ObjectId)
    (key : PropertyKey)
    (template : TemplateId)
    (slot : Nat) :
    discipline.passes machine (machine.cachedLookup id key template slot).2 := by
  obtain ⟨caches, same⟩ := machine.cachedLookup_machine id key template slot
  rw [same]
  exact passes_caches machine caches

theorem passes_rememberOwn
    (id : ObjectId)
    (key : PropertyKey)
    (template : TemplateId)
    (slot : Nat) :
    discipline.passes machine (machine.rememberOwn id key template slot) := by
  obtain ⟨caches, same⟩ := machine.rememberOwn_machine id key template slot
  rw [same]
  exact passes_caches machine caches

end Discipline

open Discipline

namespace Exec

/-! ## Operands -/

instance (referent : Referent) : Obeys discipline (use referent) := by
  refine ⟨fun env _ machine => ?_⟩
  unfold use
  dsimp only
  split
  · exact frameless.uses machine referent
  · exact frameless.settles () (frameless.refl machine)

instance : Obeys discipline pause := by
  refine ⟨fun env _ machine => ?_⟩
  unfold pause
  dsimp only
  split
  · exact frameless.pauses machine
  · exact frameless.settles () (frameless.refl machine)

instance (misstep : Misstep) : Obeys discipline (stray misstep frame : Exec σ α) := by
  refine ⟨fun env _ machine => ?_⟩
  unfold stray
  dsimp only
  split
  · exact frameless.strays machine misstep frame
  · exact frameless.throws _ (frameless.refl machine)

instance obeys_modifyTop (move : Frame -> Frame) :
    Obeys discipline (update fun machine => machine.modifyTop move : Exec σ Unit) :=
  .update _ fun machine => passes_frames machine _

instance obeys_jump (target : Nat) : Obeys discipline (jump target) :=
  obeys_modifyTop _

instance (target : Nat) : Obeys discipline (gotoFinally target) :=
  obeys_modifyTop _

instance : Obeys discipline (resumeInto register) :=
  obeys_modifyTop _

instance : Obeys discipline (read register) := by
  unfold read
  infer_instance

instance : Obeys discipline (write register value) :=
  .bind inferInstance fun _ => .update _ fun machine => passes_setRegister machine register value

instance (first : Register) (count : Nat) : Obeys discipline (readRange first count) := by
  unfold readRange
  infer_instance

instance : Obeys discipline (readObject register) := by
  unfold readObject
  refine .bind inferInstance fun value => ?_
  split <;> infer_instance

instance : Obeys discipline (readKey register) := by
  unfold readKey
  infer_instance

instance : Obeys discipline (nameOperand template index) := by
  unfold nameOperand
  refine .bind inferInstance fun _ => ?_
  split <;> infer_instance

instance : Obeys discipline (constantOperand template index) := by
  unfold constantOperand
  refine .bind inferInstance fun _ => ?_
  split <;> infer_instance

/-! ## Operations of instructions -/

instance : Obeys discipline (superCall arguments) := by
  have bindThis : ∀ scope this, Obeys discipline (change fun machine =>
      ((machine.cells.bindThis scope this).1,
        { machine with cells := (machine.cells.bindThis scope this).2 }) :
          Exec σ Bool) := fun scope this =>
    .change _ fun machine => passes_cells machine (.bindThis machine.cells scope this)
  unfold superCall
  refine .bind inferInstance fun scope => ?_
  split
  · infer_instance
  · refine .bind inferInstance fun prototype => ?_
    dsimp only
    split <;>
    · refine .bind inferInstance fun parent => ?_
      refine .bind inferInstance fun constructs => ?_
      split
      · exact .bind inferInstance fun _ => inferInstance
      · infer_instance

instance (name : String) (source : Register) (strict : Bool) :
    Obeys discipline (assignGlobal name source strict) := by
  unfold assignGlobal
  infer_instance

instance (target key : Value) (source : Register) (strict : Bool) :
    Obeys discipline (setIndexed target key source strict) := by
  unfold setIndexed
  infer_instance

instance (target : Value) (key : PropertyKey) (template : TemplateId) (slot : Nat) :
    Obeys discipline (getNamed target key template slot) := by
  unfold getNamed
  split
  · infer_instance
  · next id _ =>
      refine .bind (.change _ fun machine => ?_) fun answer => by split <;> infer_instance
      split
      · exact passes_cachedLookup machine id key template slot
      · exact frameless.refl machine

instance : Obeys discipline argumentsObject := by
  unfold argumentsObject
  refine .bind inferInstance fun frame => ?_
  split <;> infer_instance

instance : Obeys discipline (createClosure template index) := by
  unfold createClosure
  refine .bind inferInstance fun _ => ?_
  split
  · infer_instance
  · next nested _ =>
      refine .bind (.change _ fun machine => passes_captureClosure machine nested)
        fun captured => ?_
      split
      · infer_instance
      · exact .change _ fun machine => passes_instantiate machine _

instance (callee : ObjectId × Closure) (returnTo : ReturnTo) :
    Obeys discipline (pushCall callee receiver arguments returnTo) :=
  .update _ fun machine =>
    frameless.trans (passes_openFrame machine callee.1 callee.2 _ arguments returnTo)
      (passes_frames _ _)

instance (destination : Register) (callee : Value) :
    Obeys discipline (callInto destination callee receiver arguments) := by
  unfold callInto
  refine .bind inferInstance fun closure => ?_
  split <;> infer_instance

theorem obeys_flow
    (operation : Machine σ -> Except Exception Flow × Machine σ)
    (passes : ∀ machine, discipline.passes machine (operation machine).2) :
    Obeys discipline (flow operation) :=
  .bind (.change _ passes) fun _ => inferInstance

instance obeys_returnValue (base : Nat) (value : Value) :
    Obeys discipline (returnValue base value) :=
  obeys_flow _ fun machine => passes_returnFrom machine base value _

instance (callee : Value) : Obeys discipline (tailCall base callee receiver arguments) := by
  unfold tailCall
  refine .bind inferInstance fun closure => ?_
  split
  · infer_instance
  · next id closure =>
      have replaces : ∀ returnTo, Obeys discipline (update fun machine =>
          let (frame, machine) := machine.callFrame id closure receiver arguments returnTo
          machine.popFrame.pushFrame frame : Exec σ Unit) := fun returnTo =>
        .update _ fun machine =>
          frameless.trans (passes_openFrame machine id closure _ arguments returnTo)
            (frameless.trans (passes_popFrame _) (passes_frames _ _))
      infer_instance

instance (first : Register) :
    Obeys discipline (update fun machine => machine.detachFrom first : Exec σ Unit) :=
  .update _ fun machine => passes_detachFrom machine first

instance : Obeys discipline (update Machine.takeFrame) :=
  .update _ fun machine => passes_frames machine _

instance : Obeys discipline (suspend base) := by
  unfold suspend
  infer_instance

instance (result : Value) : Obeys discipline (suspendDelegating base result) := by
  unfold suspendDelegating
  infer_instance

instance (destination iterator : Register) :
    Obeys discipline (yieldStar base destination iterator) := by
  unfold yieldStar
  refine .bind inferInstance fun iterator => ?_
  refine .bind inferInstance fun frame => ?_
  refine .bind inferInstance fun _ => ?_
  dsimp only
  refine .bind inferInstance fun delegated => ?_
  split <;> infer_instance

/-! ## Dispatch -/

section

variable {discipline : Discipline σ} [dispatching : discipline.Dispatching]

/-- An instruction that checks what it changes obeys. -/
theorem obeys_act
    (template : Template)
    (instruction : Instruction)
    (checked : ¬ instruction.Unchecked) :
    Obeys discipline (act template instruction) := by
  cases instruction with
  | defineGlobal | createClass | setNamed => exact absurd trivial checked
  | loadCallee d =>
      unfold act
      refine .bind inferInstance fun frame => ?_
      split <;> infer_instance
  | _ => unfold act; dsimp only; infer_instance

theorem obeys_execute
    (base : Nat)
    (template : Template)
    (instruction : Instruction)
    (checked : ¬ instruction.Unchecked) :
    Obeys discipline (execute base template instruction) := by
  have acts : Obeys discipline (act template instruction : Exec σ Unit) :=
    obeys_act template instruction checked
  have ends : Obeys discipline (flow fun machine => machine.endFinally base : Exec σ Flow) :=
    obeys_flow _ fun machine => passes_endFinally machine base
  unfold execute
  split <;> infer_instance

/-- Executing the next instruction obeys: one that checks nothing has just been fetched. -/
instance obeys_step (base : Nat) : Obeys discipline (step base) := by
  refine ⟨fun env sound machine => ?_⟩
  unfold step fetch
  rw [bind_assoc, ask_bind]
  cases standing : machine.top? with
  | none => exact (obeys_raise _).obeys env sound machine
  | some frame =>
      dsimp only [Option.map_some]
      cases fetched : frame.template.instruction? frame.next with
      | none => exact (obeys_returnValue base .undefined).obeys env sound machine
      | some instruction =>
          rw [bind_assoc]
          refine keeps_bind ((obeys_jump (frame.next + 1)).obeys env sound machine)
            fun answer middle jumped => ?_
          have performs : middle.Performs frame.template instruction := by
            have moved : ((), machine.modifyTop fun top => { top with next := frame.next + 1 }) =
                (answer, middle) :=
              eq_of_change (show change (fun machine => ((), machine.modifyTop _)) env machine =
                .ok answer middle from jumped)
            cases moved
            exact Machine.performs_jump standing fetched
          show discipline.keeps middle (execute base frame.template instruction env middle)
          by_cases unchecked : instruction.Unchecked
          · have acts := dispatching.unchecked unchecked performs sound
            have goesOn : discipline.keeps middle ((do
                act frame.template instruction
                return Flow.continue : Exec σ Flow) env middle) :=
              keeps_bind acts fun _ last _ => dispatching.settles _ (dispatching.refl last)
            cases instruction with
            | defineGlobal | createClass | setNamed => exact goesOn
            | _ => exact unchecked.elim
          · exact (obeys_execute base frame.template instruction unchecked).obeys env sound middle

instance (exception : Exception) : Obeys discipline (handle base exception) := by
  have unwinds : ∀ exception, Obeys discipline (change fun machine =>
      machine.unwind exception (machine.frames.size - base) : Exec σ Bool) :=
    fun exception => .change _ fun machine => passes_unwind machine exception _
  unfold handle
  infer_instance

instance (next : Exec σ Flow) [obeys : Obeys discipline next] :
    Obeys discipline (advance base next) := by
  unfold advance
  refine .bind inferInstance fun outcome => ?_
  split <;> infer_instance

instance obeys_runFrames (base : Nat) : Obeys discipline (runFrames base) := by
  have round : Obeys discipline (do
      pause
      match <- advance base (step base) with
      | some exit => return .inr exit
      | none => return .inl () : Exec σ (Unit ⊕ FrameExit)) := by
    refine .bind inferInstance fun _ => .bind inferInstance fun outcome => ?_
    split <;> infer_instance
  unfold runFrames
  infer_instance

instance (first : Exec σ Flow) [obeys : Obeys discipline first] :
    Obeys discipline (runFrom base first) := by
  unfold runFrom
  refine .bind inferInstance fun exit => ?_
  split <;> infer_instance

instance : Obeys discipline (update fun machine => machine.pushFrame frame : Exec σ Unit) :=
  .update _ fun machine => passes_frames machine _

instance : Obeys discipline (runBoundaryFrame frame) := by
  have runs : ∀ base, Obeys discipline (do
      match <- runFrames base with
      | .returned value => return value
      | .yielded _ frame _ | .awaiting _ frame | .started frame =>
          stray .outsideCoroutine frame : Exec σ Value) := by
    intro base
    refine .bind inferInstance fun exit => ?_
    split <;> infer_instance
  unfold runBoundaryFrame
  infer_instance

/-! ## Resumed frames -/

instance : Obeys discipline (receive frame mode value) := by
  have fills : ∀ window register, Obeys discipline (update fun machine =>
      machine.modifyCells fun cells => cells.setRegister window register value :
        Exec σ Unit) :=
    fun _ _ => .update _ fun machine => passes_cells machine ⟨rfl, rfl⟩
  unfold receive
  split
  · infer_instance
  · split <;> infer_instance

instance (delegating : Bool) : Obeys discipline (enter base delegating mode value) := by
  unfold enter
  split
  · infer_instance
  · split <;> infer_instance

instance : Obeys discipline (runCoroutine frame mode value) := by
  unfold runCoroutine
  infer_instance

end

end Exec

/-! ## Coroutines -/

/-- A discipline for which frames do not matter and that generators and calls of async
functions obey. -/
class Discipline.Resuming (discipline : Discipline σ) : Prop
    extends discipline.Dispatching where
  createGenerator (function : ObjectId) (frame : Frame) :
    discipline.obeys (Exec.createGenerator function frame : Exec σ Value)
  resumeGenerator (generator : Value) (mode : ResumeMode) (value : Value) :
    discipline.obeys (Exec.resumeGenerator generator mode value : Exec σ Value)
  startAsync (frame : Frame) : discipline.obeys (Exec.startAsync frame : Exec σ Value)

/-- A discipline for which it does not matter what coroutines hold, either. -/
class Discipline.Parking (discipline : Discipline σ) : Prop
    extends discipline.Dispatching where
  allocateCoroutine (machine : Machine σ) (prototype : Option ObjectId)
    (coroutine : Coroutine) :
    (∀ promise, coroutine.kind = .async promise -> discipline.settles promise) ->
    discipline.passes machine (machine.allocate prototype (.coroutine coroutine)).2
  park (machine : Machine σ) (id : ObjectId) (state : CoroutineState)
    (frame : Option Frame) :
    discipline.passes machine (machine.park id state frame)
  awaits (coroutine : ObjectId) :
    discipline.registers
      { capability := none
        onFulfilled := .asyncResume coroutine
        onRejected := .asyncResume coroutine }

namespace Exec

section

variable {discipline : Discipline σ} [parking : discipline.Parking]

theorem obeys_createCoroutine
    (prototype : ObjectId)
    {kind : CoroutineKind}
    (settles : ∀ promise, kind = .async promise -> discipline.settles promise) :
    Obeys discipline (createCoroutine prototype kind) :=
  .change _ fun machine => parking.allocateCoroutine machine _ _ settles

instance (state : CoroutineState) (frame : Option Frame) : Obeys discipline (park id state frame) :=
  .update _ fun machine => parking.park machine id state frame

instance : Obeys discipline (unpark id) := by
  unfold unpark
  infer_instance

theorem obeys_createGenerator_of_parking (function : ObjectId) (frame : Frame) :
    Obeys discipline (createGenerator function frame) := by
  unfold createGenerator
  refine .bind inferInstance fun fallback => .bind inferInstance fun prototype => ?_
  refine .bind (obeys_createCoroutine prototype nofun) fun id => .bind inferInstance
    fun outcome => ?_
  split <;> infer_instance

instance : Obeys discipline (resumeSuspended id mode value) := by
  unfold resumeSuspended
  refine .bind inferInstance fun held => ?_
  split
  · infer_instance
  · refine .bind inferInstance fun outcome => ?_
    split <;> infer_instance

theorem obeys_resumeGenerator_of_parking (generator : Value) (mode : ResumeMode) (value : Value) :
    Obeys discipline (resumeGenerator generator mode value) := by
  unfold resumeGenerator
  refine .bind inferInstance fun found => ?_
  split
  · infer_instance
  · split <;> infer_instance

instance (coroutine promise : ObjectId) (outcome : Except Exception FrameExit)
    [discipline.Settling promise] :
    Obeys discipline (concludeAsync coroutine promise outcome) := by
  have registers : ∀ awaited, Obeys discipline (registerReaction awaited
      { capability := none
        onFulfilled := .asyncResume coroutine
        onRejected := .asyncResume coroutine } : Exec σ Unit) :=
    fun awaited => obeys_registerReaction awaited (parking.awaits coroutine)
  unfold concludeAsync
  split <;> infer_instance

theorem obeys_startAsync_of_parking (frame : Frame) : Obeys discipline (startAsync frame) := by
  unfold startAsync
  refine .newPromiseThen fun promise settles => .bind inferInstance fun prototype => ?_
  have created : Obeys discipline
      (createCoroutine prototype (.async promise) : Exec σ ObjectId) := by
    refine obeys_createCoroutine prototype ?_
    rintro _ ⟨⟩
    exact settles.settling
  infer_instance

/-- Resuming an async function obeys as long as the function settles the right promise. -/
theorem keeps_resumeAsync
    {env : Env σ}
    {machine : Machine σ}
    {id : ObjectId}
    (sound : discipline.Sound env)
    (settles : ∀ coroutine promise, machine.coroutine? id = some coroutine ->
      coroutine.kind = .async promise -> discipline.settles promise)
    (settlement : Settlement)
    (value : Value) :
    discipline.keeps machine (resumeAsync id settlement value env machine) := by
  have keeps : ∀ computation : Exec σ Unit, Obeys discipline computation ->
      discipline.keeps machine (computation env machine) :=
    fun _ obedient => obedient.obeys env sound machine
  unfold resumeAsync
  rw [ask_bind]
  refine keeps _ ?_
  split
  · next held promise present =>
      have settling : discipline.Settling promise := ⟨settles _ promise present rfl⟩
      refine .bind inferInstance fun held => ?_
      split <;> infer_instance
  · infer_instance

end

instance (priority := low) resuming_of_parking
    {discipline : Discipline σ}
    [discipline.Parking] :
    discipline.Resuming where
  createGenerator function frame := (obeys_createGenerator_of_parking function frame).obeys
  resumeGenerator generator mode value :=
    (obeys_resumeGenerator_of_parking generator mode value).obeys
  startAsync frame := (obeys_startAsync_of_parking frame).obeys

variable {discipline : Discipline σ} [resuming : discipline.Resuming]

instance (function : ObjectId) : Obeys discipline (createGenerator function frame) :=
  ⟨resuming.createGenerator function frame⟩

instance (generator : Value) : Obeys discipline (resumeGenerator generator mode value) :=
  ⟨resuming.resumeGenerator generator mode value⟩

instance : Obeys discipline (startAsync frame) :=
  ⟨resuming.startAsync frame⟩

/-! ## Closures and scripts -/

instance obeys_callClosure
    (id : ObjectId) (closure : Closure) (receiver : Value) (arguments : List Value) :
    Obeys discipline (callClosure id closure receiver arguments) := by
  have opens : Obeys discipline (change fun machine =>
      machine.callFrame id closure receiver arguments .boundary : Exec σ Frame) :=
    .change _ fun machine => passes_openFrame machine id closure _ arguments _
  unfold callClosure
  infer_instance

instance (closure : Closure) (newTarget : Value) :
    Obeys discipline (constructDerived id closure arguments newTarget) := by
  unfold constructDerived
  refine .bind (.change _ fun machine => ?_) fun frame => inferInstance
  have added : discipline.passes machine
      { machine with cells := machine.cells.addThisCell.2 } := passes_cells machine ⟨rfl, rfl⟩
  exact resuming.trans added (passes_openFrame _ id closure _ arguments _)

instance (closure : Closure) (newTarget : Value) :
    Obeys discipline (constructBase id closure arguments newTarget) := by
  have opens : ∀ scope, Obeys discipline (change fun machine =>
      machine.openFrame id closure scope arguments .boundary : Exec σ Frame) :=
    fun scope => .change _ fun machine => passes_openFrame machine id closure scope arguments _
  unfold constructBase
  infer_instance

instance : Obeys discipline (change fun machine => machine.scriptFrame chunk : Exec σ Frame) :=
  .change _ fun machine => resuming.trans (passes_caches machine _) (passes_cells _ ⟨rfl, rfl⟩)

instance : Obeys discipline (runScript chunk) := by
  unfold runScript
  refine .bind inferInstance fun frame => .bind inferInstance fun outcome => ?_
  split
  · infer_instance
  · refine .bind inferInstance fun drains => ?_
    split
    · refine .bind inferInstance fun outcome => ?_
      split <;> infer_instance
    · infer_instance

instance : Obeys discipline (executeChunk chunk) := by
  unfold executeChunk
  refine .bind inferInstance fun verifies => ?_
  split
  · split <;> infer_instance
  · infer_instance

end Exec
end ScriptVM

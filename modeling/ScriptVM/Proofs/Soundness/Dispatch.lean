import ScriptVM.Machine.Dispatch
import ScriptVM.Proofs.Soundness.Properties

/-!
# Sound dispatch

What instructions do is sound, and a frame that a run hands out when it is suspended is free.
Only the definition of a class may close a cycle of prototypes.
-/

namespace ScriptVM

variable {σ : Type} {collects : Bool} {machine : Machine σ}
variable (register : Register) (key : PropertyKey) (index : Nat) (target : ObjectId)
  (arguments : List Value) (value : Value) (template : Template) (name : String)

namespace Machine

/-- The suspended frame, if there is one, is free. -/
def FreesAll (machine : Machine σ) (suspended : Option Frame) : Prop :=
  ∀ frame, suspended = some frame -> machine.Frees frame

theorem FreesAll.none : machine.FreesAll none := fun _ impossible => by cases impossible

theorem FreesAll.withNativeDepth
    {suspended : Option Frame}
    (free : machine.FreesAll suspended)
    (nativeDepth : Nat) :
    FreesAll { machine with nativeDepth } suspended :=
  fun frame same => (free frame same).withNativeDepth nativeDepth

/-- The machine vouches for what an instruction leads to, and a suspended frame is free. -/
def Allows (machine : Machine σ) (flow : Flow) : Prop :=
  machine.Vouches flow ∧ machine.FreesAll flow.frame?

/-- The machine vouches for what a run ends with, and a suspended frame is free. -/
def AllowsExit (machine : Machine σ) (ended : FrameExit) : Prop :=
  machine.Vouches ended ∧ machine.FreesAll ended.frame?

theorem Allows.exit {ended : FrameExit} (allows : machine.Allows (.exit ended)) :
    machine.AllowsExit ended :=
  ⟨⟨allows.1.accepts⟩, allows.2⟩

theorem allows_continue : machine.Allows .continue :=
  ⟨vouches_of_nil rfl, .none⟩

theorem allows_yielded
    (frame : Frame)
    (delegating : Bool)
    (free : machine.Frees frame)
    [vouched : machine.Vouches value]
    [held : machine.Vouches frame] :
    machine.Allows (.exit (.yielded value frame delegating)) :=
  ⟨(vouches_append _ _ rfl).2 ⟨vouched, held⟩, fun _ same => Option.some.inj same ▸ free⟩

theorem allows_awaiting
    (frame : Frame)
    (free : machine.Frees frame)
    [vouched : machine.Vouches value]
    [held : machine.Vouches frame] :
    machine.Allows (.exit (.awaiting value frame)) :=
  ⟨(vouches_append _ _ rfl).2 ⟨vouched, held⟩, fun _ same => Option.some.inj same ▸ free⟩

theorem allows_started
    (frame : Frame)
    (free : machine.Frees frame)
    [held : machine.Vouches frame] :
    machine.Allows (.exit (.started frame)) :=
  ⟨⟨held.accepts⟩, fun _ same => Option.some.inj same ▸ free⟩

end Machine

open Machine

variable [consistent : machine.Consistent collects]

namespace Exec

variable (base : Nat)

/-! ## Classes -/

instance (parent : Value) [machine.Vouches parent] :
    Sound collects machine (heritageOf parent) := by
  unfold heritageOf
  refine .ask ?_
  split
  · next id named constructs =>
      have : machine.Vouches id := .id named
      refine .bind inferInstance fun prototype after _ _ _ => ?_
      split <;> infer_instance
  · infer_instance

instance (heritage : Option Value) [vouched : machine.Vouches heritage] :
    Sound collects machine (classPrototypes heritage) := by
  unfold classPrototypes
  refine .ask ?_
  split
  · infer_instance
  · infer_instance
  · next parent _ =>
      have : machine.Vouches parent := vouches_some.1 vouched
      infer_instance

/-- Only here a cycle of prototypes may appear, and a watch that heeds cycles stops then. -/
theorem ensures_linkClass
    (id parent prototype : ObjectId)
    [machine.Vouches parent]
    [machine.Vouches prototype] :
    Ensures collects True machine
      (update fun machine => machine.linkClass id parent prototype : Exec σ Unit)
      fun _ _ => True := by
  intro env _
  obtain ⟨linked, later, acyclic⟩ :=
    @consistent_linkClass σ collects machine consistent id parent prototype _ _
  cases picked : env.watch { machine := machine.linkClass id parent prototype } with
  | true =>
      have stops : update (fun machine => machine.linkClass id parent prototype) env machine = _ :=
        change_of_picked picked
      rw [stops]
      refine ⟨linked, fun _ before => ?_⟩
      by_cases leads : machine.Leads parent id
      · exact Or.inr ⟨machine, id, parent, prototype, before, leads, rfl⟩
      · exact Or.inl (acyclic leads before)
  | false =>
      have settles :
          update (fun machine => machine.linkClass id parent prototype) env machine = _ :=
        change_of_unpicked picked
      rw [settles]
      refine ⟨⟨linked, fun _ => later, fun heeds _ => ?_⟩, trivial⟩
      by_contra cyclic
      exact Bool.false_ne_true (picked.symm.trans (heeds _ cyclic))

instance (constructor : Value) (heritage : Option Value) [machine.Vouches constructor]
    [machine.Vouches heritage] :
    Sound collects machine (createClass constructor heritage) := by
  unfold createClass
  split
  · infer_instance
  · next id named =>
      refine .bind inferInstance fun prototypes after _ _ _ => ?_
      dsimp only
      refine .bindEnsures (names_allocate prototypes.1 .ordinary).ensures
        fun prototype after _ _ _ => ?_
      refine .bind inferInstance fun _ after _ _ _ => ?_
      refine .bind inferInstance fun _ after _ _ _ => ?_
      exact ⟨(ensures_linkClass id prototypes.2 prototype).imp fun _ _ _ => inferInstance⟩

omit consistent in
instance (method : Value) (kind : MethodKind) [machine.Vouches method] :
    machine.Vouches (methodDescriptor method kind) := by
  cases kind <;> exact inferInstanceAs (machine.Vouches (Descriptor.mk ..))

instance (method : Value) (kind : MethodKind) [machine.Vouches target] [machine.Vouches method] :
    Sound collects machine (defineMethod target key method kind) := by
  unfold defineMethod
  split <;> infer_instance

instance (constructor initializer : ObjectId) [machine.Vouches initializer] :
    Sound collects machine (setFieldInitializer constructor initializer) := by
  unfold setFieldInitializer
  infer_instance

instance (constructor : ObjectId) (this : Value) [machine.Vouches this] :
    Sound collects machine (runFieldInitializer constructor this) := by
  unfold runFieldInitializer
  refine .ask ?_
  split <;> infer_instance

instance : Sound collects machine currentScope := by
  unfold currentScope
  refine .ask ?_
  split
  · next frame standing =>
      have : machine.Vouches frame := .of_some standing
      infer_instance
  · infer_instance

instance : Sound collects machine currentThis := by
  unfold currentThis
  refine .bind inferInstance fun scope after _ _ _ => .ask ?_
  split
  · next this bound =>
      have : after.Vouches this := .of_some bound
      infer_instance
  · infer_instance

instance [machine.Vouches arguments] : Sound collects machine (superCall arguments) := by
  unfold superCall
  refine .bind inferInstance fun scope after _ _ _ => ?_
  split
  · infer_instance
  · next active named =>
      have : after.Vouches active := .of_some named
      refine .bind inferInstance fun parent after _ _ vouched => ?_
      cases parent with
      | none =>
          dsimp only
          infer_instance
      | some id =>
          have : after.Vouches id := vouches_some.1 vouched
          dsimp only
          infer_instance

instance : Sound collects machine (superGet key) := by
  unfold superGet
  refine .bind inferInstance fun scope after _ _ _ => ?_
  split <;> infer_instance

/-! ## Operands -/

instance : Sound collects machine (read register) := by
  unfold read
  infer_instance

instance [machine.Vouches value] : Sound collects machine (write register value) := by
  unfold write
  infer_instance

instance (target : Nat) : Sound collects machine (jump target) := by
  unfold jump
  infer_instance

instance sound_currentFrame : Sound collects machine currentFrame := by
  unfold currentFrame
  refine .ask ?_
  split
  · next frame standing =>
      have : machine.Vouches frame := .of_some standing
      infer_instance
  · infer_instance

instance (first : Register) (count : Nat) : Sound collects machine (readRange first count) := by
  unfold readRange
  infer_instance

instance : Sound collects machine (readObject register) := by
  unfold readObject
  refine .bind inferInstance fun value after _ _ _ => ?_
  split
  · next id named =>
      have : after.Vouches id := .id named
      infer_instance
  · infer_instance

instance : Sound collects machine (readKey register) := by
  unfold readKey
  infer_instance

instance : Sound collects machine (nameOperand template index) := by
  unfold nameOperand
  refine .bind inferInstance fun _ after _ _ _ => ?_
  split <;> infer_instance

instance : Sound collects machine (constantOperand template index) := by
  unfold constantOperand
  refine .bind inferInstance fun _ after _ _ _ => ?_
  split <;> infer_instance

instance : Sound collects machine (upvalueOperand index) := by
  unfold upvalueOperand
  refine .bind inferInstance fun frame after _ _ _ => ?_
  split
  · next id present =>
      have : after.Vouches id := .of_some present
      infer_instance
  · infer_instance

/-! ## Globals and properties -/

instance : Sound collects machine (readGlobal name) := by
  unfold readGlobal
  infer_instance

instance : Sound collects machine (hasGlobal name) := by
  unfold hasGlobal
  infer_instance

instance (source : Register) (strict : Bool) :
    Sound collects machine (assignGlobal name source strict) := by
  unfold assignGlobal
  infer_instance

instance (target key : Value) [machine.Vouches target] [machine.Vouches key] :
    Sound collects machine (getIndexed target key) := by
  unfold getIndexed
  split
  · next index _ =>
      refine .ask ?_
      split
      · next value found =>
          have : machine.Vouches value := by
            split at found
            · next store present =>
                have vouched : machine.Vouches (ObjectKind.array store) := .of_some present
                have elements : machine.Vouches store.elements := vouches_array_kind.1 vouched
                obtain ⟨element, _⟩ := Option.filter_eq_some_iff.1 found
                exact vouches_array.1 elements value (Array.mem_of_getElem? element)
            · cases found
          infer_instance
      · infer_instance
  · infer_instance

instance (target key : Value) (source : Register) (strict : Bool) [machine.Vouches target]
    [machine.Vouches key] :
    Sound collects machine (setIndexed target key source strict) := by
  unfold setIndexed
  infer_instance

instance [machine.Vouches value] : Sound collects machine (defineField target key value) := by
  unfold defineField
  infer_instance

instance (getter setter : Value) [machine.Vouches getter] [machine.Vouches setter] :
    Sound collects machine (defineAccessor target key getter setter) := by
  unfold defineAccessor
  infer_instance

instance : Sound collects machine argumentsObject := by
  unfold argumentsObject
  refine .bind inferInstance fun frame after _ _ _ => ?_
  split
  · next id present =>
      have same : frame.argumentsObject.map Value.object = some (.object id) := by
        rw [present]
        rfl
      have : after.Vouches (Value.object id) := .of_some same
      infer_instance
  · infer_instance

instance : Sound collects machine (createClosure template index) := by
  unfold createClosure
  refine .bind inferInstance fun _ after _ _ _ => ?_
  split <;> infer_instance

/-! ## Calls from the innermost frame -/

instance (id : ObjectId) (closure : Closure) (receiver : Value) (returnTo : ReturnTo)
    [machine.Vouches (Value.function id)] [machine.Vouches closure] [machine.Vouches receiver]
    [machine.Vouches arguments] :
    Sound collects machine (pushCall (id, closure) receiver arguments returnTo) := by
  unfold pushCall
  infer_instance

instance (destination : Register) (callee receiver : Value) [machine.Vouches receiver]
    [machine.Vouches arguments] :
    Sound collects machine (callInto destination callee receiver arguments) := by
  unfold callInto
  refine .ask ?_
  split
  · next closure found =>
      obtain ⟨id, closure⟩ := closure
      obtain ⟨_, _⟩ := vouches_of_inlineCallee? found
      infer_instance
  · infer_instance

/-! ## Instructions -/

instance : Sound collects machine (resumeInto register) := by
  unfold resumeInto
  infer_instance

instance (target : Nat) : Sound collects machine (gotoFinally target) := by
  unfold gotoFinally
  infer_instance

/-- Instructions after which the run simply goes on. -/
instance sound_act (template : Template) (instruction : Instruction) :
    Sound collects machine (act template instruction) := by
  cases instruction with
  | loadCallee destination =>
      unfold act
      refine .bind inferInstance fun frame after _ _ _ => ?_
      split
      · next id named =>
          have same : frame.function.map Value.function = some (.function id) := by
            rw [named]
            rfl
          have : after.Vouches (Value.function id) := .of_some same
          infer_instance
      · infer_instance
  | _ =>
      unfold act
      dsimp only
      infer_instance

/-! ## Returns and suspensions -/

omit consistent in
/-- An instruction that returns suspends no frame. -/
theorem ensures_flow
    (operation : Machine σ -> Except Exception Flow × Machine σ)
    (concludes : machine.Concludes collects (operation machine)) :
    Ensures collects True machine (flow operation) fun after result => after.Allows result := by
  have changed : Ensures collects True machine (change operation) fun after outcome =>
      after.Vouches outcome ∧ ∀ result, outcome = .ok result -> result.frame? = none :=
    .change _ concludes.sustains ⟨concludes.vouches, concludes.frameless⟩
  refine .bind changed fun outcome after _ _ ⟨vouched, frameless⟩ => ?_
  refine .ofExcept outcome (fun result same => ⟨vouches_ok.1 (same ▸ vouched), ?_⟩)
    fun exception same => vouches_error.1 (same ▸ vouched)
  rw [frameless result same]
  exact .none

theorem ensures_returnValue (base : Nat) (value : Value) [machine.Vouches value] :
    Ensures collects True machine (returnValue base value : Exec σ Flow)
      fun after result => after.Allows result :=
  ensures_flow _ (concludes_returnFrom base value _)

omit consistent in
/-- Go on with the next instruction. -/
theorem ensures_continue
    {computation : Exec σ Unit}
    (sound : Sound collects machine computation) :
    Ensures collects True machine (do computation; return .continue : Exec σ Flow)
      fun after result => after.Allows result :=
  .bind sound.ensures fun _ _ _ _ _ => .pure _ allows_continue

theorem ensures_tailCall
    (callee receiver : Value)
    (arguments : List Value)
    [machine.Vouches receiver]
    [machine.Vouches arguments] :
    Ensures collects True machine (tailCall base callee receiver arguments : Exec σ Flow)
      fun after result => after.Allows result := by
  unfold tailCall
  refine .ask ?_
  split
  · have called : Sound collects machine (call callee receiver arguments : Exec σ Value) :=
      inferInstance
    exact .bind called.ensures fun value after _ _ _ => ensures_returnValue base value
  · next id closure found =>
      obtain ⟨_, _⟩ := vouches_of_inlineCallee? found
      refine .bind (sound_currentFrame (σ := σ)).ensures fun top after _ later _ => ?_
      have := later trivial
      split
      · exact ensures_continue inferInstance
      · have checked : Sound collects after (checkCallDepth : Exec σ Unit) := inferInstance
        refine .bind checked.ensures fun _ after _ later _ => ?_
        have := later trivial
        have pushed : Sound collects after
            (pushCall (id, closure) receiver arguments .tailReturn : Exec σ Unit) :=
          inferInstance
        exact ensures_continue pushed

theorem ensures_currentFrame :
    Ensures collects True machine (currentFrame : Exec σ Frame) fun after frame =>
      after.top? = some frame := by
  unfold currentFrame
  refine .ask ?_
  split
  · next frame standing => exact .pure frame standing
  · exact .raise _

/-- A frame that is taken off the stack is free. -/
theorem ensures_takeFrame {frame : Frame} (standing : machine.top? = some frame) :
    Ensures collects True machine (update Machine.takeFrame : Exec σ Unit) fun after _ =>
      after.Vouches frame ∧ after.Frees frame := by
  have vouched : machine.Vouches frame := .of_some standing
  have taken : machine.Sustains collects machine.takeFrame := inferInstance
  exact .update _ taken ⟨taken.later.vouches vouched, .of_taken standing⟩

theorem ensures_suspend (base : Nat) :
    Ensures collects True machine (suspend base : Exec σ Frame) fun after frame =>
      after.Vouches frame ∧ after.Frees frame := by
  unfold suspend
  refine .bind ensures_currentFrame fun frame after _ _ standing => .ask ?_
  split
  · exact .strayBind _ _ _
  · exact .bind (ensures_takeFrame standing) fun _ last _ _ held => .pure frame held

theorem ensures_suspendDelegating (base : Nat) (result : Value) [machine.Vouches result] :
    Ensures collects True machine (suspendDelegating base result : Exec σ Flow)
      fun after result => after.Allows result := by
  unfold suspendDelegating
  have moved : Sound collects machine
      (update fun machine => machine.modifyTop fun frame =>
        { frame with next := frame.next - 1, delegating := true } : Exec σ Unit) :=
    inferInstance
  refine .bind moved.ensures fun _ after _ later _ => ?_
  have := later trivial
  refine .bind ensures_currentFrame fun frame after _ later standing => .ask ?_
  have := later trivial
  split
  · exact .strayBind _ _ _
  · refine .bind (ensures_takeFrame standing) fun _ last _ later held => ?_
    have := later trivial
    have := held.1
    exact .pure _ (allows_yielded result frame true held.2)

omit consistent in
theorem vouches_result_iff {result : Value} :
    machine.Vouches (Delegated.result result) ↔ machine.Vouches result :=
  vouches_congr rfl

omit consistent in
theorem vouches_returns_iff {value : Value} :
    machine.Vouches (Delegated.returns value) ↔ machine.Vouches value :=
  vouches_congr rfl

omit consistent in
instance (result : Value) [vouched : machine.Vouches result] :
    machine.Vouches (Delegated.result result) :=
  vouches_result_iff.2 vouched

omit consistent in
instance [vouched : machine.Vouches value] : machine.Vouches (Delegated.returns value) :=
  vouches_returns_iff.2 vouched

instance (iterator : Value) (mode : ResumeMode) (received : Value) [machine.Vouches iterator]
    [machine.Vouches received] :
    Sound collects machine (delegate iterator mode received) := by
  unfold delegate
  cases mode with
  | next => infer_instance
  | throw => infer_instance
  | «return» => infer_instance

/-- Go on until the iterator is done. -/
theorem ensures_yieldStar (base : Nat) (destination iterator : Register) :
    Ensures collects True machine (yieldStar base destination iterator : Exec σ Flow)
      fun after result => after.Allows result := by
  unfold yieldStar
  refine .after inferInstance fun iterator after _ _ _ => ?_
  refine .after inferInstance fun frame after _ _ _ => ?_
  refine .after inferInstance fun _ after _ _ _ => ?_
  have resumed : after.Vouches (frame.delegation.getD (.next, .undefined)) := inferInstance
  generalize frame.delegation.getD (.next, .undefined) = resumption at resumed ⊢
  dsimp only
  refine .after inferInstance fun answer after _ _ held => ?_
  cases answer with
  | returns value =>
      have := vouches_returns_iff.1 held
      exact ensures_returnValue base value
  | result result =>
      have := vouches_result_iff.1 held
      refine .after inferInstance fun isDone after _ _ _ => ?_
      split
      · refine .after inferInstance fun value after _ _ _ => ?_
        exact ensures_continue inferInstance
      · exact ensures_suspendDelegating base result

theorem ensures_execute (base : Nat) (template : Template) (instruction : Instruction) :
    Ensures collects True machine (execute base template instruction : Exec σ Flow)
      fun after result => after.Allows result := by
  unfold execute
  split
  · refine .after inferInstance fun value after _ _ _ => ?_
    exact ensures_returnValue base value
  · refine .after inferInstance fun callee after _ _ _ => ?_
    refine .after inferInstance fun receiver after _ _ _ => ?_
    refine .after inferInstance fun arguments after _ _ _ => ?_
    exact ensures_tailCall base callee receiver arguments
  · exact ensures_flow _ (concludes_endFinally base)
  · refine .bind (ensures_suspend base) fun frame after _ _ parked => ?_
    obtain ⟨held, free⟩ := parked
    exact .pure _ (allows_started frame free)
  · refine .after inferInstance fun value after _ _ _ => ?_
    refine .after inferInstance fun _ after _ _ _ => ?_
    refine .bind (ensures_suspend base) fun frame after _ later parked => ?_
    obtain ⟨held, free⟩ := parked
    have := later trivial
    exact .pure _ (allows_yielded value frame false free)
  · next destination iterator => exact ensures_yieldStar base destination iterator
  · refine .after inferInstance fun value after _ _ _ => ?_
    refine .after inferInstance fun _ after _ _ _ => ?_
    refine .bind (ensures_suspend base) fun frame after _ later parked => ?_
    obtain ⟨held, free⟩ := parked
    have := later trivial
    exact .pure _ (allows_awaiting value frame free)
  · exact ensures_continue (sound_act template _)

/-! ## Runs -/

instance : Sound collects machine fetch := by
  unfold fetch
  refine .ask ?_
  split
  · infer_instance
  · split <;> infer_instance

theorem ensures_step (base : Nat) :
    Ensures collects True machine (step base : Exec σ Flow)
      fun after result => after.Allows result := by
  unfold step
  refine .after inferInstance fun fetched after _ _ _ => ?_
  rcases fetched with _ | ⟨template, instruction⟩
  · exact ensures_returnValue base .undefined
  · exact ensures_execute base template instruction

omit consistent in
instance (exception : Exception) [vouched : machine.Vouches exception] :
    machine.Vouches (machine.attachStack exception) := by
  cases exception with
  | fault fault =>
      unfold attachStack
      dsimp only
      split <;> infer_instance
  | value value => exact vouched

instance (base : Nat) (exception : Exception) [machine.Vouches exception] :
    Sound collects machine (handle base exception) := by
  unfold handle
  infer_instance

omit consistent in
theorem ensures_advance
    (next : Exec σ Flow)
    (steps : Ensures collects True machine next fun after result => after.Allows result) :
    Ensures collects True machine (advance base next) fun after ended =>
      ∀ exit, ended = some exit -> after.AllowsExit exit := by
  unfold advance
  refine .bind steps.attempt fun outcome after _ _ held => ?_
  split
  · exact .pure _ fun _ impossible => by cases impossible
  · exact .pure _ fun _ same => Option.some.inj same ▸ held.exit
  · next exception =>
      have : after.Vouches exception := held
      refine .after inferInstance fun _ after _ _ _ => ?_
      exact .pure _ fun _ impossible => by cases impossible

theorem ensures_runFrames (base : Nat) :
    Ensures collects True machine (runFrames base : Exec σ FrameExit)
      fun after ended => after.AllowsExit ended := by
  unfold runFrames
  refine .iterate (fun _ _ => True) (fun _ after _ _ _ => ?_) () trivial
  refine .after inferInstance fun _ after _ _ _ => ?_
  refine .bind (ensures_advance base _ (ensures_step base)) fun ended after _ _ held => ?_
  split
  · next exit => exact .pure _ (held exit rfl)
  · exact .pure _ trivial

omit consistent in
theorem ensures_runFrom
    (first : Exec σ Flow)
    (steps : Ensures collects True machine first fun after result => after.Allows result) :
    Ensures collects True machine (runFrom base first) fun after ended =>
      after.AllowsExit ended := by
  unfold runFrom
  refine .bind (ensures_advance base first steps) fun ended after _ _ held => ?_
  split
  · next exit => exact .pure _ (held exit rfl)
  · exact ensures_runFrames base

/-- Run a new frame to its return. -/
theorem sound_runBoundaryFrame
    (frame : Frame)
    (fresh : frame.attached = [])
    [machine.Vouches frame] :
    Sound collects machine (runBoundaryFrame frame) := by
  unfold runBoundaryFrame
  refine ⟨.withNativeDepth (fun _ _ _ => vouches_withNativeDepth _)
    fun inside _ _ goes _ => ?_⟩
  refine .after inferInstance fun _ after _ _ _ => .ask ?_
  have pushed : Sound collects after
      (update fun machine => machine.pushFrame frame : Exec σ Unit) :=
    ⟨.update _ (.pushFrame (.of_fresh fresh)) inferInstance⟩
  refine .after pushed fun _ after _ _ _ => ?_
  refine .bind (ensures_runFrames _) fun ended after _ _ held => ?_
  split
  · exact .pure _ ⟨held.1.accepts⟩
  all_goals exact .stray _ _

end Exec
end ScriptVM

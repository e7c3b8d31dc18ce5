import ScriptVM.Machine.Jobs
import ScriptVM.Proofs.Soundness.Coroutines
import ScriptVM.Proofs.Sustaining.Collections

/-!
# Sound calls, requests and host programs

Calling and constructing anything is sound, and so is what a careful embedder asks for. Only
where queued programs may collect garbage, or the embedder does so itself, the machine may let
go of what nobody keeps.

A careful program leaves a consistent machine. So calling and constructing anything is sound,
whether it is made of bytecode, built in, or of the embedder.
-/

namespace ScriptVM

variable {σ : Type} {collects : Bool} {machine : Machine σ}

open Machine Exec

variable [consistent : machine.Consistent collects]

/-! ## Built-ins -/

namespace Builtins

instance : Sound collects machine constructFunction := by
  unfold constructFunction
  infer_instance

/-- A proxy goes by the form of its target. -/
instance sound_constructProxy
    (arguments : List Value)
    [machine.Vouches arguments] :
    Sound collects machine (Builtins.constructProxy arguments) := by
  unfold Builtins.constructProxy
  dsimp only
  split
  · infer_instance
  · have made : Ensures collects True machine
        (allocate none (.proxy (argument arguments 0) (argument arguments 1)) : Exec σ ObjectId)
        fun after id => after.kind? id =
          some (.proxy (argument arguments 0) (argument arguments 1)) :=
      .change _ inferInstance ((kind?_after_allocate _ _ _).trans (if_pos rfl))
    refine .bindEnsures made fun id after _ _ present => ?_
    split
    · next callable =>
        have := vouches_of_callable present callable
        infer_instance
    · next plain =>
        have := vouches_of_kind present (Bool.eq_false_iff.2 plain)
        infer_instance

instance (value : Value) [machine.Vouches value] :
    Sound collects machine (Value.object <$> promiseOf value) := by
  rw [map_eq_pure_bind]
  exact promises_bind _ _

instance (builtin : Builtin) (receiver : Value) (arguments : List Value) [machine.Vouches receiver]
    [machine.Vouches arguments] :
    Sound collects machine (run builtin receiver arguments) := by
  unfold run
  cases builtin <;> infer_instance

instance (constructor : BuiltinConstructor) (arguments : List Value) (newTarget : Value)
    [machine.Vouches arguments] [machine.Vouches newTarget] :
    Sound collects machine (construct constructor arguments newTarget) := by
  unfold construct
  cases constructor <;> infer_instance

end Builtins

namespace Exec

/-! ## Scripts and queues -/

omit consistent in
/-- Reporting what escapes is sound where the computation is. -/
theorem ensures_reporting
    {α : Type}
    {carries : Prop}
    {computation : Exec σ α}
    {holds : Machine σ -> α -> Prop}
    (ensures : Ensures collects carries machine computation holds) :
    Ensures collects carries machine (reporting computation) fun after outcome =>
      match outcome with
      | .ok answer => holds after answer
      | .error failure => after.Vouches failure := by
  unfold reporting
  refine .bind ensures.attempt fun outcome after _ _ held => ?_
  cases outcome with
  | ok answer => exact .pure _ held
  | error exception =>
      have : after.Vouches exception := held
      have reports : Sound collects after
          (change fun machine => machine.uncaught exception : Exec σ Failure) := inferInstance
      refine .bind (reports.ensures.weaken (fun _ => trivial) fun _ _ _ _ held => held)
        fun failure last _ _ given => .pure _ given

/-- Jobs leave everything alone that the machine vouched for, unless they may collect
garbage and no native call is under way. -/
def Spares (collects : Bool) (machine : Machine σ) : Prop :=
  collects = false ∨ 0 < machine.nativeDepth

omit consistent in
theorem Spares.later
    {after : Machine σ}
    (spares : Spares collects machine)
    (later : Later machine after) :
    Spares collects after :=
  spares.imp_right fun nested => Nat.lt_of_lt_of_le nested later.nativeDepth

theorem ensures_runMicrotasks :
    Ensures collects (Spares collects machine) machine (runMicrotasks : Exec σ (Except Failure Nat))
      fun after answer => after.Vouches answer := by
  have performs : Ensures collects (Spares collects machine) machine
      (perform .checkpoint : Exec σ Nat) fun _ _ => True :=
    fun env sound => (sound.performs .checkpoint machine consistent (vouches_of_nil rfl)).weaken
      id fun _ _ _ _ => trivial
  refine (ensures_reporting performs).imp fun after outcome held => ?_
  cases outcome with
  | ok count => infer_instance
  | error failure => exact vouches_error.2 held

theorem ensures_runEventLoop :
    Ensures collects (Spares collects machine) machine
      (runEventLoop : Exec σ (Except Failure LoopStats))
      fun after answer => after.Vouches answer := by
  have performs : Ensures collects (Spares collects machine) machine
      (perform .untilIdle : Exec σ LoopStats) fun _ _ => True :=
    fun env sound => (sound.performs .untilIdle machine consistent (vouches_of_nil rfl)).weaken
      id fun _ _ _ _ => trivial
  refine (ensures_reporting performs).imp fun after outcome held => ?_
  cases outcome with
  | ok count => infer_instance
  | error failure => exact vouches_error.2 held

/-- Run a script; the answer stays vouched for unless queued programs collect garbage. -/
theorem ensures_runScript (chunk : Chunk) :
    Ensures collects (Spares collects machine) machine
      (runScript chunk : Exec σ (Except Failure Value))
      fun after answer => collects = false -> after.Vouches answer := by
  unfold runScript
  have opens : Ensures collects True machine
      (change fun machine => machine.scriptFrame chunk : Exec σ Frame)
      fun after frame => after.Vouches frame ∧ frame.attached = [] :=
    .change _ inferInstance ⟨inferInstance, attached_scriptFrame chunk⟩
  refine .bind (opens.weaken (fun _ => trivial) fun _ _ _ _ held => held)
    fun frame after _ later ⟨_, fresh⟩ => ?_
  have runs : Ensures collects True after (reporting (runBoundaryFrame frame) : Exec σ _) _ :=
    ensures_reporting (sound_runBoundaryFrame frame fresh).ensures
  refine .bind (runs.weaken (fun _ => trivial) fun _ _ _ _ held => held)
    fun outcome last _ further held => ?_
  cases outcome with
  | error failure => exact .pure _ fun _ => vouches_error.2 held
  | ok value =>
      refine .ask ?_
      split
      · have spares : Spares collects machine -> Spares collects last := fun spares =>
          (spares.later (later spares)).later (further spares)
        refine .bind (ensures_runMicrotasks.weaken spares fun _ _ _ _ held => held)
          fun drained final _ still given => ?_
        split
        · exact .pure _ fun _ => vouches_error.2 (vouches_error.1 given)
        · exact .pure _ fun quiet => vouches_ok.2 ((still (Or.inl quiet)).vouches held)
      · exact .pure _ fun _ => vouches_ok.2 held

theorem ensures_executeChunk (chunk : Chunk) :
    Ensures collects (Spares collects machine) machine
      (executeChunk chunk : Exec σ (Except Failure Value))
      fun after answer => collects = false -> after.Vouches answer := by
  unfold executeChunk
  refine .ask ?_
  split
  · split
    · exact .pure _ fun _ => vouches_error.2 inferInstance
    · exact ensures_runScript chunk
  · exact ensures_runScript chunk

end Exec

/-! ## Requests -/

namespace Machine

variable {given : List Item}

omit consistent in
theorem vouches_known
    {α : Type}
    [Carrier α]
    {data : α}
    (knows : Knows given data)
    (accepted : ∀ item ∈ given, machine.Accepts item) :
    machine.Vouches data := by
  refine ⟨fun item member => ?_⟩
  cases knows item member with
  | given held => exact accepted item held
  | @primitive value plain =>
      cases value with
      | object => cases plain
      | function => cases plain
      | _ => trivial
  | named held same => exact (accepted _ held).live same

omit consistent in
/-- A machine that accepts what came before and vouches for the answer accepts what is left
of a request. -/
theorem accepts_leaves
    {request : Request}
    {response : request.Response}
    (vouched : machine.Vouches response)
    (accepted : ∀ item ∈ given, machine.Accepts item)
    (keeps : ∀ kept, request ≠ .collectGarbage kept) :
    ∀ item ∈ request.leaves collects given response, machine.Accepts item := by
  have both : ∀ item ∈ items response ++ given, machine.Accepts item := fun item member =>
    (List.mem_append.1 member).elim (vouched.accepts item) (accepted item)
  have rest : ∀ item ∈ (if request.drains && collects then [] else items response ++ given),
      machine.Accepts item := by
    intro item member
    split at member
    · cases member
    · exact both item member
  cases request with
  | collectGarbage kept => exact absurd rfl (keeps kept)
  | _ => exact rest

end Machine

/-- The machine leaves alone what it vouched for before the request. -/
def Request.Carries (collects : Bool) (machine : Machine σ) : Request -> Prop
  | .collectGarbage _ => 0 < machine.nativeDepth
  | request => request.drains = true -> Exec.Spares collects machine

namespace Exec

instance (value : Value) : Promises collects machine (promiseOperand value : Exec σ ObjectId) := by
  unfold promiseOperand
  refine ⟨.ask ?_⟩
  split
  · next id found => exact .pure id (vouches_of_promiseId? found)
  · exact .ask (.raise _)

/-- Requests that neither collect garbage nor let queued programs run. -/
theorem sound_answer
    (request : Request)
    (keeps : ∀ kept, request ≠ .collectGarbage kept)
    (still : request.drains = false)
    [vouched : machine.Vouches request] :
    Sound collects machine (answer request) := by
  cases request with
  | execute | runMicrotasks | runEventLoop => cases still
  | collectGarbage kept => exact absurd rfl (keeps kept)
  | get target _ | delete target _ _ | has target _ | getOwn target _ | ownKeys target
  | prototypeOf target | preventExtensions target | isExtensible target | freeze target
  | isFrozen target | isArray target | isConstructor target | toPrimitive target _
  | toNumber target | toText target | toPropertyKey target | display target
  | setGlobal _ target | createArray target | promiseState target =>
      have : machine.Vouches target := ⟨vouched.accepts⟩
      unfold answer
      infer_instance
  | resume _ left right | getWithReceiver left _ right | set left _ right _
  | createDataProperty left _ right | define left _ right | setPrototypeOf left right
  | looseEquals left right | instanceOf left right | resolvePromise left right
  | rejectPromise left right =>
      obtain ⟨_, _⟩ := (vouches_append left right rfl).1 vouched
      unfold answer
      infer_instance
  | call first second third | construct first second third | setWithReceiver first _ second third =>
      obtain ⟨both, _⟩ := (vouches_append (first, second) third rfl).1 vouched
      obtain ⟨_, _⟩ := vouches_pair.1 both
      unfold answer
      infer_instance
  | _ =>
      unfold answer
      infer_instance

/-- A collection lets go of nothing that the embedder keeps, and of nothing at all while a
native call is under way. -/
theorem ensures_collectGarbage (kept : List Value) :
    Ensures collects (0 < machine.nativeDepth) machine
      (change fun machine => machine.collectGarbage kept :
        Exec σ (Option Heap.CollectionStats))
      fun after _ => ∀ item ∈ items kept, machine.Accepts item -> after.Accepts item := by
  intro env _
  have follows : machine.Follows collects env.watch (0 < machine.nativeDepth)
      (machine.collectGarbage kept).2 := {
    consistent := consistent.collectGarbage kept
    later := fun nested => by
      rw [collectGarbage_nested kept nested]
      exact .refl machine
    acyclic := fun _ acyclic => acyclic.collectGarbage kept }
  cases picked : env.watch { machine := (machine.collectGarbage kept).2 } with
  | true =>
      rw [change_of_picked picked]
      exact Shows.of_follows follows
  | false =>
      rw [change_of_unpicked picked]
      refine ⟨follows, fun item member accepted => accepted.collectGarbage kept ?_⟩
      exact Traces.values kept item member

/-- Answer a request of a careful embedder. -/
theorem ensures_answer
    {given : List Item}
    (request : Request)
    (knows : Knows given request)
    (accepted : ∀ item ∈ given, machine.Accepts item) :
    Ensures collects (request.Carries collects machine) machine
      (answer request : Exec σ request.Response)
      fun after response => ∀ item ∈ request.leaves collects given response,
        after.Accepts item := by
  have vouched := vouches_known knows accepted
  -- Requests that let queued programs run leave nothing if these may collect garbage.
  have drained : request.drains = true -> (∀ kept, request ≠ .collectGarbage kept) ->
      Ensures collects (Spares collects machine) machine (answer request)
        (fun after response => collects = false -> after.Vouches response) ->
      Ensures collects (request.Carries collects machine) machine (answer request)
        fun after response => ∀ item ∈ request.leaves collects given response,
          after.Accepts item := by
    intro drains keeps ensures
    have carries : request.Carries collects machine -> Spares collects machine := by
      intro carries
      cases request with
      | collectGarbage kept => exact absurd rfl (keeps kept)
      | _ => exact carries drains
    refine (ensures.weaken id fun after response _ later held => ?_).weaken carries
      fun _ _ _ _ held => held
    cases collects with
    | true =>
        intro item member
        have nothing : request.leaves true given response = [] := by
          cases request with
          | collectGarbage kept => exact absurd rfl (keeps kept)
          | execute | runMicrotasks | runEventLoop => rfl
          | _ => cases drains
        rw [nothing] at member
        cases member
    | false =>
        exact accepts_leaves (held rfl)
          (fun item member => (later (Or.inl rfl)).accepts (accepted item member)) keeps
  have simple : request.drains = false -> (∀ kept, request ≠ .collectGarbage kept) ->
      Ensures collects (request.Carries collects machine) machine (answer request)
        fun after response => ∀ item ∈ request.leaves collects given response,
          after.Accepts item :=
    fun still keeps => (sound_answer request keeps still).ensures.weaken (fun _ => trivial)
      fun after response _ later held => accepts_leaves held
        (fun item member => (later trivial).accepts (accepted item member)) keeps
  cases request with
  | execute chunk => exact drained rfl (fun _ same => by cases same) (ensures_executeChunk chunk)
  | runMicrotasks =>
      exact drained rfl (fun _ same => by cases same)
        (ensures_runMicrotasks.imp fun _ _ held _ => held)
  | runEventLoop =>
      exact drained rfl (fun _ same => by cases same)
        (ensures_runEventLoop.imp fun _ _ held _ => held)
  | collectGarbage kept =>
      exact (ensures_collectGarbage kept).imp fun after response held item member =>
        held item member (vouched.accepts item member)
  | _ =>
      exact simple rfl fun _ same => by cases same

end Exec
end ScriptVM

namespace ScriptVM

variable {σ : Type} {collects : Bool}

open Machine Exec

/-- The machine leaves alone what it vouched for before the program ran. -/
def HostProgram.Carries (collects : Bool) (machine : Machine σ) (program : HostProgram σ) :
    Prop :=
  0 < machine.nativeDepth ∨ (collects = false ∧ program.Quiet)

namespace HostProgram.Carries

variable {machine : Machine σ}

theorem request
    {asked : Request}
    {next : asked.Response -> HostProgram σ}
    (carries : (HostProgram.request asked next).Carries collects machine) :
    asked.Carries collects machine := by
  cases asked with
  | collectGarbage kept =>
      exact carries.elim id fun ⟨_, quiet⟩ => absurd rfl (quiet.1 kept)
  | _ => exact fun _ => carries.symm.imp And.left id

/-- What is left of a program leaves things alone where the whole program does. -/
theorem goOn
    {program rest : HostProgram σ}
    {after : Machine σ}
    (carries : program.Carries collects machine)
    (later : Later machine after)
    (quiet : program.Quiet -> rest.Quiet) :
    rest.Carries collects after :=
  carries.imp (fun nested => Nat.lt_of_lt_of_le nested later.nativeDepth)
    fun ⟨still, whole⟩ => ⟨still, quiet whole⟩

end HostProgram.Carries

namespace Exec

/-- Run a careful program. -/
theorem ensures_runProgram
    {given : List Item}
    (program : HostProgram σ)
    (machine : Machine σ)
    (consistent : machine.Consistent collects)
    (careful : program.Careful collects given)
    (accepted : ∀ item ∈ given, machine.Accepts item) :
    Ensures collects (program.Carries collects machine) machine
      (runProgram program : Exec σ Value) fun after answer => after.Vouches answer := by
  induction program generalizing machine given with
  | finish outcome =>
      have vouched : machine.Vouches outcome := vouches_known careful accepted
      exact .ofExcept outcome (fun answer same => vouches_ok.1 (same ▸ vouched))
        fun exception same => vouches_error.1 (same ▸ vouched)
  | read next more =>
      exact .ask ((more machine.world machine consistent (careful machine.world) accepted).weaken
        (fun carries => carries.goOn (.refl machine) fun quiet => quiet machine.world)
        fun _ _ _ _ held => held)
  | write world next more =>
      have writes : machine.Sustains collects { machine with world } := inferInstance
      have goes : Ensures collects (HostProgram.Carries collects machine (.write world next)) machine
          (update fun machine => { machine with world } : Exec σ Unit)
          fun after _ => Later machine after := .update _ writes writes.later
      refine .bind goes fun _ after consistent _ later => ?_
      exact (more after consistent careful fun item member =>
        later.accepts (accepted item member)).weaken
          (fun carries => carries.goOn later id) fun _ _ _ _ held => held
  | request asked next more =>
      refine .bind ((ensures_answer asked careful.1 accepted).weaken
        HostProgram.Carries.request fun _ _ _ _ held => held) fun response after consistent later
          left => ?_
      exact (more response after consistent (careful.2 response) left).weaken
        (fun carries => carries.goOn (later carries) fun quiet => quiet.2 response)
        fun _ _ _ _ held => held
  | register name arity body next _ more =>
      have installs : machine.Sustains collects (machine.registerHost name arity body).2 ∧
          (machine.registerHost name arity body).2.Vouches
            (machine.registerHost name arity body).1 :=
        sustains_registerHost_and_vouches careful.1
      obtain ⟨registers, named⟩ := installs
      have goes : Ensures collects
          (HostProgram.Carries collects machine (.register name arity body next)) machine
          (change fun machine => machine.registerHost name arity body : Exec σ Value)
          fun after function => Later machine after ∧ after.Vouches function :=
        .change _ registers ⟨registers.later, named⟩
      refine .bind goes fun function after consistent _ ⟨later, vouched⟩ => ?_
      refine (more function after consistent (careful.2 function) fun item member => ?_).weaken
        (fun carries => carries.goOn later fun quiet => quiet function) fun _ _ _ _ held => held
      exact (List.mem_append.1 member).elim (vouched.accepts item) fun old =>
        later.accepts (accepted item old)
  | enqueueTask body next _ more =>
      have queues : machine.Sustains collects
          { machine with jobs := machine.jobs.enqueueTask body } := sustains_enqueueTask careful.1
      have goes : Ensures collects
          (HostProgram.Carries collects machine (.enqueueTask body next)) machine
          (update fun machine => { machine with jobs := machine.jobs.enqueueTask body } :
            Exec σ Unit) fun after _ => Later machine after := .update _ queues queues.later
      refine .bind goes fun _ after consistent _ later => ?_
      exact (more after consistent careful.2 fun item member =>
        later.accepts (accepted item member)).weaken
          (fun carries => carries.goOn later id) fun _ _ _ _ held => held
  | enqueueMicrotask body next _ more =>
      have queues : machine.Sustains collects (machine.submitJob (.host body)) :=
        sustains_enqueueHost careful.1
      have goes : Ensures collects
          (HostProgram.Carries collects machine (.enqueueMicrotask body next)) machine
          (update fun machine => machine.submitJob (.host body) : Exec σ Unit)
          fun after _ => Later machine after := .update _ queues queues.later
      refine .bind goes fun _ after consistent _ later => ?_
      exact (more after consistent careful.2 fun item member =>
        later.accepts (accepted item member)).weaken
          (fun carries => carries.goOn later id) fun _ _ _ _ held => held

/-! ## Calls -/

variable {machine : Machine σ} [consistent : machine.Consistent collects]
variable (arguments : List Value) (receiver : Value) (id : ObjectId) (closure : Closure)

instance (id : HostId) [nested : machine.Nested] [receives : machine.Vouches receiver]
    [takes : machine.Vouches arguments] :
    Sound collects machine (runHost id receiver arguments) := by
  unfold runHost
  refine .ask ?_
  split
  · next body present =>
      have careful := consistent.attended.hosts body (Array.mem_of_getElem? present)
        receiver arguments
      refine ⟨(ensures_runProgram _ machine consistent careful fun item member => ?_).weaken
        (fun _ => Or.inl nested.positive) fun _ _ _ _ held => held⟩
      exact (List.mem_append.1 member).elim (receives.accepts item) (takes.accepts item)
  · infer_instance

instance (behavior : NativeBehavior) [machine.Nested] [vouched : machine.Vouches behavior]
    [machine.Vouches receiver] [machine.Vouches arguments] :
    Sound collects machine (runNative behavior receiver arguments) := by
  unfold runNative
  dsimp only
  split
  · infer_instance
  · infer_instance
  · next promise latch reject =>
      have : machine.Vouches (PromiseHandle.mk promise) := ⟨vouched.accepts⟩
      infer_instance
  · next index aggregate capability settlement =>
      obtain ⟨_, _⟩ := vouches_combinatorElement_iff.1 vouched
      infer_instance
  · next onFinally settlement =>
      have : machine.Vouches onFinally := ⟨vouched.accepts⟩
      infer_instance
  · next value settlement =>
      have : machine.Vouches value := ⟨vouched.accepts⟩
      infer_instance

theorem ensures_callFrame
    (id : ObjectId)
    (closure : Closure)
    (receiver : Value)
    (arguments : List Value)
    [machine.Vouches (Value.function id)]
    [machine.Vouches closure]
    [machine.Vouches receiver]
    [machine.Vouches arguments] :
    Ensures collects True machine
      (change fun machine => machine.callFrame id closure receiver arguments .boundary :
        Exec σ Frame)
      fun after frame => Later machine after ∧ after.Vouches frame ∧ frame.attached = [] :=
  have calls : machine.Sustains collects
      (machine.callFrame id closure receiver arguments .boundary).2 := inferInstance
  .change _ calls ⟨calls.later, inferInstance, attached_openFrame ..⟩

instance [machine.Vouches (Value.function id)] [machine.Vouches closure] [machine.Vouches receiver]
    [machine.Vouches arguments] :
    Sound collects machine (callClosure id closure receiver arguments) := by
  unfold callClosure
  dsimp only
  split
  · infer_instance
  · refine .bindEnsures (ensures_callFrame id closure receiver arguments)
      fun frame after _ _ ⟨_, _, fresh⟩ => ?_
    split
    · exact sound_createGenerator id frame fresh
    · split
      · exact sound_startAsync frame fresh
      · exact sound_runBoundaryFrame frame fresh

instance (target handler : Value) [machine.Vouches target] [machine.Vouches handler]
    [machine.Vouches receiver] [machine.Vouches arguments] :
    Sound collects machine (callProxy target handler receiver arguments) := by
  unfold callProxy
  infer_instance

instance sound_callValue
    (callee receiver : Value)
    (arguments : List Value)
    [machine.Vouches receiver]
    [machine.Vouches arguments] : Sound collects machine (callValue callee receiver arguments) := by
  unfold callValue
  split
  · next id =>
      refine .ask ?_
      split
      · next closure present =>
          have : machine.Vouches closure := vouches_function_kind.1 (.of_some present)
          have : machine.Vouches (Value.function id) := vouches_of_callable present rfl
          infer_instance
      · next native present =>
          have : machine.Vouches native.behavior := vouches_native_kind.1 (.of_some present)
          infer_instance
      · next target bound leading present =>
          obtain ⟨_, _, _⟩ := vouches_bound_kind.1 (vouches_of_kind? present)
          infer_instance
      · next target handler present =>
          obtain ⟨_, _⟩ := vouches_proxy_kind.1 (vouches_of_kind? present)
          infer_instance
      · infer_instance
  · infer_instance

/-! ## Constructions -/

instance {α : Type} [Carrier α] (callee : Value) :
    Sound collects machine (notConstructor callee : Exec σ α) := by
  unfold notConstructor
  infer_instance

instance {α β : Type} [Carrier β] (callee : Value) (next : α -> Exec σ β) :
    Sound collects machine (notConstructor callee >>= next) := by
  unfold notConstructor
  infer_instance

instance (newTarget : Value) [machine.Vouches (Value.function id)] [machine.Vouches closure]
    [machine.Vouches arguments] [machine.Vouches newTarget] :
    Sound collects machine (constructDerived id closure arguments newTarget) := by
  unfold constructDerived
  have adds : machine.Sustains collects
      { machine with cells := machine.cells.addThisCell.2 } := inferInstance
  have added : Vouches { machine with cells := machine.cells.addThisCell.2 }
      machine.cells.addThisCell.1 := inferInstance
  have opens : Ensures collects True machine
      (change fun machine =>
        let (cell, cells) := machine.cells.addThisCell
        let scope : Scope :=
          { this := .pending cell
            newTarget
            function := some id
            homeObject := closure.homeObject }
        { machine with cells }.openFrame id closure scope arguments .boundary : Exec σ Frame)
      fun after frame => after.Vouches frame ∧ frame.attached = [] := by
    refine .change _ ?_ ⟨?_, attached_openFrame ..⟩
    all_goals
      dsimp only
      generalize machine.cells.addThisCell = entry at adds added ⊢
      obtain ⟨cell, cells⟩ := entry
      dsimp only at adds added ⊢
      generalize ({ machine with cells } : Machine σ) = middle at adds added ⊢
      have := adds.consistent
      have := adds.later
    · exact Descends.sustains
    · infer_instance
  refine .bindEnsures opens fun frame after _ _ ⟨_, fresh⟩ => ?_
  exact sound_runBoundaryFrame { frame with construct := .derived } fresh

instance (newTarget : Value) [machine.Vouches (Value.function id)] [machine.Vouches closure]
    [machine.Vouches arguments] [machine.Vouches newTarget] :
    Sound collects machine (constructBase id closure arguments newTarget) := by
  unfold constructBase
  refine .ask (.bind inferInstance fun prototype after _ _ _ => ?_)
  refine .bindEnsures (names_allocate (some prototype) .ordinary).ensures fun this after _ _ _ => ?_
  have opens : Ensures collects True after
      (change fun machine => machine.openFrame id closure
        { this := .bound (.object this)
          newTarget
          function := some id
          homeObject := closure.homeObject } arguments .boundary : Exec σ Frame)
      fun after frame => after.Vouches frame ∧ frame.attached = [] :=
    .change _ inferInstance ⟨inferInstance, attached_openFrame ..⟩
  refine .bindEnsures opens fun frame after _ _ ⟨_, fresh⟩ => ?_
  split
  · refine .bind inferInstance fun _ after _ _ _ => ?_
    exact sound_runBoundaryFrame { frame with construct := .base } fresh
  · exact sound_runBoundaryFrame { frame with construct := .base } fresh

instance sound_constructProxy
    (id : ObjectId)
    (target handler : Value)
    (arguments : List Value)
    (newTarget : Value)
    [machine.Vouches target]
    [machine.Vouches handler]
    [machine.Vouches arguments]
    [machine.Vouches newTarget] :
    Sound collects machine (constructProxy id target handler arguments newTarget) := by
  unfold constructProxy
  infer_instance

instance sound_constructValue
    (callee : Value)
    (arguments : List Value)
    (newTarget : Value)
    [vouched : machine.Vouches callee]
    [machine.Vouches arguments]
    [machine.Vouches newTarget] :
    Sound collects machine (constructValue callee arguments newTarget) := by
  unfold constructValue
  split
  · infer_instance
  · next id named =>
      have : machine.Vouches id := .of_some named
      refine .ask ?_
      split
      · next closure present =>
          have : machine.Vouches closure := vouches_function_kind.1 (.of_some present)
          have : machine.Vouches (Value.function id) := vouches_of_callable present rfl
          dsimp only
          infer_instance
      · next native present =>
          split <;> infer_instance
      · next target bound leading present =>
          obtain ⟨_, _, _⟩ := vouches_bound_kind.1 (vouches_of_kind? present)
          infer_instance
      · next target handler present =>
          obtain ⟨_, _⟩ := vouches_proxy_kind.1 (vouches_of_kind? present)
          infer_instance
      · infer_instance

end Exec
end ScriptVM

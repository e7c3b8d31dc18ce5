import ScriptVM.Proofs.Soundness.Builtins
import ScriptVM.Proofs.Soundness.Dispatch

/-!
# Sound coroutines

A frame that a coroutine gives back is free, and so is one that a run hands out when it is
suspended. So frames can move between the stack and the coroutines.
-/

namespace ScriptVM

variable {σ : Type} {collects : Bool} {machine : Machine σ}

open Machine

theorem Machine.vouches_coroutine {coroutine : Coroutine} :
    machine.Vouches coroutine ↔
      machine.Vouches coroutine.frame ∧ machine.Vouches coroutine.kind :=
  vouches_append _ _ rfl

namespace Machine.AllowsExit

variable {frame : Frame}

theorem returned {value : Value} (allows : machine.AllowsExit (.returned value)) :
    machine.Vouches value :=
  ⟨allows.1.accepts⟩

theorem yielded
    {value : Value}
    {delegating : Bool}
    (allows : machine.AllowsExit (.yielded value frame delegating)) :
    machine.Vouches value ∧ machine.Vouches frame ∧ machine.Frees frame := by
  obtain ⟨given, held⟩ := (vouches_append _ _ rfl).1 allows.1
  exact ⟨given, held, allows.2 frame rfl⟩

theorem awaiting {value : Value} (allows : machine.AllowsExit (.awaiting value frame)) :
    machine.Vouches value ∧ machine.Vouches frame ∧ machine.Frees frame := by
  obtain ⟨given, held⟩ := (vouches_append _ _ rfl).1 allows.1
  exact ⟨given, held, allows.2 frame rfl⟩

theorem started (allows : machine.AllowsExit (.started frame)) :
    machine.Vouches frame ∧ machine.Frees frame :=
  ⟨⟨allows.1.accepts⟩, allows.2 frame rfl⟩

end Machine.AllowsExit

/-- The machine vouches for what a run of a coroutine comes to. -/
def Machine.AllowsOutcome (machine : Machine σ) : Except Exception FrameExit -> Prop
  | .ok ended => machine.AllowsExit ended
  | .error exception => machine.Vouches exception

variable [consistent : machine.Consistent collects]

namespace Exec

variable {id : ObjectId} {state : CoroutineState} {coroutine : ObjectId} {frame : Frame}

/-! ## Parked frames -/

theorem sound_park
    (id : ObjectId)
    (state : CoroutineState)
    (frame : Frame)
    (free : machine.Frees frame)
    [machine.Generates id]
    [machine.Vouches frame] :
    Sound collects machine (park id state (some frame)) :=
  ⟨.update _ (sustains_park id state (some frame) fun _ same => Option.some.inj same ▸ free)
    inferInstance⟩

instance (id : ObjectId) (state : CoroutineState) [machine.Generates id] :
    Sound collects machine (park id state none) :=
  ⟨.update _ (sustains_park_none id state) inferInstance⟩

/-- The frame that a coroutine gives back is free. -/
theorem vouches_unparked
    (maintains : machine.Maintains collects (machine.park id state none))
    (held : (machine.coroutine? id).bind Coroutine.frame = some frame) :
    (machine.park id state none).Vouches frame ∧ (machine.park id state none).Frees frame := by
  obtain ⟨coroutine, present, held⟩ := Option.bind_eq_some_iff.1 held
  have vouched : machine.Vouches coroutine := .of_some present
  have frames : machine.Vouches coroutine.frame := (vouches_coroutine.1 vouched).1
  exact ⟨maintains.preserves.vouches (.of_some held), .of_unparked present held state⟩

theorem ensures_unpark (id : ObjectId) [machine.Generates id] :
    Ensures collects True machine (unpark id : Exec σ (Option Frame)) fun after held =>
      ∀ frame, held = some frame -> after.Vouches frame ∧ after.Frees frame := by
  unfold unpark
  refine .ask ?_
  have parks : machine.Sustains collects (machine.park id .running none) := inferInstance
  have parked : Ensures collects True machine (park id .running none : Exec σ Unit) fun after _ =>
      after = machine.park id .running none := .update _ parks rfl
  refine .bind parked fun _ after _ _ same => .pure _ fun frame held => ?_
  subst same
  exact vouches_unparked parks.maintains held

/-! ## Resumptions -/

theorem ensures_receive
    (frame : Frame)
    (mode : ResumeMode)
    (value : Value)
    (free : machine.Frees frame)
    [machine.Vouches frame]
    [machine.Vouches value] :
    Ensures collects True machine (receive frame mode value : Exec σ Frame)
      fun after resumed => after.Vouches resumed ∧ after.Frees resumed := by
  unfold receive
  split
  · exact .pure _ ⟨inferInstance, ⟨free.attaches, free.apart⟩⟩
  · split
    · next register _ =>
        have writes : machine.Sustains collects (machine.modifyCells fun cells =>
            cells.setRegister frame.window register value) := sustains_setCellRegister ..
        have := writes.later
        have written := free.setCellRegister frame.window register value
        refine .bind (.update _ writes ⟨inferInstance, ⟨written.attaches, written.apart⟩⟩)
          fun _ after _ _ held => .pure _ held
    · exact .pure _ ⟨inferInstance, free⟩

theorem ensures_enter
    (base : Nat)
    (delegating : Bool)
    (mode : ResumeMode)
    (value : Value)
    [machine.Vouches value] :
    Ensures collects True machine (enter base delegating mode value : Exec σ Flow)
      fun after result => after.Allows result := by
  unfold enter
  split
  · exact .pure _ allows_continue
  · cases mode with
    | next => exact .pure _ allows_continue
    | throw => exact .raise _
    | «return» => exact ensures_returnValue base value

theorem ensures_checkCallDepth :
    Ensures collects True machine (checkCallDepth : Exec σ Unit) fun after _ =>
      after = machine := by
  unfold checkCallDepth
  refine .ask ?_
  split
  · exact .raise _
  · exact .pure _ rfl

/-- Run the free frame of a coroutine until it suspends or ends. -/
theorem ensures_runCoroutine
    (frame : Frame)
    (mode : ResumeMode)
    (value : Value)
    (free : machine.Frees frame)
    [machine.Vouches frame]
    [machine.Vouches value] :
    Ensures collects True machine (runCoroutine frame mode value : Exec σ FrameExit)
      fun after ended => after.AllowsExit ended := by
  unfold runCoroutine
  refine .bind (ensures_receive frame mode value free) fun resumed after _ later ⟨_, free⟩ => ?_
  have := later trivial
  refine .withNativeDepth (fun last ended nativeDepth allows =>
    ⟨vouches_withNativeDepth nativeDepth allows.1, allows.2.withNativeDepth nativeDepth⟩)
    fun inside same _ _ _ => ?_
  refine .bind ensures_checkCallDepth fun _ checked _ _ stays => .ask ?_
  have free : checked.Frees resumed := by
    rw [stays, same]
    exact free.withNativeDepth _
  subst stays
  have pushed : Sound collects checked
      (update fun machine => machine.pushFrame resumed : Exec σ Unit) :=
    ⟨.update _ (.pushFrame free) inferInstance⟩
  refine .after pushed fun _ running _ _ _ => ?_
  exact ensures_runFrom _ _ (ensures_enter _ _ _ _)

theorem ensures_attemptCoroutine
    (frame : Frame)
    (mode : ResumeMode)
    (value : Value)
    (free : machine.Frees frame)
    [machine.Vouches frame]
    [machine.Vouches value] :
    Ensures collects True machine (attempt (runCoroutine frame mode value) : Exec σ _)
      fun after outcome => after.AllowsOutcome outcome :=
  (ensures_runCoroutine frame mode value free).attempt.imp fun after outcome held => by
    cases outcome with
    | ok ended => exact held
    | error exception => exact held

/-- A new coroutine runs. -/
theorem ensures_createCoroutine
    (prototype : ObjectId)
    (kind : CoroutineKind)
    [machine.Vouches prototype]
    [machine.Vouches kind] :
    Ensures collects True machine (createCoroutine prototype kind : Exec σ ObjectId)
      fun after id => machine.kind? id = none ∧
        after.kind? id = some (.coroutine { state := .running, frame := none, kind }) := by
  let operation (machine : Machine σ) := machine.allocate (some prototype)
    (.coroutine { state := .running, frame := none, kind })
  have made : (operation machine).2.kind? (operation machine).1 =
      some (.coroutine { state := .running, frame := none, kind }) :=
    (kind?_after_allocate _ _ _).trans (if_pos rfl)
  have dead : machine.kind? (operation machine).1 = none := kind?_allocated _ _
  exact .change operation (sustains_allocate _ _) ⟨dead, made⟩

/-! ## Generators -/

theorem sound_createGenerator
    (function : ObjectId)
    (frame : Frame)
    (fresh : frame.attached = [])
    [machine.Vouches (Value.function function)]
    [machine.Vouches frame] :
    Sound collects machine (createGenerator function frame) := by
  unfold createGenerator
  refine .ask (.bind inferInstance fun prototype after _ _ _ => ?_)
  refine .bindEnsures (ensures_createCoroutine prototype .generator)
    fun id after _ _ made => ?_
  have : after.Vouches (Value.object id) := vouches_of_kind made.2 rfl
  have : after.Generates id := ⟨nature?_of_kind? made.2⟩
  have free : after.Frees { frame with coroutine := some id } := .of_fresh fresh
  refine .bindEnsures (ensures_attemptCoroutine _ .next .undefined free)
    fun outcome after _ _ held => ?_
  split
  · next suspended =>
      obtain ⟨_, free⟩ := AllowsExit.started held
      exact .bind (sound_park id .suspendedStart suspended free) fun _ after _ _ _ => inferInstance
  · infer_instance
  · next exception =>
      have : after.Vouches exception := held
      infer_instance

instance (mode : ResumeMode) (value : Value) [machine.Vouches value] :
    Sound collects machine (resumeCompleted mode value) := by
  unfold resumeCompleted
  cases mode <;> infer_instance

instance (id : ObjectId) (mode : ResumeMode) (value : Value) [machine.Generates id]
    [machine.Vouches value] :
    Sound collects machine (resumeSuspended id mode value) := by
  unfold resumeSuspended
  refine .bindEnsures (ensures_unpark id) fun held after _ _ parked => ?_
  cases held with
  | none => exact sound_raise _
  | some frame =>
      obtain ⟨_, free⟩ := parked frame rfl
      refine .bindEnsures (ensures_attemptCoroutine frame mode value free)
        fun outcome after _ _ held => ?_
      split
      · next value suspended delegated =>
          obtain ⟨_, _, free⟩ := AllowsExit.yielded held
          exact .bind (sound_park id .suspendedYield suspended free)
            fun _ after _ _ _ => inferInstance
      · next value =>
          have := AllowsExit.returned held
          infer_instance
      · infer_instance
      · next exception =>
          have : after.Vouches exception := held
          infer_instance

omit consistent in
theorem generates_of_generator?
    {value : Value}
    {coroutine : Coroutine}
    (found : generator? machine value = some (id, coroutine)) :
    machine.Generates id := by
  obtain ⟨_, _, found⟩ := Option.bind_eq_some_iff.1 found
  obtain ⟨activation, present, found⟩ := Option.bind_eq_some_iff.1 found
  split at found
  · next generator =>
      cases found
      refine ⟨(nature?_of_kind? (kind?_of_coroutine? present)).trans ?_⟩
      exact congrArg (fun kind => some (ObjectKind.Nature.coroutine kind)) (eq_of_beq generator)
  · cases found

instance (generator : Value) (mode : ResumeMode) (value : Value) [machine.Vouches value] :
    Sound collects machine (resumeGenerator generator mode value) := by
  unfold resumeGenerator
  refine .ask ?_
  split
  · infer_instance
  · next id coroutine found =>
      have := generates_of_generator? found
      split <;> infer_instance

/-! ## Async functions -/

omit consistent in
/-- An async function that an earlier machine did not have in hand changes its state, and one
resumption of it may be added. -/
theorem follows_resteer
    {origin after : Machine σ}
    {watch : Sight σ -> Bool}
    (follows : origin.Follows collects watch True machine)
    (apart : ∀ state, ¬ origin.InHand coroutine state)
    (maintains : machine.Maintains collects after)
    (resteers : machine.Resteers after coroutine) :
    origin.Follows collects watch True after where
  consistent := maintains.consistent
  later _ :=
    have later := follows.later trivial
    { toPreserves := later.toPreserves.trans maintains.preserves
      inHand := fun held => resteers.inHand (later.inHand held)
        fun same => apart _ (same ▸ held) }
  acyclic heeds acyclic := maintains.acyclic (follows.acyclic heeds acyclic)

/-- The computation leaves a consistent machine where something holds of the answer. It may
drive one async function: seen from any earlier machine that did not have this one in hand, all
is kept. -/
def Drives (collects : Bool) (coroutine : ObjectId) (machine : Machine σ)
    (computation : Exec σ α) (holds : Machine σ -> α -> Prop) : Prop :=
  ∀ env, env.Sound collects -> ∀ origin : Machine σ,
    origin.Follows collects env.watch True machine ->
    (∀ state, ¬ origin.InHand coroutine state) ->
    origin.Keeps collects env.watch True
      (fun after answer => machine.Preserves after ∧ holds after answer)
      (computation env machine)

namespace Drives

variable {coroutine : ObjectId} {holds : Machine σ -> α -> Prop} {wants : Machine σ -> β -> Prop}

omit consistent

/-- The computation drives no async function. -/
theorem of_ensures
    {computation : Exec σ α}
    (ensures : Ensures collects True machine computation holds) :
    Drives collects coroutine machine computation holds :=
  fun env sound _ follows _ => .since follows ((ensures env sound).weaken id
    fun _ _ goes held => ⟨(goes.later trivial).toPreserves, held⟩)

theorem bind
    {first : Exec σ α}
    {next : α -> Exec σ β}
    (earlier : Drives collects coroutine machine first holds)
    (later : ∀ answer after, after.Consistent collects -> machine.Preserves after ->
      holds after answer -> Drives collects coroutine after (next answer) wants) :
    Drives collects coroutine machine (first >>= next) wants := by
  intro env sound origin follows apart
  have kept := earlier env sound origin follows apart
  cases ran : first env machine with
  | ok answer middle =>
      rw [Exec.bind_of_ok next ran]
      rw [ran] at kept
      obtain ⟨goes, preserves, held⟩ := kept
      exact (later answer middle goes.consistent preserves held env sound origin goes apart).weaken
        id fun _ _ _ held => ⟨preserves.trans held.1, held.2⟩
  | error stop middle =>
      rw [Exec.bind_of_error next ran]
      rw [ran] at kept
      exact kept.error

theorem ask
    {query : Machine σ -> β}
    {next : β -> Exec σ α}
    (drives : Drives collects coroutine machine (next (query machine)) holds) :
    Drives collects coroutine machine (Exec.ask query >>= next) holds :=
  drives

/-- First comes a computation that drives no async function. -/
theorem after
    {first : Exec σ α}
    {next : α -> Exec σ β}
    (earlier : Ensures collects True machine first holds)
    (later : ∀ answer after, after.Consistent collects -> Later machine after ->
      holds after answer -> Drives collects coroutine after (next answer) wants) :
    Drives collects coroutine machine (first >>= next) wants :=
  .bind (.of_ensures (earlier.weaken id fun _ _ _ goes held => And.intro (goes trivial) held))
    fun answer after consistent _ ⟨goes, held⟩ => later answer after consistent goes held

theorem change
    (operation : Machine σ -> α × Machine σ)
    (maintains : machine.Maintains collects (operation machine).2)
    (resteers : machine.Resteers (operation machine).2 coroutine) :
    Drives collects coroutine machine (Exec.change operation) fun after answer =>
      after = (operation machine).2 ∧ answer = (operation machine).1 := by
  intro env _ origin follows apart
  have goes := follows_resteer follows apart maintains resteers
  cases picked : env.watch { machine := (operation machine).2 } with
  | true =>
      rw [change_of_picked picked]
      exact Shows.of_follows goes
  | false =>
      rw [change_of_unpicked picked]
      exact ⟨goes, maintains.preserves, rfl, rfl⟩

end Drives

omit consistent in
/-- An async function is driven that was not in hand before. -/
theorem Ensures.drive
    {first : Exec σ α}
    {next : α -> Exec σ β}
    {holds : Machine σ -> α -> Prop}
    {wants : Machine σ -> β -> Prop}
    (earlier : Ensures collects True machine first holds)
    (later : ∀ answer after, after.Consistent collects -> Later machine after ->
      holds after answer -> ∃ coroutine, (∀ state, ¬ machine.InHand coroutine state) ∧
        Drives collects coroutine after (next answer) wants) :
    Ensures collects True machine (first >>= next) wants := by
  intro env sound
  have kept := earlier env sound
  cases ran : first env machine with
  | ok answer middle =>
      rw [Exec.bind_of_ok next ran]
      rw [ran] at kept
      obtain ⟨coroutine, apart, drives⟩ :=
        later answer middle kept.1.consistent (kept.1.later trivial) kept.2
      exact (drives env sound machine kept.1 apart).weaken id fun _ _ _ held => held.2
  | error stop middle =>
      rw [Exec.bind_of_error next ran]
      rw [ran] at kept
      exact kept.error

omit consistent in
theorem drives_park
    {frame : Option Frame}
    (maintains : machine.Maintains collects (machine.park coroutine state frame)) :
    Drives collects coroutine machine (park coroutine state frame : Exec σ Unit) fun after _ =>
      after = machine.park coroutine state frame := by
  have changes := Drives.change (fun machine => ((), machine.park coroutine state frame)) maintains
    (resteers_park coroutine state frame)
  exact fun env sound origin follows apart =>
    (changes env sound origin follows apart).weaken id fun _ _ _ held => ⟨held.1, held.2.1⟩

omit consistent in
/-- A reaction with the same handler for both settlements resumes what this one does. -/
theorem only_resumes
    {coroutine other : ObjectId}
    {capability : Option ObjectId}
    (resumes : Reaction.Resumes
      { capability
        onFulfilled := .asyncResume coroutine
        onRejected := .asyncResume coroutine } other) :
    other = coroutine := by
  obtain ⟨settlement, same⟩ := resumes
  cases settlement <;> exact (Handler.asyncResume.inj same).symm

/-- A suspended async function waits for a promise. -/
theorem drives_await
    (promise : ObjectId)
    (held : machine.InHand coroutine (.suspendedYield, true))
    [machine.Vouches coroutine] :
    Drives collects coroutine machine
      (registerReaction promise
        { capability := none
          onFulfilled := .asyncResume coroutine
          onRejected := .asyncResume coroutine } : Exec σ Unit) fun _ _ => True := by
  have resteers := machine.resteers_registerReaction promise
    { capability := none, onFulfilled := .asyncResume coroutine
      onRejected := .asyncResume coroutine } fun _ => only_resumes
  have maintains := maintains_registerReaction promise _ (resteers.resumesOnce consistent.resumes
    held.unresumed fun _ => (asyncState?_registerReaction promise _ coroutine).trans held.state)
  unfold registerReaction changeOrRaise
  refine .bind (.change _ maintains resteers) fun outcome after _ _ ⟨_, same⟩ => .of_ensures ?_
  have : after.Vouches outcome := same ▸ vouches_registerReaction promise _
  exact (sound_ofExcept outcome).ensures.imp fun _ _ _ => trivial

/-- An async function that runs is parked again, or it is done. -/
theorem drives_concludeAsync
    (promise : ObjectId)
    (outcome : Except Exception FrameExit)
    (held : machine.InHand coroutine (.running, false))
    (allows : machine.AllowsOutcome outcome)
    [machine.Vouches coroutine]
    [machine.Vouches (PromiseHandle.mk promise)] :
    Drives collects coroutine machine (concludeAsync coroutine promise outcome : Exec σ Unit)
      fun _ _ => True := by
  have completes := held.maintains_park_none .completed
  have := completes.consistent
  have kept : (machine.park coroutine .completed none).Vouches (PromiseHandle.mk promise) :=
    completes.preserves.vouches ‹_›
  unfold concludeAsync
  split
  · next value frame =>
      obtain ⟨value, _, free⟩ := AllowsExit.awaiting allows
      have parks := held.maintains_park .suspendedYield (some frame)
        fun _ same => Option.some.inj same ▸ free
      have := parks.consistent
      have value := parks.preserves.vouches value
      have named := parks.preserves.vouches ‹machine.Vouches coroutine›
      have held := held.park .suspendedYield (some frame)
      refine .bind (drives_park parks) fun _ after _ _ same => ?_
      subst same
      refine .after (promises_promiseOf _).ensures fun promise last _ later _ => ?_
      exact drives_await promise (later.inHand held)
  · have returned := completes.preserves.vouches (AllowsExit.returned allows)
    refine .bind (drives_park completes) fun _ after _ _ same => .of_ensures ?_
    subst same
    exact (sound_resolvePromise promise _).ensures.imp fun _ _ _ => trivial
  · refine .bind (drives_park completes) fun _ after _ _ same => .of_ensures ?_
    exact .stray _ _
  · refine .bind (drives_park completes) fun _ after _ _ same => .of_ensures ?_
    exact .stray _ _
  · next exception =>
      have thrown := completes.preserves.vouches (show machine.Vouches exception from allows)
      refine .bind (drives_park completes) fun _ after _ _ same => .of_ensures ?_
      subst same
      exact (sound_rejectWith promise exception).ensures.imp fun _ _ _ => trivial

omit consistent in
theorem inHand_of_dead {state : CoroutineState × Bool} (dead : machine.kind? id = none) :
    ¬ machine.InHand id state := by
  intro held
  have state := held.state
  unfold asyncState? at state
  rw [dead] at state
  cases state

include consistent in
/-- An async function that runs is in hand. -/
theorem inHand_of_running
    {coroutine promise : ObjectId}
    (present : machine.kind? coroutine =
      some (.coroutine { state := .running, frame := none, kind := .async promise })) :
    machine.InHand coroutine (.running, false) where
  state := asyncState?_of_kind? present
  unresumed place waits := by
    have suspended := consistent.resumes.suspended waits
    rw [asyncState?_of_kind? present] at suspended
    cases suspended

theorem sound_startAsync (frame : Frame) (fresh : frame.attached = []) [machine.Vouches frame] :
    Sound collects machine (startAsync frame) := by
  unfold startAsync
  refine .bindEnsures promises_newPromise.ensures fun promise before _ _ _ => .ask ⟨?_⟩
  refine .drive (ensures_createCoroutine _ (.async promise))
    fun coroutine after _ later ⟨dead, made⟩ => ⟨coroutine, fun _ => inHand_of_dead dead, ?_⟩
  have : after.Vouches (Value.object coroutine) := vouches_of_kind made rfl
  have held := inHand_of_running made
  have free : after.Frees { frame with coroutine := some coroutine } := .of_fresh fresh
  refine .after (ensures_attemptCoroutine _ .next .undefined free) fun outcome last _ later allows =>
    .bind (drives_concludeAsync promise outcome (later.inHand held) allows)
      fun _ final _ preserves _ => .of_ensures (.pure _ ?_)
  have handle : final.Vouches (PromiseHandle.mk promise) := preserves.vouches inferInstance
  infer_instance

omit consistent in
/-- An async function whose frame is there. -/
theorem exists_parked (present : machine.asyncState? coroutine = some (state, true)) :
    ∃ frame promise, machine.coroutine? coroutine = some ⟨state, some frame, .async promise⟩ := by
  obtain ⟨kind, live, shape⟩ := Option.bind_eq_some_iff.1 present
  unfold ObjectKind.asyncState? at shape
  split at shape
  · next held frame promise =>
      obtain ⟨rfl, there⟩ := Prod.mk.inj (Option.some.inj shape)
      obtain ⟨frame, rfl⟩ := Option.isSome_iff_exists.1 there
      unfold coroutine?
      rw [live]
      exact ⟨frame, promise, rfl⟩
  · cases shape

/-- The frame of an async function that is in hand runs, and the function stays in hand. -/
theorem ensures_resumption
    {coroutine promise : ObjectId}
    (present : machine.coroutine? coroutine = some ⟨state, some frame, .async promise⟩)
    (held : machine.InHand coroutine (state, true))
    (mode : ResumeMode)
    (value : Value)
    [machine.Vouches value] :
    Ensures collects True (machine.park coroutine .running none)
      (attempt (runCoroutine frame mode value) : Exec σ _) fun after outcome =>
        after.AllowsOutcome outcome ∧ after.InHand coroutine (.running, false) ∧
          after.Vouches coroutine ∧ after.Vouches (PromiseHandle.mk promise) := by
  have activation : machine.Vouches (Coroutine.mk state frame (.async promise)) := .of_some present
  have promised := vouches_async_iff.1 (vouches_coroutine.1 activation).2
  have named : machine.Vouches coroutine := vouches_id.2 ⟨_, kind?_of_coroutine? present⟩
  have unparks := held.maintains_park_none .running
  have := unparks.consistent
  have given := unparks.preserves.vouches ‹machine.Vouches value›
  have named := unparks.preserves.vouches named
  have promised := unparks.preserves.vouches promised
  have taken : (machine.coroutine? coroutine).bind Coroutine.frame = some frame := by
    rw [present]
    rfl
  obtain ⟨_, free⟩ := vouches_unparked unparks taken
  exact (ensures_attemptCoroutine frame mode value free).weaken id
    fun after _ _ later allows => by
      have later := later trivial
      exact ⟨allows, later.inHand (held.park .running none), later.vouches named,
        later.vouches promised⟩

/-- Resume an async function that is in hand. -/
theorem drives_resumeAsync
    (coroutine : ObjectId)
    (settlement : Settlement)
    (value : Value)
    (held : machine.InHand coroutine (.suspendedYield, true))
    [machine.Vouches value] :
    Drives collects coroutine machine (resumeAsync coroutine settlement value : Exec σ Unit)
      fun _ _ => True := by
  obtain ⟨frame, promise, present⟩ := exists_parked held.state
  have unparked : Drives collects coroutine machine (unpark coroutine : Exec σ (Option Frame))
      fun after taken => after = machine.park coroutine .running none ∧ taken = some frame := by
    refine .ask (.bind (drives_park (held.maintains_park_none .running)) ?_)
    intro _ after _ _ same
    rw [present]
    exact .of_ensures (.pure _ ⟨same, rfl⟩)
  unfold resumeAsync
  refine .ask ?_
  rw [present]
  refine .bind unparked fun taken after _ _ ⟨same, taking⟩ => ?_
  subst same taking
  refine .after (ensures_resumption present held _ value) ?_
  exact fun outcome last _ _ ⟨allows, running, _, _⟩ =>
    drives_concludeAsync promise outcome running allows

end Exec
end ScriptVM

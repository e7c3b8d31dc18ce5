import ScriptVM.Proofs.Calls
import ScriptVM.Proofs.Exceptions

/-!
# Failures of jobs

What fails in a microtask of the machine itself ends as the rejection of a promise, and the
microtask returns. Only the report of a failed adoption needs a native call, which is refused
where too many of them are under way; and an async function that yields has no one to report to.
-/

namespace ScriptVM

variable {σ α : Type} {collects : Bool} {machine : Machine σ} {before after : Machine σ}

open Machine

/-! ## Jobs -/

/-- There is as much room for native calls as before. -/
structure Machine.SameRoom (before after : Machine σ) : Prop where
  config : after.config = before.config
  nativeDepth : after.nativeDepth = before.nativeDepth

theorem Machine.SameRoom.trans
    {before middle after : Machine σ}
    (earlier : before.SameRoom middle)
    (later : middle.SameRoom after) :
    before.SameRoom after :=
  ⟨later.config.trans earlier.config, later.nativeDepth.trans earlier.nativeDepth⟩

/-- Balanced computations leave the room for native calls as it was. -/
theorem Exec.Balanced.sameRoom
    (computation : Exec σ α)
    [Balanced computation]
    (fuel : Nat)
    (watch : Sight σ -> Bool)
    (machine : Machine σ) :
    match computation (Env.watched fuel watch) machine with
    | .ok _ after | .error (.thrown _) after => machine.SameRoom after
    | _ => True := by
  have traced := Balanced.traced computation (Env.balanced_watched fuel watch)
    (machine.ready_all watch)
  dsimp only at traced
  split
  · next ran =>
      rw [ran] at traced
      obtain ⟨origins, leads, same⟩ := traced
      exact ⟨leads.keeps.config, same.calls.nativeDepth⟩
  · next ran =>
      rw [ran] at traced
      obtain ⟨origins, leads, same⟩ := traced
      exact ⟨leads.keeps.config, same.calls.nativeDepth⟩
  · trivial

/-- There is no room for one more native call. -/
def Machine.Full (machine : Machine σ) : Prop :=
  machine.config.maxNativeDepth <= machine.nativeDepth

/-- How a microtask of a machine fails: an adoption for which there was no room, since the report
of that needs a native call, too, or an async function that yields. -/
inductive Job.FailsWith (machine : Machine σ) : Job σ -> Exception -> Prop
  | full {promise : ObjectId} {thenable thenMethod : Value} :
      machine.Full ->
      FailsWith machine (.resolveThenable promise thenable thenMethod) .stackOverflow
  | yields {coroutine : ObjectId} {capability : Option ObjectId} {settlement : Settlement}
      {argument : Value} :
      FailsWith machine (.reaction (.asyncResume coroutine) capability settlement argument)
        (.internalError "yield inside an async function")

/-- The room that there is decides. -/
theorem Job.FailsWith.of_same
    {job : Job σ}
    {exception : Exception}
    (fails : job.FailsWith after exception)
    (same : before.SameRoom after) :
    job.FailsWith before exception := by
  cases fails with
  | full full =>
      unfold Machine.Full at full
      rw [same.config, same.nativeDepth] at full
      exact .full full
  | yields => exact .yields

/-- The function of a pair stays what it is. -/
theorem Machine.IsHalf.later
    {promise id : ObjectId}
    {latch : LatchId}
    {reject : Bool}
    (half : before.IsHalf promise latch reject id)
    (preserves : before.Preserves after) :
    after.IsHalf promise latch reject id := by
  obtain ⟨callee, present, behaves⟩ := isHalf_iff.1 half
  obtain ⟨kind, live, same⟩ :=
    Option.map_eq_some_iff.1 (preserves.natures (nature?_of_kind? present))
  cases kind with
  | native other =>
      cases same
      exact isHalf_iff.2 ⟨callee, live, behaves⟩
  | _ => cases same

namespace Exec

variable [consistent : machine.Consistent collects]
include consistent in
/-- A function of a pair can be called as long as there is room. -/
theorem throws_call_of_half
    {promise id : ObjectId}
    {latch : LatchId}
    {reject : Bool}
    (half : machine.IsHalf promise latch reject id)
    (receiver : Value)
    (arguments : List Value)
    (fuel : Nat)
    (watch : Sight σ -> Bool)
    [machine.Vouches (PromiseHandle.mk promise)]
    [machine.Vouches arguments] :
    ThrowsOnly (fun exception after => exception = .stackOverflow ∧ after.Full)
      (Env.watched fuel watch) machine
      (call (.function id) receiver arguments : Exec σ Value) := by
  intro exception after threw
  cases fuel with
  | zero => cases threw
  | succ fuel =>
      have deeper : machine.deeper.Consistent collects := consistent.withNativeDepth _
      have promised : machine.deeper.Vouches (PromiseHandle.mk promise) :=
        vouches_withNativeDepth _ ‹_›
      have given : machine.deeper.Vouches arguments := vouches_withNativeDepth _ ‹_›
      have settles : ThrowsOnly (fun exception after => exception = .stackOverflow ∧ after.Full)
          (Env.watched fuel watch) machine (withNativeDepth (do
            callResolving promise latch reject (Builtins.argument arguments 0)
            return .undefined : Exec σ Value)) := by
        refine .withNativeDepth (fun full => ⟨rfl, full⟩) ?_
        refine .after (Env.sound_watched watch fuel)
          (throws_callResolving (Env.sound_watched watch fuel) promise latch reject _) ?_
        exact fun _ _ _ _ _ => .pure _
      exact settles exception after
        ((callValue_of_half receiver arguments half).symm.trans threw)

include consistent in
/-- What the method of a thenable throws is reported, if there is room. -/
theorem throws_resolveThenable
    (promise : ObjectId)
    (thenable thenMethod : Value)
    (fuel : Nat)
    (watch : Sight σ -> Bool)
    [machine.Vouches (PromiseHandle.mk promise)]
    [machine.Vouches thenable] :
    ThrowsOnly (fun exception after => exception = .stackOverflow ∧ after.Full)
      (Env.watched fuel watch) machine
      (runJob (.resolveThenable promise thenable thenMethod) : Exec σ Unit) := by
  have sound : (Env.watched fuel watch).Sound collects := Env.sound_watched watch fuel
  obtain ⟨resolve, reject, made, _, rejecting⟩ := exists_halves consistent.tidy promise
  have makes : machine.Sustains collects (machine.createResolvingFunctions promise).2 :=
    inferInstance
  have pair : (machine.createResolvingFunctions promise).2.Vouches
      (machine.createResolvingFunctions promise).1 := inferInstance
  rw [made] at pair
  obtain ⟨_, _⟩ := vouches_pair.1 pair
  have := makes.consistent
  have := makes.later
  unfold runJob withResolvingFunctions createResolvingFunctions
  refine .bindChange ?_
  rw [made]
  refine .after sound (.attempt _) fun outcome after _ later given => ?_
  cases outcome with
  | ok _ => exact .pure _
  | error exception =>
      have : after.Vouches exception := vouches_error.1 given
      refine .after sound (.change _) fun reason last _ further _ => ?_
      have half := (rejecting.later later.toPreserves).later further.toPreserves
      exact .bindRan (throws_call_of_half half .undefined [reason] fuel watch)
        fun _ _ _ => .pure _

/-- What a handler throws rejects the derived promise. -/
theorem throws_reaction
    {permits : Exception -> Machine σ -> Prop}
    {env : Env σ}
    (sound : env.Sound collects)
    (handler : Handler)
    (capability : Option ObjectId)
    (settlement : Settlement)
    (argument : Value)
    [plain : handler.Plain]
    [machine.Vouches handler]
    [machine.Vouches (capability.map PromiseHandle.mk)]
    [machine.Vouches argument] :
    ThrowsOnly permits env machine
      (runJob (.reaction handler capability settlement argument) : Exec σ Unit) := by
  have handles : ThrowsOnly permits env machine (runHandler handler settlement argument :
      Exec σ (Option (Except Exception Value))) := by
    unfold runHandler
    cases handler with
    | identity => exact .pure _
    | thrower => exact .pure _
    | callable function => exact .bindRan (.attempt _) fun _ _ _ => .pure _
    | asyncResume coroutine => exact absurd rfl (plain.plain coroutine)
  unfold runJob
  refine .after sound handles fun outcome after _ later given => ?_
  have derives : after.Vouches (capability.map PromiseHandle.mk) := inferInstance
  split
  · exact .pure _
  · exact .pure _
  · next value derived _ =>
      have : after.Vouches (PromiseHandle.mk derived) := vouches_some.1 derives
      have : after.Vouches value := vouches_ok.1 (vouches_some.1 given)
      exact throws_resolvePromise sound derived value
  · next exception derived _ =>
      have : after.Vouches (PromiseHandle.mk derived) := vouches_some.1 derives
      have : after.Vouches exception := vouches_error.1 (vouches_some.1 given)
      exact throws_rejectWith sound derived exception

omit consistent in
/-- The next microtask of the machine itself throws only as such microtasks fail. -/
theorem throws_microtask
    {job : Job σ}
    {jobs : EventLoop (Job σ) (HostProgram σ)}
    (taken : machine.jobs.nextMicrotask? = some (job, jobs))
    (own : ∀ body, job ≠ .host body)
    (fuel : Nat)
    (watch : Sight σ -> Bool)
    [consistent : machine.Consistent collects] :
    ThrowsOnly (fun exception after => job.FailsWith after exception) (Env.watched fuel watch)
      ({ machine with jobs }.note (.started job)) (runJob job) := by
  have sound : (Env.watched fuel watch).Sound collects := Env.sound_watched watch fuel
  obtain ⟨starts, vouched⟩ := sustains_taken taken
  have := starts.consistent
  cases job with
  | host body => exact absurd rfl (own body)
  | resolveThenable promise thenable thenMethod =>
      obtain ⟨_, _, _⟩ := vouches_thenableJob_iff.1 vouched
      intro exception after threw
      obtain ⟨rfl, full⟩ := throws_resolveThenable promise thenable thenMethod fuel watch
        exception after threw
      exact .full full
  | reaction handler capability settlement argument =>
      obtain ⟨_, _, _⟩ := vouches_reactionJob_iff.1 vouched
      cases handler with
      | asyncResume coroutine =>
          obtain ⟨held, _⟩ := consistent.resumes.inHand_of_taken
            (EventLoop.nextMicrotask?_spec taken).2 ⟨capability, settlement, argument, rfl⟩
          rw [runJob_resumption]
          exact throws_resumeAsync sound coroutine settlement argument (held.of_same rfl rfl)
            fun _ => .yields
      | _ => exact throws_reaction sound _ capability settlement argument

end Exec

/-! ## Checkpoints -/

/-- One microtask after the other is taken from the queue and returns. -/
inductive Machine.Drains (env : Env σ) : Machine σ -> Machine σ -> Prop
  | refl (machine : Machine σ) : Drains env machine machine
  | step {before middle after : Machine σ} {job : Job σ}
      {jobs : EventLoop (Job σ) (HostProgram σ)} :
      before.jobs.nextMicrotask? = some (job, jobs) ->
      (Machine.scheduler env).runMicrotask job { before with jobs } = .ok () middle ->
      Drains env middle after -> Drains env before after

/-- After other microtasks one is taken that throws. -/
def Machine.StopsAt
    (machine : Machine σ)
    (env : Env σ)
    (job : Job σ)
    (exception : Exception) : Prop :=
  ∃ moment jobs last, machine.Drains env moment ∧
    moment.jobs.nextMicrotask? = some (job, jobs) ∧
    (Machine.scheduler env).runMicrotask job { moment with jobs } = .error (.thrown exception) last

namespace Exec

variable {fuel : Nat} {watch : Sight σ -> Bool} {exception : Exception} {after : Machine σ}

variable (machine) in
/-- A microtask leaves the room for native calls as it was. -/
theorem sameRoom_microtask
    (job : Job σ)
    (jobs : EventLoop (Job σ) (HostProgram σ))
    (fuel : Nat)
    (watch : Sight σ -> Bool) :
    match (Machine.scheduler (Env.watched fuel watch)).runMicrotask job { machine with jobs } with
    | .ok _ after | .error (.thrown _) after => machine.SameRoom after
    | _ => True := by
  have same := Balanced.sameRoom (do
    note (.started job)
    runJob job : Exec σ Unit) fuel watch { machine with jobs }
  unfold Machine.scheduler
  dsimp only
  split
  · next ran =>
      rw [ran] at same
      exact ⟨same.config, same.nativeDepth⟩
  · next ran =>
      rw [ran] at same
      exact ⟨same.config, same.nativeDepth⟩
  · trivial

/-- A microtask of the embedder throws, or one of the machine itself that fails. -/
theorem runMicrotask_threw
    {job : Job σ}
    {jobs : EventLoop (Job σ) (HostProgram σ)}
    (taken : machine.jobs.nextMicrotask? = some (job, jobs))
    (threw : (Machine.scheduler (Env.watched fuel watch)).runMicrotask job { machine with jobs } =
      .error (.thrown exception) after)
    [consistent : machine.Consistent collects] :
    (∃ body, job = .host body) ∨ job.FailsWith machine exception := by
  by_cases own : ∀ body, job ≠ .host body
  · have throws : ThrowsOnly (fun exception after => job.FailsWith after exception)
        (Env.watched fuel watch) { machine with jobs } (do
          note (.started job)
          runJob job) := by
      unfold note update
      exact .bindChange (throws_microtask taken own fuel watch)
    have same := sameRoom_microtask machine job jobs fuel watch
    rw [threw] at same
    exact Or.inr ((throws exception after threw).of_same same)
  · exact Or.inl (by simpa using own)

/-- A drain that throws stops at a microtask of the embedder, or at one of the machine itself
that fails. -/
theorem drain_threw
    {rounds ran : Nat}
    (threw : (Machine.scheduler (Env.watched fuel watch)).drain rounds ran machine =
      .error (.thrown exception) after)
    [consistent : machine.Consistent collects] :
    ∃ job, machine.StopsAt (Env.watched fuel watch) job exception ∧
      ((∃ body, job = .host body) ∨ job.FailsWith machine exception) := by
  induction rounds generalizing ran machine with
  | zero => cases threw
  | succ rounds step =>
      unfold Scheduler.drain at threw
      split at threw
      · cases threw
      · next job jobs taken =>
          have taken : machine.jobs.nextMicrotask? = some (job, jobs) := taken
          split at threw
          · next middle returned =>
              have returned : (Machine.scheduler (Env.watched fuel watch)).runMicrotask job
                { machine with jobs } = .ok () middle := returned
              have sound : (Env.watched fuel watch).Sound collects := Env.sound_watched watch fuel
              have kept := keeps_takeMicrotask sound taken
              have same := sameRoom_microtask machine job jobs fuel watch
              rw [returned] at kept same
              have := kept.1.consistent
              obtain ⟨last, ⟨moment, rest, final, drains, next, fails⟩, blamed⟩ := step threw
              exact ⟨last, ⟨moment, rest, final, .step taken returned drains, next, fails⟩,
                blamed.imp_right (·.of_same same)⟩
          · next stop middle stopped =>
              cases threw
              exact ⟨job, ⟨machine, jobs, after, .refl machine, taken, stopped⟩,
                runMicrotask_threw taken stopped⟩

end Exec

/-! ## Reports -/

namespace Machine

variable {promise : ObjectId}

/-- The promise has settled: it is rejected for the reason if it was pending before. -/
def Rejects (before after : Machine σ) (promise : ObjectId) (reason : Value) : Prop :=
  ∃ record settled, before.promise? promise = some record ∧
    after.promise? promise = some settled ∧
    settled.state = if record.isPending then .rejected reason else record.state

theorem sameRoom_exceptionValue (machine : Machine σ) (exception : Exception) :
    machine.SameRoom (machine.exceptionValue exception).2 := by
  cases exception with
  | value value => exact ⟨rfl, rfl⟩
  | fault fault =>
      unfold Machine.exceptionValue Machine.errorObject
      dsimp only
      split <;> exact ⟨rfl, rfl⟩

theorem cells_exceptionValue (machine : Machine σ) (exception : Exception) :
    (machine.exceptionValue exception).2.cells = machine.cells := by
  cases exception with
  | value value => rfl
  | fault fault =>
      unfold Machine.exceptionValue Machine.errorObject
      dsimp only
      split <;> rfl

theorem Adds.errorObject (tidy : machine.heap.Tidy) (fault : Fault) :
    machine.Adds (machine.errorObject fault).2 machine.heap.nextId .error := by
  have adds := Adds.allocate tidy (some (machine.intrinsics.errorPrototypeOf fault.kind)) .error
  unfold Machine.errorObject
  dsimp only
  split
  · exact ((adds.thenDefine ..).thenDefine ..).thenDefine ..
  · exact (adds.thenDefine ..).thenDefine ..

/-- An exception that is caught leaves all promises as they are. -/
theorem promise?_exceptionValue
    (tidy : machine.heap.Tidy)
    (exception : Exception)
    (promise : ObjectId) :
    (machine.exceptionValue exception).2.promise? promise = machine.promise? promise := by
  cases exception with
  | value value => rfl
  | fault fault => exact (Adds.errorObject tidy fault).promise?_of_unlike nofun promise

/-- The record of the promise decides. -/
theorem Rejects.of_same
    {before middle after : Machine σ}
    {reason : Value}
    (rejects : middle.Rejects after promise reason)
    (same : middle.promise? promise = before.promise? promise) :
    before.Rejects after promise reason := by
  obtain ⟨record, settled, present, told⟩ := rejects
  exact ⟨record, settled, same ▸ present, told⟩

theorem rejects_settlePromise
    (tidy : machine.heap.Tidy)
    {record : PromiseRecord Value Reaction}
    (present : machine.promise? promise = some record)
    (reason : Value) :
    machine.Rejects (machine.settlePromise promise .rejected reason).2 promise reason := by
  by_cases pending : record.state = .pending
  · have rewrites := rewrites_settlePromise tidy present pending .rejected reason
    refine ⟨record, _, present, (rewrites.promise? promise).trans (if_pos rfl), ?_⟩
    unfold PromiseRecord.isPending
    rw [pending]
    rfl
  · have settled : ∀ other, machine.promise? promise = some other -> other.state ≠ .pending :=
      fun other found => Option.some.inj (present.symm.trans found) ▸ pending
    have same := settlePromise_of_settled settled .rejected reason
    refine ⟨record, record, present, same.symm ▸ present, ?_⟩
    unfold PromiseRecord.isPending
    cases state : record.state with
    | pending => exact absurd state pending
    | _ => rfl

end Machine

/-- Something in the microtask throws, to the machine where the microtask catches that, and a
promise is to be told: the derived promise of a handler, the promise of an async function, or
the one that is to adopt the state of a thenable. That needs a native call, and has no effect if
the method of the thenable has resolved the promise before. -/
inductive Job.Breaks (env : Env σ) (machine : Machine σ) :
    Job σ -> ObjectId -> Exception -> Machine σ -> Prop
  | passing {derived : ObjectId} {settlement : Settlement} {argument : Value} :
      Breaks env machine (.reaction .thrower (some derived) settlement argument) derived
        (.value argument) machine
  | handler {function argument : Value} {derived : ObjectId} {settlement : Settlement}
      {exception : Exception} {after : Machine σ} :
      Exec.call function .undefined [argument] env machine = .error (.thrown exception) after ->
      Breaks env machine (.reaction (.callable function) (some derived) settlement argument) derived
        exception after
  | resumption {coroutine promise : ObjectId} {frame : Frame} {capability : Option ObjectId}
      {settlement : Settlement} {argument : Value} {exception : Exception} {after : Machine σ} :
      machine.coroutine? coroutine = some ⟨.suspendedYield, some frame, .async promise⟩ ->
      Exec.runCoroutine frame (Exec.resumption settlement) argument env
        (machine.park coroutine .running none) = .error (.thrown exception) after ->
      Breaks env machine (.reaction (.asyncResume coroutine) capability settlement argument) promise
        exception (after.park coroutine .completed none)
  | method {promise : ObjectId} {thenable thenMethod : Value} {exception : Exception}
      {after : Machine σ} :
      Exec.call thenMethod thenable
        [(machine.createResolvingFunctions promise).1.1,
          (machine.createResolvingFunctions promise).1.2] env
        (machine.createResolvingFunctions promise).2 = .error (.thrown exception) after ->
      after.cells.latches[machine.cells.latches.size]? = some false -> ¬ machine.Full ->
      Breaks env machine (.resolveThenable promise thenable thenMethod) promise exception after

namespace Exec

variable {promise : ObjectId}

/-- Nothing keeps a promise from being settled. -/
theorem settlePromise_of_promise
    (fuel : Nat)
    (promise : ObjectId)
    (settlement : Settlement)
    (value : Value)
    [machine.Vouches (PromiseHandle.mk promise)] :
    settlePromise promise settlement value (Env.ofFuel fuel) machine =
      .ok () (machine.settlePromise promise settlement value).2 := by
  refine (bind_of_ok _ (change_of_unpicked rfl)).trans ?_
  rw [settlePromise_fst]
  rfl

variable [consistent : machine.Consistent collects] {exception : Exception} {fuel : Nat}
  {middle : Machine σ}

include consistent

variable (machine) in
/-- Nothing keeps a promise from being told of an exception. -/
theorem rejectWith_of_promise
    (fuel : Nat)
    (promise : ObjectId)
    (exception : Exception)
    [handle : machine.Vouches (PromiseHandle.mk promise)] :
    ∃ after, rejectWith promise exception (Env.ofFuel fuel) machine = .ok () after ∧
      machine.Rejects after promise (machine.exceptionValue exception).1 := by
  obtain ⟨record, present⟩ := vouches_promiseHandle.1 handle
  have shown : machine.Sustains collects (machine.exceptionValue exception).2 := inferInstance
  have := shown.later
  have still := promise?_exceptionValue consistent.tidy exception promise
  have told := rejects_settlePromise shown.consistent.tidy
    (still.trans (promise?_eq_some.2 present)) (machine.exceptionValue exception).1
  exact ⟨_, (bind_of_ok _ (change_of_unpicked rfl)).trans (settlePromise_of_promise ..),
    told.of_same still⟩

/-- The rejecting function of a pair that was not used before. -/
theorem call_of_rejecting
    {promise id : ObjectId}
    {latch : LatchId}
    (half : machine.IsHalf promise latch true id)
    (unused : machine.cells.latches[latch.index]? = some false)
    (room : ¬ machine.Full)
    (fuel : Nat)
    (reason : Value)
    [handle : machine.Vouches (PromiseHandle.mk promise)] :
    ∃ after, call (.function id) .undefined [reason] (Env.ofFuel (fuel + 1)) machine =
        .ok .undefined after ∧
      machine.Rejects after promise reason := by
  obtain ⟨record, present⟩ := vouches_promiseHandle.1 handle
  have : (machine.deeper.setLatch latch).Vouches (PromiseHandle.mk promise) :=
    vouches_promiseHandle.2 ⟨record, present⟩
  have unset : (machine.cells.setLatch latch).1 = false := by
    show (machine.cells.latches[latch.index]?).getD false = false
    rw [unused]
    rfl
  have rejects : callResolving promise latch true reason (Env.ofFuel fuel) machine.deeper =
      .ok () ((machine.deeper.setLatch latch).settlePromise promise .rejected reason).2 := by
    refine (bind_of_ok _ (change_of_unpicked rfl)).trans ?_
    show (if (machine.cells.setLatch latch).1 = true then return () else
      settlePromise promise .rejected reason : Exec σ Unit) _ (machine.deeper.setLatch latch) = _
    rw [unset]
    exact settlePromise_of_promise ..
  have stands : (machine.deeper.setLatch latch).promise? promise = some record :=
    promise?_eq_some.2 present
  have tidy : (machine.deeper.setLatch latch).heap.Tidy := consistent.tidy
  have told := rejects_settlePromise tidy stands reason
  exact ⟨_, (callValue_of_half .undefined [reason] half).trans
    (withNativeDepth_of_ok (Nat.not_le.1 room) rfl (bind_of_ok _ rejects) rfl), told⟩

omit consistent in
theorem park_of_unwatched
    (coroutine : ObjectId)
    (state : CoroutineState)
    (frame : Option Frame)
    (fuel : Nat) :
    park coroutine state frame (Env.ofFuel fuel) machine =
      .ok () (machine.park coroutine state frame) := by
  unfold park update
  exact change_of_unpicked rfl

omit consistent in
theorem attempt_of_threw
    {computation : Exec σ α}
    {env : Env σ}
    {after : Machine σ}
    (threw : computation env machine = .error (.thrown exception) after) :
    attempt computation env machine = .ok (.error exception) after := by
  unfold attempt
  rw [threw]

/-- A failure of the method of a thenable is reported if there is room. -/
theorem runJob_of_method
    {thenable thenMethod : Value}
    (threw : call thenMethod thenable
        [(machine.createResolvingFunctions promise).1.1,
          (machine.createResolvingFunctions promise).1.2] (Env.ofFuel fuel)
        (machine.createResolvingFunctions promise).2 = .error (.thrown exception) middle)
    (unused : middle.cells.latches[machine.cells.latches.size]? = some false)
    (room : ¬ machine.Full)
    [machine.Vouches (PromiseHandle.mk promise)]
    [machine.Vouches thenable] :
    ∃ after, runJob (.resolveThenable promise thenable thenMethod) (Env.ofFuel fuel) machine =
        .ok () after ∧
      middle.Rejects after promise (middle.exceptionValue exception).1 := by
  have sound : (Env.ofFuel fuel : Env σ).Sound collects := Env.sound_watched _ fuel
  obtain ⟨resolve, reject, made, _, rejecting⟩ := exists_halves consistent.tidy promise
  have makes : machine.Sustains collects (machine.createResolvingFunctions promise).2 :=
    inferInstance
  have pair : (machine.createResolvingFunctions promise).2.Vouches
      (machine.createResolvingFunctions promise).1 := inferInstance
  obtain ⟨_, _⟩ := vouches_pair.1 pair
  have := makes.consistent
  have := makes.later
  have calls : Sound collects (machine.createResolvingFunctions promise).2
      (call thenMethod thenable [(machine.createResolvingFunctions promise).1.1,
        (machine.createResolvingFunctions promise).1.2] : Exec σ Value) := inferInstance
  have kept := calls.ensures _ sound
  rw [threw] at kept
  have later := kept.1.later trivial
  have := kept.1.consistent
  have shown : middle.Sustains collects (middle.exceptionValue exception).2 := inferInstance
  have := shown.consistent
  have := shown.later
  have half := (rejecting.later later.toPreserves).later shown.later.toPreserves
  have room : ¬ (middle.exceptionValue exception).2.Full := by
    have called := Balanced.sameRoom (call thenMethod thenable
      [(machine.createResolvingFunctions promise).1.1,
        (machine.createResolvingFunctions promise).1.2] : Exec σ Value) fuel (fun _ => false)
      (machine.createResolvingFunctions promise).2
    unfold Env.ofFuel at threw
    rw [threw] at called
    have made : machine.SameRoom (machine.createResolvingFunctions promise).2 := ⟨rfl, rfl⟩
    have same := (made.trans called).trans (middle.sameRoom_exceptionValue exception)
    unfold Machine.Full
    rwa [same.config, same.nativeDepth]
  rw [← cells_exceptionValue middle exception] at unused
  cases fuel with
  | zero => cases threw
  | succ fuel =>
      obtain ⟨after, told, rejects⟩ := call_of_rejecting half unused room fuel
        (middle.exceptionValue exception).1
      refine ⟨after, ?_, rejects.of_same (promise?_exceptionValue kept.1.consistent.tidy _ _)⟩
      rw [made] at threw
      have caught := attempt_of_threw (bind_of_error (fun _ => pure ()) threw)
      refine (bind_of_ok _ (change_of_unpicked rfl)).trans ?_
      rw [made]
      exact (bind_of_ok _ caught).trans ((bind_of_ok _ (change_of_unpicked rfl)).trans
        (bind_of_ok _ told))

/-- A failure of an async function that is resumed rejects its promise. -/
theorem resumeAsync_of_threw
    {coroutine promise : ObjectId}
    {frame : Frame}
    {settlement : Settlement}
    {value : Value}
    (held : machine.InHand coroutine (.suspendedYield, true))
    (present : machine.coroutine? coroutine = some ⟨.suspendedYield, some frame, .async promise⟩)
    (threw : runCoroutine frame (resumption settlement) value (Env.ofFuel fuel)
      (machine.park coroutine .running none) = .error (.thrown exception) middle)
    [machine.Vouches value] :
    ∃ after, resumeAsync coroutine settlement value (Env.ofFuel fuel) machine = .ok () after ∧
      (middle.park coroutine .completed none).Rejects after promise
        ((middle.park coroutine .completed none).exceptionValue exception).1 := by
  have caught := attempt_of_threw threw
  have kept := ensures_resumption present held (resumption settlement) value (Env.ofFuel fuel)
    (Env.sound_watched _ fuel)
  rw [caught] at kept
  obtain ⟨follows, _, running, _, promised⟩ := kept
  have := follows.consistent
  have completes := running.maintains_park_none .completed
  have := completes.consistent
  have := completes.preserves.vouches promised
  obtain ⟨after, told, rejects⟩ :=
    rejectWith_of_promise (middle.park coroutine .completed none) fuel promise exception
  have unparks : unpark coroutine (Env.ofFuel fuel) machine =
      .ok (some frame) (machine.park coroutine .running none) := by
    unfold unpark
    rw [ask_bind, present]
    exact bind_of_ok _ (park_of_unwatched ..)
  have concludes : concludeAsync coroutine promise (.error exception) (Env.ofFuel fuel) middle =
      .ok () after := (bind_of_ok _ (park_of_unwatched ..)).trans told
  refine ⟨after, ?_, rejects⟩
  unfold resumeAsync
  rw [ask_bind, present]
  exact (bind_of_ok _ unparks).trans ((bind_of_ok _ caught).trans concludes)

/-- What breaks in the next microtask is reported, and the microtask returns. -/
theorem runJob_of_breaks
    {job : Job σ}
    {jobs : EventLoop (Job σ) (HostProgram σ)}
    (taken : machine.jobs.nextMicrotask? = some (job, jobs))
    (breaks : job.Breaks (Env.ofFuel fuel) ({ machine with jobs }.note (.started job)) promise
      exception middle) :
    ∃ after, runJob job (Env.ofFuel fuel) ({ machine with jobs }.note (.started job)) =
        .ok () after ∧
      middle.Rejects after promise (middle.exceptionValue exception).1 := by
  have sound : (Env.ofFuel fuel : Env σ).Sound collects := Env.sound_watched _ fuel
  obtain ⟨starts, vouched⟩ := sustains_taken taken
  have := starts.consistent
  cases breaks with
  | @passing _ settlement argument =>
      obtain ⟨_, derives, _⟩ := vouches_reactionJob_iff.1 vouched
      have := vouches_some.1 derives
      exact rejectWith_of_promise _ fuel promise (.value argument)
  | @handler function argument _ settlement _ _ threw =>
      obtain ⟨_, derives, _⟩ := vouches_reactionJob_iff.1 vouched
      have calls : Sound collects
          ({ machine with jobs }.note (.started (.reaction (.callable function) (some promise)
            settlement argument))) (call function .undefined [argument] : Exec σ Value) :=
        inferInstance
      have kept := calls.ensures _ sound
      rw [threw] at kept
      have := kept.1.consistent
      have : middle.Vouches (PromiseHandle.mk promise) :=
        vouches_some.1 ((kept.1.later trivial).vouches derives)
      obtain ⟨after, told, rejects⟩ := rejectWith_of_promise middle fuel promise exception
      have handled : runHandler (.callable function) settlement argument (Env.ofFuel fuel)
          _ = .ok (some (.error exception)) middle :=
        bind_of_ok _ (attempt_of_threw threw)
      exact ⟨after, (bind_of_ok _ handled).trans told, rejects⟩
  | resumption present threw =>
      obtain ⟨_, _, _⟩ := vouches_reactionJob_iff.1 vouched
      rw [runJob_resumption]
      obtain ⟨held, _⟩ := consistent.resumes.inHand_of_taken
        (EventLoop.nextMicrotask?_spec taken).2 ⟨_, _, _, rfl⟩
      exact resumeAsync_of_threw (held.of_same rfl rfl) present threw
  | @method promise thenable thenMethod exception middle threw unused room =>
      obtain ⟨_, _, _⟩ := vouches_thenableJob_iff.1 vouched
      exact runJob_of_method threw unused room

end Exec

/-- The microtasks of a machine itself report what fails. At any moment of a session of a careful
embedder, the next one throws only in the two ways in which a microtask fails, and a checkpoint
that throws stops at such a microtask or at one of the embedder. Whatever else breaks in a
microtask ends as the rejection of the promise that is to be told. -/
theorem failed_jobs_reject
    {sight : Sight σ}
    (session : sight.InSession collects)
    (fuel : Nat)
    (watch : Sight σ -> Bool) :
    (∀ job jobs exception after, sight.machine.jobs.nextMicrotask? = some (job, jobs) ->
      (∀ body, job ≠ .host body) ->
      Exec.runJob job (Env.watched fuel watch)
          ({ sight.machine with jobs }.note (.started job)) = .error (.thrown exception) after ->
      job.FailsWith sight.machine exception) ∧
    (∀ rounds exception after,
      (Machine.scheduler (Env.watched fuel watch)).checkpoint rounds sight.machine =
        .error (.thrown exception) after ->
      ∃ job, StopsAt { sight.machine with jobs := sight.machine.jobs.openCheckpoint }
          (Env.watched fuel watch) job exception ∧
        ((∃ body, job = .host body) ∨ job.FailsWith sight.machine exception)) ∧
    ∀ job jobs promise exception middle, sight.machine.jobs.nextMicrotask? = some (job, jobs) ->
      job.Breaks (Env.ofFuel fuel) ({ sight.machine with jobs }.note (.started job)) promise
        exception middle ->
      ∃ after, Exec.runJob job (Env.ofFuel fuel)
          ({ sight.machine with jobs }.note (.started job)) = .ok () after ∧
        middle.Rejects after promise (middle.exceptionValue exception).1 := by
  have consistent := session.consistent
  refine ⟨fun job jobs exception after taken own threw => ?_,
    fun rounds exception after threw => ?_,
    fun job jobs promise exception middle taken breaks => Exec.runJob_of_breaks taken breaks⟩
  · have same := Exec.Balanced.sameRoom (Exec.runJob job) fuel watch
      ({ sight.machine with jobs }.note (.started job))
    rw [threw] at same
    exact (Exec.throws_microtask taken own fuel watch exception after threw).of_same
      ⟨same.config, same.nativeDepth⟩
  · have opens : sight.machine.Sustains collects
        { sight.machine with jobs := sight.machine.jobs.openCheckpoint } :=
      sustains_jobs (fun _ => id) (fun _ => id) (.of_heap rfl fun _ => id)
    have := opens.consistent
    unfold Scheduler.checkpoint at threw
    dsimp only at threw
    split at threw
    · cases threw
    · split at threw
      · cases threw
      · next stopped =>
          cases threw
          have stopped : (Machine.scheduler (Env.watched fuel watch)).drain rounds 0
            { sight.machine with jobs := sight.machine.jobs.openCheckpoint } = _ := stopped
          obtain ⟨job, stops, blamed⟩ := Exec.drain_threw stopped
          exact ⟨job, stops, blamed.imp_right (·.of_same ⟨rfl, rfl⟩)⟩

/-- An embedder has a promise adopt the state of an object with a method of its own. -/
def adoptingProgram : HostProgram Unit :=
  .register "f" 2 (fun _ _ => .finish (.ok .undefined)) fun method =>
    .request .createObject fun thenable =>
      .request (.set thenable "then" method true) fun _ =>
        .request .newPromise fun promise =>
          .request (.resolvePromise promise thenable) fun _ => .finish (.ok promise)

theorem adoptingProgram_careful : adoptingProgram.Careful collects [] := by
  refine ⟨fun receiver arguments item member => ?_, fun method => ⟨nofun, fun thenable =>
    ⟨fun item member => .given ?_, fun outcome => ⟨nofun, fun promise =>
      ⟨fun item member => .given ?_, fun settled => fun item member => .given ?_⟩⟩⟩⟩⟩
  · obtain rfl : item = .value .undefined := List.mem_singleton.1 member
    exact .primitive rfl
  · exact member
  · rcases List.mem_append.1 member with first | second
    · exact List.mem_append_left _ first
    · exact List.mem_append_right _ (List.mem_append_right _ (List.mem_append_left _ second))
  · exact List.mem_append_right _ (List.mem_append_left _ member)

/-- The run of the program on a machine with room for some native calls. -/
def adoptingRun (maxNativeDepth : Nat) : EStateM.Result (Stop Unit) (Machine Unit) Value :=
  (Builtins.newMachine { maxNativeDepth } ()).runWithin 3 adoptingProgram

/-- The next microtask is an adoption that there is room for. -/
def Machine.canAdopt (machine : Machine σ) : Bool :=
  match machine.jobs.nextMicrotask? with
  | some (.resolveThenable .., _) => machine.nativeDepth < machine.config.maxNativeDepth
  | _ => false

/-- With room for one native call, the adoption that the program leaves behind never throws. -/
theorem failed_jobs_reject_adoptingRun :
    ∃ answer machine job jobs, adoptingRun 1 = .ok answer machine ∧
      machine.jobs.nextMicrotask? = some (job, jobs) ∧
      ∀ fuel watch exception after,
        Exec.runJob job (Env.watched fuel watch) ({ machine with jobs }.note (.started job)) ≠
          .error (.thrown exception) after := by
  have seen : ∃ ended ∈ Exec.ended? (adoptingRun 1), ended.2.canAdopt = true := by
    decide +kernel
  obtain ⟨⟨answer, machine⟩, ended, able⟩ := seen
  have ran : adoptingRun 1 = .ok answer machine := Exec.eq_of_ended? ended
  unfold Machine.canAdopt at able
  split at able
  · next promise thenable thenMethod jobs taken =>
      refine ⟨answer, machine, _, jobs, ran, taken, fun fuel watch exception after threw => ?_⟩
      have session : Sight.InSession true { machine } := .returned adoptingProgram_careful ran
      have failures := failed_jobs_reject session fuel watch
      have own : ∀ body : HostProgram Unit,
          Job.resolveThenable promise thenable thenMethod ≠ .host body :=
        fun _ same => by cases same
      cases failures.1 _ jobs exception after taken own threw with
      | full full => exact absurd (of_decide_eq_true able) (Nat.not_lt.2 full)
  · cases able

/-- The next microtask is an adoption that throws for lack of room. It leaves the promise pending
and the queue empty. -/
def Machine.abandons (machine : Machine σ) (promise : ObjectId) : Bool :=
  match machine.jobs.nextMicrotask? with
  | some (.resolveThenable adopting thenable thenMethod, jobs) =>
      match Exec.runJob (.resolveThenable adopting thenable thenMethod) (Env.ofFuel 3)
          { machine with jobs } with
      | .error (.thrown exception) after =>
          exception == .stackOverflow && after.jobs.microtasks.jobs.isEmpty &&
            (after.promise? promise).any PromiseRecord.isPending
      | _ => false
  | _ => false

/-- Without room for any, the adoption throws, and nothing is left that could settle the
promise. -/
theorem adoption_throws :
    ∃ promise machine, adoptingRun 0 = .ok (.object promise) machine ∧
      machine.abandons promise = true := by
  have seen : ∃ ended ∈ Exec.ended? (adoptingRun 0), ∃ promise ∈ ended.1.objectId?,
      ended.1 = .object promise ∧ ended.2.abandons promise = true := by
    decide +kernel
  obtain ⟨⟨answer, machine⟩, ended, promise, _, same, abandoned⟩ := seen
  refine ⟨promise, machine, ?_, abandoned⟩
  rw [← same]
  exact Exec.eq_of_ended? ended

end ScriptVM

import ScriptVM.Proofs.FirstCalls

/-!
# Exceptions

What a computation throws. In a consistent machine promises can be settled and reacted to at any
time, and what goes wrong on the way rejects one of them. The same goes for async functions, which
are resumed while their frames are there; only one that yields has no one to report that to.
-/

namespace ScriptVM

variable {σ α β : Type} {collects : Bool} {machine : Machine σ}

open Machine

namespace Exec

/-! ## What computations throw -/

/-- In the environment, the computation throws only what is permitted where it ends. -/
def ThrowsOnly (permits : Exception -> Machine σ -> Prop) (env : Env σ) (machine : Machine σ)
    (computation : Exec σ α) : Prop :=
  ∀ exception after, computation env machine = .error (.thrown exception) after ->
    permits exception after

namespace ThrowsOnly

variable {permits : Exception -> Machine σ -> Prop} {env : Env σ} {first : Exec σ α}
  {next : α -> Exec σ β}

theorem raise {exception : Exception} (permitted : permits exception machine) :
    ThrowsOnly permits env machine (Exec.raise exception : Exec σ α) := by
  intro other after threw
  cases threw
  exact permitted

theorem stray
    {misstep : Misstep}
    {frame : Frame}
    (permitted : permits (.internalError misstep.message) machine) :
    ThrowsOnly permits env machine (Exec.stray misstep frame : Exec σ α) := by
  intro other after threw
  unfold Exec.stray at threw
  dsimp only at threw
  split at threw
  · cases threw
  · cases threw
    exact permitted

theorem pure (answer : α) : ThrowsOnly permits env machine (Pure.pure answer : Exec σ α) :=
  nofun

theorem attempt (computation : Exec σ α) : ThrowsOnly permits env machine computation.attempt := by
  intro exception after threw
  unfold Exec.attempt at threw
  split at threw
  · cases threw
  · cases threw
  · next stop _ other _ =>
      cases threw
      exact absurd rfl (other exception)

theorem change (operation : Machine σ -> α × Machine σ) :
    ThrowsOnly permits env machine (Exec.change operation) := by
  intro exception after threw
  cases picked : env.watch { machine := (operation machine).2 } with
  | true =>
      rw [change_of_picked picked] at threw
      cases threw
  | false =>
      rw [change_of_unpicked picked] at threw
      cases threw

theorem ofExcept
    {outcome : Except Exception α}
    (permitted : ∀ exception, outcome = .error exception -> permits exception machine) :
    ThrowsOnly permits env machine (Exec.ofExcept outcome) := by
  cases outcome with
  | ok answer => exact .pure answer
  | error exception => exact .raise (permitted exception rfl)

/-- Go on from where a computation ends. -/
theorem bindRan
    (earlier : ThrowsOnly permits env machine first)
    (later : ∀ answer after, first env machine = .ok answer after ->
      ThrowsOnly permits env after (next answer)) :
    ThrowsOnly permits env machine (first >>= next) := by
  intro exception last threw
  cases ran : first env machine with
  | ok answer after =>
      rw [bind_of_ok next ran] at threw
      exact later answer after ran exception last threw
  | error stop after =>
      rw [bind_of_error next ran] at threw
      cases threw
      exact earlier exception last ran

theorem bindChange
    {operation : Machine σ -> α × Machine σ}
    (later : ThrowsOnly permits env (operation machine).2 (next (operation machine).1)) :
    ThrowsOnly permits env machine (Exec.change operation >>= next) := by
  refine .bindRan (.change operation) fun answer after ran => ?_
  rwa [eq_of_change ran] at later

theorem bindPark
    {id : ObjectId}
    {state : CoroutineState}
    {frame : Option Frame}
    {next : Unit -> Exec σ β}
    (later : ThrowsOnly permits env (machine.park id state frame) (next ())) :
    ThrowsOnly permits env machine (park id state frame >>= next) := by
  unfold Exec.park update
  exact .bindChange later

/-- Go on with what a computation ensures. -/
theorem bind
    {holds : Machine σ -> α -> Prop}
    (sound : env.Sound collects)
    (ensures : Ensures collects True machine first holds)
    (earlier : ThrowsOnly permits env machine first)
    (later : ∀ answer after, after.Consistent collects -> Later machine after ->
      holds after answer -> ThrowsOnly permits env after (next answer)) :
    ThrowsOnly permits env machine (first >>= next) :=
  .bindRan earlier fun answer after ran => by
    have kept := ensures env sound
    rw [ran] at kept
    exact later answer after kept.1.consistent (kept.1.later trivial) kept.2

/-- Go on from the answer of a sound computation. -/
theorem after
    [Carrier α]
    (sound : env.Sound collects)
    [keeps : Sound collects machine first]
    (earlier : ThrowsOnly permits env machine first)
    (later : ∀ answer after, after.Consistent collects -> Later machine after ->
      after.Vouches answer -> ThrowsOnly permits env after (next answer)) :
    ThrowsOnly permits env machine (first >>= next) :=
  .bind sound keeps.ensures earlier later

theorem ask
    {query : Machine σ -> α}
    (throws : ThrowsOnly permits env machine (next (query machine))) :
    ThrowsOnly permits env machine (Exec.ask query >>= next) :=
  throws

/-- A native call may be refused, too. -/
theorem withNativeDepth
    {computation : Exec σ α}
    (refused : machine.config.maxNativeDepth <= machine.nativeDepth ->
      permits .stackOverflow machine)
    (inside : ThrowsOnly (fun exception after => permits exception after.shallower) env
      machine.deeper computation) :
    ThrowsOnly permits env machine (Exec.withNativeDepth computation) := by
  by_cases room : machine.nativeDepth < machine.config.maxNativeDepth
  · have leaves : ∀ outcome middle, computation.attempt env machine.deeper = .ok outcome middle ->
        ThrowsOnly permits env middle.shallower (Exec.ofExcept outcome) := by
      refine fun outcome middle ran => .ofExcept fun exception same => inside exception middle ?_
      subst same
      unfold Exec.attempt at ran
      split at ran
      · cases ran
      · next caught =>
          cases ran
          exact caught
      · cases ran
    intro exception after threw
    rw [withNativeDepth_of_room computation env room] at threw
    have throws : ThrowsOnly permits env machine (do
        update deeper
        let outcome <- computation.attempt
        update shallower
        Exec.ofExcept outcome : Exec σ α) :=
      .bindChange (.bindRan (.attempt _) fun outcome middle ran =>
        .bindChange (leaves outcome middle ran))
    exact throws exception after threw
  · intro exception after threw
    rw [withNativeDepth_of_full computation env (Nat.not_lt.1 room)] at threw
    cases threw
    exact refused (Nat.not_lt.1 room)

end ThrowsOnly

/-! ## Promises -/

section

variable (promise : ObjectId)

variable [consistent : machine.Consistent collects] {permits : Exception -> Machine σ -> Prop}
  {env : Env σ}

omit consistent in
theorem settlePromise_fst
    (settlement : Settlement)
    (value : Value)
    [handle : machine.Vouches (PromiseHandle.mk promise)] :
    (machine.settlePromise promise settlement value).1 = .ok () := by
  obtain ⟨record, present⟩ := vouches_promiseHandle.1 handle
  unfold Machine.settlePromise
  rw [promise?_eq_some.2 present]
  dsimp only
  split <;> rfl

omit consistent in
theorem registerReaction_fst
    (reaction : Reaction)
    [handle : machine.Vouches (PromiseHandle.mk promise)] :
    (machine.registerReaction promise reaction).1 = .ok () := by
  obtain ⟨record, present⟩ := vouches_promiseHandle.1 handle
  unfold Machine.registerReaction
  rw [promise?_eq_some.2 present]
  dsimp only
  split <;> rfl

omit consistent in
/-- A promise can be settled at any time. -/
theorem throws_settlePromise
    (settlement : Settlement)
    (value : Value)
    [machine.Vouches (PromiseHandle.mk promise)] :
    ThrowsOnly permits env machine (settlePromise promise settlement value : Exec σ Unit) := by
  refine .bindChange (.ofExcept fun exception threw => ?_)
  rw [settlePromise_fst] at threw
  cases threw

omit consistent in
theorem throws_registerReaction
    (reaction : Reaction)
    [machine.Vouches (PromiseHandle.mk promise)] :
    ThrowsOnly permits env machine (registerReaction promise reaction : Exec σ Unit) := by
  refine .bindChange (.ofExcept fun exception threw => ?_)
  rw [registerReaction_fst] at threw
  cases threw

theorem throws_rejectWith
    (sound : env.Sound collects)
    (promise : ObjectId)
    (exception : Exception)
    [machine.Vouches (PromiseHandle.mk promise)]
    [machine.Vouches exception] :
    ThrowsOnly permits env machine (rejectWith promise exception : Exec σ Unit) :=
  .after sound (.change _) fun _ _ _ _ _ => throws_settlePromise _ _ _

/-- What goes wrong while a promise is resolved rejects that promise. -/
theorem throws_resolvePromise
    (sound : env.Sound collects)
    (promise : ObjectId)
    (resolution : Value)
    [machine.Vouches (PromiseHandle.mk promise)]
    [machine.Vouches resolution] :
    ThrowsOnly permits env machine (resolvePromise promise resolution : Exec σ Unit) := by
  unfold resolvePromise
  split
  · exact .after sound (.change _) fun _ _ _ _ _ => throws_settlePromise _ _ _
  · split
    · exact throws_settlePromise _ _ _
    · refine .after sound (.attempt _) fun found after _ _ given => ?_
      cases found with
      | error exception =>
          have : after.Vouches exception := vouches_error.1 given
          exact throws_rejectWith sound promise exception
      | ok thenMethod =>
          dsimp only
          split
          · exact .change _
          · exact throws_settlePromise _ _ _

theorem throws_promiseOf (sound : env.Sound collects) (value : Value) [machine.Vouches value] :
    ThrowsOnly permits env machine (promiseOf value : Exec σ ObjectId) := by
  unfold promiseOf
  refine .ask ?_
  split
  · exact .pure _
  · refine .bind sound promises_newPromise.ensures (.change _) fun promise after _ later _ => ?_
    exact .after sound (throws_resolvePromise sound promise value) fun _ _ _ _ _ => .pure _

theorem throws_callResolving
    (sound : env.Sound collects)
    (promise : ObjectId)
    (latch : LatchId)
    (reject : Bool)
    (value : Value)
    [machine.Vouches (PromiseHandle.mk promise)]
    [machine.Vouches value] :
    ThrowsOnly permits env machine (callResolving promise latch reject value : Exec σ Unit) := by
  unfold callResolving
  refine .after sound (.change _) fun used after _ _ _ => ?_
  split
  · exact .pure _
  · split
    · exact throws_settlePromise _ _ _
    · exact throws_resolvePromise sound promise value

/-! ## Async functions -/

/-- An async function that runs is parked again, or its promise is settled, unless it yields. -/
theorem throws_concludeAsync
    (sound : env.Sound collects)
    {coroutine : ObjectId}
    (promise : ObjectId)
    (outcome : Except Exception FrameExit)
    (held : machine.InHand coroutine (.running, false))
    (allows : machine.AllowsOutcome outcome)
    (yields : ∀ after, permits (.internalError "yield inside an async function") after)
    [machine.Vouches (PromiseHandle.mk promise)] :
    ThrowsOnly permits env machine (concludeAsync coroutine promise outcome : Exec σ Unit) := by
  have completes := held.maintains_park_none .completed
  have := completes.consistent
  have kept : (machine.park coroutine .completed none).Vouches (PromiseHandle.mk promise) :=
    completes.preserves.vouches ‹_›
  unfold concludeAsync
  split
  · next value frame =>
      obtain ⟨given, _, free⟩ := AllowsExit.awaiting allows
      have parks := held.maintains_park .suspendedYield (some frame)
        fun _ same => Option.some.inj same ▸ free
      have := parks.consistent
      have given := parks.preserves.vouches given
      refine .bindPark ?_
      refine .bind sound (promises_promiseOf value).ensures (throws_promiseOf sound value) ?_
      exact fun awaited after _ _ _ => throws_registerReaction awaited _
  · have returned := completes.preserves.vouches (AllowsExit.returned allows)
    refine .bindPark ?_
    exact throws_resolvePromise sound promise _
  · refine .bindPark ?_
    exact .stray (yields _)
  · refine .bindPark ?_
    exact .stray (yields _)
  · next exception =>
      have thrown := completes.preserves.vouches (show machine.Vouches exception from allows)
      refine .bindPark ?_
      exact throws_rejectWith sound promise exception

omit consistent in
/-- What is taken is the frame that was there. -/
theorem eq_of_unpark
    {id : ObjectId}
    {taken : Option Frame}
    {after : Machine σ}
    (ran : unpark id env machine = .ok taken after) :
    taken = (machine.coroutine? id).bind Coroutine.frame ∧
      after = machine.park id .running none := by
  unfold unpark at ran
  rw [ask_bind] at ran
  cases parked : park id .running none env machine with
  | error stop middle =>
      rw [bind_of_error _ parked] at ran
      cases ran
  | ok _ middle =>
      rw [bind_of_ok _ parked] at ran
      cases ran
      have changed : change (fun machine => ((), machine.park id .running none)) env machine = _ :=
        parked
      exact ⟨rfl, (congrArg Prod.snd (eq_of_change changed)).symm⟩

theorem throws_resumeAsync
    (sound : env.Sound collects)
    (coroutine : ObjectId)
    (settlement : Settlement)
    (value : Value)
    (held : machine.InHand coroutine (.suspendedYield, true))
    (yields : ∀ after, permits (.internalError "yield inside an async function") after)
    [machine.Vouches value] :
    ThrowsOnly permits env machine (resumeAsync coroutine settlement value : Exec σ Unit) := by
  obtain ⟨frame, promise, present⟩ := exists_parked held.state
  unfold resumeAsync
  refine .ask ?_
  rw [present]
  refine .bindRan (.ask (.bindPark (.pure _))) fun taken after ran => ?_
  obtain ⟨rfl, rfl⟩ := eq_of_unpark ran
  rw [present]
  refine .bind sound (ensures_resumption present held _ value) (.attempt _) ?_
  exact fun outcome after _ _ ⟨allows, running, _, _⟩ =>
    throws_concludeAsync sound promise outcome running allows yields

end
end Exec

end ScriptVM

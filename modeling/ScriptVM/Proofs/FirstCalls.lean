import ScriptVM.Proofs.FatedRuns
import ScriptVM.Proofs.Latches
import ScriptVM.Proofs.StoredValues

/-!
# First calls

A promise that is constructed gets a pair of functions, which its executor may call as often as
it likes. Only the first call has an effect: it settles the promise, or it has it follow a
thenable, whose method gets a new pair of functions.
-/

namespace ScriptVM

variable {σ α : Type} {collects : Bool}

/-- The environment of a run that stops where a promise does not live any more. -/
def Env.whileLives (promise : ObjectId) (fuel : Nat) : Env σ :=
  .watched fuel fun sight => (sight.machine.promise? promise).isNone

/-- What a promise is resolved to with an object, by what was found as its method. -/
def PromiseFate.ofMethod
    (machine : Machine σ)
    (value : Value) : Except Exception Value -> PromiseFate
  | .ok thenMethod =>
      if thenMethod.isCallable then .following value thenMethod else .settled .fulfilled value
  | .error exception => .settled .rejected (machine.exceptionValue exception).1

namespace Machine

/-- The promise that a function of a pair settles, with the latch of the pair, and whether the
function is the rejecting one. -/
def half? (machine : Machine σ) (id : ObjectId) : Option (ObjectId × LatchId × Bool) :=
  match machine.kind? id with
  | some (.native ⟨_, .resolving promise latch reject, _⟩) => some (promise, latch, reject)
  | _ => none

/-- The object is the function of a pair that resolves or rejects the promise. -/
def IsHalf
    (machine : Machine σ)
    (promise : ObjectId)
    (latch : LatchId)
    (reject : Bool)
    (id : ObjectId) : Prop :=
  machine.half? id = some (promise, latch, reject)

/-- The machine in a native call. -/
def deeper (machine : Machine σ) : Machine σ :=
  { machine with nativeDepth := machine.nativeDepth + 1 }

/-- The machine after a native call. -/
def shallower (machine : Machine σ) : Machine σ :=
  { machine with nativeDepth := machine.nativeDepth - 1 }

variable {machine before after : Machine σ} {promise : ObjectId} {fate : PromiseFate}

theorem isHalf_iff {latch : LatchId} {reject : Bool} {id : ObjectId} :
    machine.IsHalf promise latch reject id ↔
      ∃ callee, machine.kind? id = some (.native callee) ∧
        callee.behavior = .resolving promise latch reject := by
  unfold IsHalf half?
  constructor
  · intro found
    split at found
    · next name other behind turned construct present =>
        cases found
        exact ⟨_, present, rfl⟩
    · cases found
  · rintro ⟨⟨name, behavior, construct⟩, present, rfl⟩
    rw [present]

theorem Fated.withNativeDepth (fated : machine.Fated promise fate) (nativeDepth : Nat) :
    Fated { machine with nativeDepth } promise fate :=
  fated.aside (.beside fated.tidy rfl (.refl machine.cells) rfl rfl)

theorem Fated.unpicked (fated : machine.Fated promise fate) (fuel : Nat) :
    (Env.whileLives promise fuel).watch { machine } = false := by
  obtain ⟨record, present, _⟩ := fated.present
  show (machine.promise? promise).isNone = false
  rw [present]
  rfl

/-- A promise that is being resolved stays so while something evolves. -/
theorem Fated.locked_of_passes
    (locked : before.Fated promise .locked)
    (avoids : before.Avoids (Request.Settles promise))
    (passes : (promiseFates σ promise).Passes before after) :
    after.Fated promise .locked := by
  obtain ⟨_, hands⟩ := passes ⟨⟨_, locked⟩, avoids⟩
  obtain ⟨fate, fated, same⟩ := hands.fates _ locked
  cases same
  exact fated

/-- A latch that is set does not change when it is set again. -/
theorem setLatch_of_set
    {latch : LatchId}
    (set : machine.cells.latches[latch.index]? = some true) :
    machine.setLatch latch = machine := by
  have same : machine.cells.latches.setIfInBounds latch.index true = machine.cells.latches := by
    refine Array.ext_getElem? fun index => ?_
    rw [Array.getElem?_setIfInBounds]
    split
    · next same =>
        subst same
        rw [if_pos (Array.getElem?_eq_some_iff.1 set).1, set]
    · rfl
  show { machine with cells := { machine.cells with latches := _ } } = machine
  rw [same]

end Machine

namespace Exec

variable {machine middle after : Machine σ} {promise : ObjectId} {fuel : Nat}
variable {computation : Exec σ α} {env : Env σ} {answer : α} {value : Value}

open Machine

theorem attempt_of_ok
    (ran : computation env machine = .ok answer after) :
    attempt computation env machine = .ok (.ok answer) after := by
  unfold attempt
  rw [ran]

/-- A native call that settles in a run that the watch does not stop. -/
theorem withNativeDepth_of_ok
    (room : machine.nativeDepth < machine.config.maxNativeDepth)
    (enters : env.watch { machine := machine.deeper } = false)
    (ran : computation env machine.deeper = .ok answer middle)
    (leaves : env.watch { machine := middle.shallower } = false) :
    withNativeDepth computation env machine = .ok answer middle.shallower := by
  rw [withNativeDepth_of_room computation env room]
  exact (bind_of_ok _ (change_of_unpicked enters)).trans ((bind_of_ok _ (attempt_of_ok ran)).trans
    (bind_of_ok _ (change_of_unpicked leaves)))

/-- The settlement of a promise that is being resolved. -/
theorem settlePromise_of_locked
    (fuel : Nat)
    (locked : machine.Fated promise .locked)
    (settlement : Settlement)
    (value : Value) :
    ∃ after, settlePromise promise settlement value (Env.whileLives promise fuel) machine =
        .ok () after ∧
      after.Fated promise (.settled settlement value) := by
  obtain ⟨record, present, pending⟩ := locked.present
  have settled := (locked.settle settlement value).1
  have answers : (machine.settlePromise promise settlement value).1 = .ok () := by
    obtain ⟨_, _, same⟩ := Machine.settlePromise_of_pending present pending settlement value
    rw [same]
  refine ⟨_, (bind_of_ok _ (change_of_unpicked (settled.unpicked fuel))).trans ?_, settled⟩
  rw [answers]
  rfl

/-! ## Calls of the functions of a pair -/

section

variable {fate : PromiseFate}

variable {latch : LatchId} {reject : Bool} {id : ObjectId} (receiver : Value)
  (arguments : List Value)

theorem callValue_of_half {env : Env σ} (half : machine.IsHalf promise latch reject id) :
    callValue (.function id) receiver arguments env machine =
      withNativeDepth (do
        callResolving promise latch reject (Builtins.argument arguments 0)
        return .undefined) env machine := by
  obtain ⟨callee, present, behaves⟩ := isHalf_iff.1 half
  unfold callValue
  dsimp only
  rw [ask_bind, present]
  dsimp only
  rw [behaves]
  rfl

/-- A pair of functions that was used before has no effect. -/
theorem callValue_of_used
    (fated : machine.Fated promise fate)
    (half : machine.IsHalf promise latch reject id)
    (used : machine.cells.latches[latch.index]? = some true)
    (room : machine.nativeDepth < machine.config.maxNativeDepth) :
    callValue (.function id) receiver arguments (Env.whileLives promise fuel) machine =
      .ok .undefined machine := by
  have kept : machine.deeper.setLatch latch = machine.deeper := setLatch_of_set used
  have enters : (Env.whileLives promise fuel).watch { machine := machine.deeper } = false :=
    (fated.withNativeDepth _).unpicked fuel
  have sets : change (fun machine : Machine σ =>
      ((machine.cells.setLatch latch).1,
        { machine with cells := (machine.cells.setLatch latch).2 }))
      (Env.whileLives promise fuel) machine.deeper = .ok true machine.deeper := by
    refine (change_of_unpicked ?_).trans ?_
    · show (Env.whileLives promise fuel).watch { machine := machine.deeper.setLatch latch } = false
      rw [kept]
      exact enters
    · show EStateM.Result.ok ((machine.cells.latches[latch.index]?).getD false)
        (machine.deeper.setLatch latch) = _
      rw [kept, used]
      rfl
  have ran : callResolving promise latch reject (Builtins.argument arguments 0)
      (Env.whileLives promise fuel) machine.deeper = .ok () machine.deeper :=
    (bind_of_ok _ sets).trans rfl
  rw [callValue_of_half receiver arguments half]
  have calls : (do
      callResolving promise latch reject (Builtins.argument arguments 0)
      return .undefined : Exec σ Value) (Env.whileLives promise fuel) machine.deeper =
        .ok .undefined machine.deeper := bind_of_ok _ ran
  exact withNativeDepth_of_ok room enters calls (fated.unpicked fuel)

theorem callResolving_of_first
    (fated : machine.Fated promise (.undecided latch))
    (value : Value) :
    callResolving promise latch reject value (Env.whileLives promise fuel) machine =
      (if reject then settlePromise promise .rejected value else resolvePromise promise value)
        (Env.whileLives promise fuel) (machine.setLatch latch) := by
  have unset : (machine.cells.setLatch latch).1 = false := by
    show (machine.cells.latches[latch.index]?).getD false = false
    rw [fated.latch latch rfl]
    rfl
  refine (bind_of_ok _ (change_of_unpicked (fated.lock.1.unpicked fuel))).trans ?_
  show (if (machine.cells.setLatch latch).1 = true then return () else
    if reject = true then settlePromise promise .rejected value
      else resolvePromise promise value : Exec σ Unit) _ _ = _
  rw [unset]
  rfl

/-- If what the first call goes on with decides about the promise, so does the call. -/
theorem callValue_of_first
    (fated : machine.Fated promise (.undecided latch))
    (half : machine.IsHalf promise latch reject id)
    (room : machine.nativeDepth < machine.config.maxNativeDepth)
    (decides : ∃ middle, (if reject then
        settlePromise promise .rejected (Builtins.argument arguments 0)
      else resolvePromise promise (Builtins.argument arguments 0))
        (Env.whileLives promise fuel) (machine.deeper.setLatch latch) = .ok () middle ∧
        middle.Fated promise fate) :
    ∃ after, callValue (.function id) receiver arguments (Env.whileLives promise fuel) machine =
        .ok .undefined after ∧
      after.Fated promise fate := by
  obtain ⟨middle, ran, settled⟩ := decides
  have inside : machine.deeper.Fated promise (.undecided latch) := fated.withNativeDepth _
  refine ⟨middle.shallower, ?_, settled.withNativeDepth _⟩
  rw [callValue_of_half receiver arguments half]
  exact withNativeDepth_of_ok room (inside.unpicked fuel)
    (bind_of_ok _ ((callResolving_of_first inside _).trans ran))
    ((settled.withNativeDepth _).unpicked fuel)

end

/-! ## Resolutions -/

variable (locked : machine.Fated promise .locked)
include locked

/-- Nothing but an object is looked at when a promise is resolved. -/
theorem resolvePromise_of_plain
    (plain : value.isObject = false) :
    ∃ after, resolvePromise promise value (Env.whileLives promise fuel) machine = .ok () after ∧
      after.Fated promise (.settled .fulfilled value) := by
  have unlike : (value.objectId? == some promise) = false := by
    cases value with
    | object | function => cases plain
    | _ => rfl
  unfold resolvePromise
  rw [unlike, plain]
  exact settlePromise_of_locked fuel locked .fulfilled value

/-- A promise does not resolve to itself. -/
theorem resolvePromise_of_self
    (avoids : machine.Avoids (Request.Settles promise))
    (self : value.objectId? = some promise) :
    ∃ after, resolvePromise promise value (Env.whileLives promise fuel) machine = .ok () after ∧
      after.Fated promise (.settled .rejected (machine.createError .typeError
        "Chaining cycle detected for promise #<Promise>").1) := by
  have still := locked.locked_of_passes avoids
    (Discipline.passes_errorObject machine _ : (promiseFates σ promise).discipline.passes machine
      (machine.createError .typeError "Chaining cycle detected for promise #<Promise>").2)
  obtain ⟨after, ran, settled⟩ := settlePromise_of_locked fuel still .rejected
    (machine.createError .typeError "Chaining cycle detected for promise #<Promise>").1
  refine ⟨after, ?_, settled⟩
  unfold resolvePromise
  rw [self, beq_self_eq_true, if_pos rfl]
  exact (bind_of_ok _ (change_of_unpicked (still.unpicked fuel))).trans ran

/-- The method of an object is looked up once, whatever code runs then, and what is found
decides. -/
theorem resolvePromise_of_object
    {found : Except Exception Value}
    (avoids : machine.Avoids (Request.Settles promise))
    (object : value.isObject = true)
    (other : value.objectId? ≠ some promise)
    (looked : attempt (getProperty value "then") (Env.whileLives promise fuel) machine =
      .ok found middle) :
    ∃ after, resolvePromise promise value (Env.whileLives promise fuel) machine = .ok () after ∧
      after.Fated promise (.ofMethod middle value found) := by
  have sound : (promiseFates σ promise).discipline.Sound (Env.whileLives promise fuel) :=
    Discipline.sound_hosting (fun sight gone => Option.isNone_iff_eq_none.2 gone) fuel
  have looks : Obeys (promiseFates σ promise).discipline
      (attempt (getProperty value "then") : Exec σ (Except Exception Value)) := inferInstance
  have passes := looks.obeys _ sound machine
  rw [looked] at passes
  have still : middle.Fated promise .locked := locked.locked_of_passes avoids passes
  have avoids : middle.Avoids (Request.Settles promise) := (passes ⟨⟨_, locked⟩, avoids⟩).1.2
  have starts : resolvePromise promise value (Env.whileLives promise fuel) machine =
      (match found with
      | .error exception => rejectWith promise exception
      | .ok thenMethod =>
          if thenMethod.isCallable then
            update fun machine => machine.submitJob (.resolveThenable promise value thenMethod)
          else settlePromise promise .fulfilled value : Exec σ Unit)
        (Env.whileLives promise fuel) middle := by
    unfold resolvePromise
    rw [if_neg (by simpa using other), object]
    exact (bind_of_ok _ looked).trans (by cases found <;> rfl)
  rw [starts]
  cases found with
  | error exception =>
      have left := still.locked_of_passes avoids
        (Discipline.passes_exceptionValue middle exception :
          (promiseFates σ promise).discipline.passes middle (middle.exceptionValue exception).2)
      obtain ⟨after, ran, settled⟩ := settlePromise_of_locked fuel left .rejected
        (middle.exceptionValue exception).1
      exact ⟨after, (bind_of_ok _ (change_of_unpicked (left.unpicked fuel))).trans ran, settled⟩
  | ok thenMethod =>
      dsimp only [PromiseFate.ofMethod]
      split
      · have follows := still.follow value thenMethod
        exact ⟨_, change_of_unpicked (follows.unpicked fuel), follows⟩
      · exact settlePromise_of_locked fuel still .fulfilled value

/-! ## New pairs -/

/-- Hand the functions of a pair over; what is thrown goes to the rejecting one. -/
def handOver
    (functions : Value × Value)
    (body : Value -> Value -> Exec σ Unit) : Exec σ Unit := do
  match <- attempt (body functions.1 functions.2) with
  | .ok () => return ()
  | .error exception =>
      let _ <- call functions.2 .undefined [<- exceptionValue exception]

end Exec

namespace Machine

variable {machine before after : Machine σ} {promise : ObjectId} {fate : PromiseFate}

open Exec

/-- A new pair consists of a function that resolves the promise and one that rejects it. -/
theorem exists_halves (tidy : machine.heap.Tidy) (promise : ObjectId) :
    ∃ resolve reject,
      (machine.createResolvingFunctions promise).1 = (.function resolve, .function reject) ∧
        (machine.createResolvingFunctions promise).2.IsHalf promise
          ⟨machine.cells.latches.size⟩ false resolve ∧
        (machine.createResolvingFunctions promise).2.IsHalf promise
          ⟨machine.cells.latches.size⟩ true reject := by
  let half (reject : Bool) : NativeFunction :=
    { name := "", behavior := .resolving promise ⟨machine.cells.latches.size⟩ reject }
  have latched : machine.addLatch.heap.Tidy := tidy
  have first := Adds.createNative latched (half false) 1
  have second := Adds.createNative first.tidy (half true) 1
  have resolves := first.kind? machine.addLatch.heap.nextId
  have rejects := second.kind? (machine.addLatch.createNative (half false) 1).2.heap.nextId
  rw [if_pos rfl] at resolves rejects
  have resolving := createNative_fst machine.addLatch (half false) 1
  have rejecting := createNative_fst (machine.addLatch.createNative (half false) 1).2 (half true) 1
  refine ⟨_, _, Prod.ext resolving rejecting, isHalf_iff.2 ⟨half false, ?_, rfl⟩,
    isHalf_iff.2 ⟨half true, rejects, rfl⟩⟩
  refine (second.kind? _).trans ((if_neg fun same => ?_).trans resolves)
  have dead := second.dead
  rw [same, resolves] at dead
  cases dead

/-- A new pair of functions decides about the promise, and is handed over. -/
structure OpensPair
    (machine : Machine σ)
    (promise : ObjectId) : Prop where
  fated : (machine.createResolvingFunctions promise).2.Fated promise
    (.undecided ⟨machine.cells.latches.size⟩)
  halves : ∃ resolve reject,
    (machine.createResolvingFunctions promise).1 = (.function resolve, .function reject) ∧
      (machine.createResolvingFunctions promise).2.IsHalf promise
        ⟨machine.cells.latches.size⟩ false resolve ∧
      (machine.createResolvingFunctions promise).2.IsHalf promise
        ⟨machine.cells.latches.size⟩ true reject
  handsOver : ∀ env body,
    env.watch { machine := (machine.createResolvingFunctions promise).2 } = false ->
    withResolvingFunctions promise body env machine =
      handOver (machine.createResolvingFunctions promise).1 body env
        (machine.createResolvingFunctions promise).2

/-- A promise that is being resolved gets a new pair of functions. -/
theorem Fated.opensPair (locked : machine.Fated promise .locked) : machine.OpensPair promise := by
  have opens := locked.createOwnFunctions rfl rfl rfl
  exact ⟨opens, exists_halves locked.tidy promise,
    fun env body unpicked => bind_of_ok _ (change_of_unpicked unpicked)⟩

/-! ## Answers -/

/-- What the first call of a function decides about a promise that it has locked. -/
inductive Decides
    (machine : Machine σ)
    (promise : ObjectId)
    (fuel : Nat) : (reject : Bool) -> (value : Value) -> PromiseFate -> Prop
  | rejects (value : Value) : Decides machine promise fuel true value (.settled .rejected value)
  | fulfils {value : Value} :
      value.isObject = false -> Decides machine promise fuel false value (.settled .fulfilled value)
  /-- A promise is not resolved with itself. -/
  | itself {value : Value} :
      value.objectId? = some promise ->
      Decides machine promise fuel false value (.settled .rejected
        (machine.createError .typeError "Chaining cycle detected for promise #<Promise>").1)
  /-- An object is asked for its method once, whatever code runs then. -/
  | asks {value : Value} {found : Except Exception Value} {middle : Machine σ} :
      value.isObject = true -> value.objectId? ≠ some promise ->
      attempt (getProperty value "then") (Env.whileLives promise fuel) machine =
        .ok found middle ->
      Decides machine promise fuel false value (.ofMethod middle value found)

/-- What the first call decides comes about. -/
theorem Decides.comesAbout
    {fuel : Nat}
    {reject : Bool}
    {value : Value}
    (decides : machine.Decides promise fuel reject value fate)
    (locked : machine.Fated promise .locked)
    (avoids : machine.Avoids (Request.Settles promise)) :
    ∃ after, (if reject then Exec.settlePromise promise .rejected value
        else Exec.resolvePromise promise value) (Env.whileLives promise fuel) machine =
          .ok () after ∧
      after.Fated promise fate := by
  cases decides with
  | rejects => exact settlePromise_of_locked fuel locked .rejected value
  | fulfils plain => exact resolvePromise_of_plain locked plain
  | itself self => exact resolvePromise_of_self locked avoids self
  | asks object other looked => exact resolvePromise_of_object locked avoids object other looked

/-- How a machine with room for a native call answers calls of the functions that settle a
promise, and what the job does that has it follow a thenable. -/
structure Answers
    (machine : Machine σ)
    (promise : ObjectId)
    (fate : PromiseFate) : Prop where
  /-- Every pair was used, but for the one that decides. -/
  only : ∀ latch reject id, machine.IsHalf promise latch reject id ->
    machine.cells.latches[latch.index]? = some true ∨ fate = .undecided latch
  ignores : ∀ latch reject id, machine.IsHalf promise latch reject id ->
    machine.cells.latches[latch.index]? = some true ->
    ∀ fuel receiver arguments,
      callValue (.function id) receiver arguments (Env.whileLives promise fuel) machine =
        .ok .undefined machine
  decides : ∀ latch reject id, machine.IsHalf promise latch reject id ->
    fate = .undecided latch ->
    (machine.deeper.setLatch latch).Fated promise .locked ∧
    ∀ fuel receiver arguments decided,
      (machine.deeper.setLatch latch).Decides promise fuel reject
        (Builtins.argument arguments 0) decided ->
      ∃ after,
        callValue (.function id) receiver arguments (Env.whileLives promise fuel) machine =
          .ok .undefined after ∧
        after.Fated promise decided
  adopts : ∀ thenable thenMethod, fate = .following thenable thenMethod ->
    ∀ job jobs, machine.jobs.nextMicrotask? = some (job, jobs) ->
    job.settles? = some promise ->
    job = .resolveThenable promise thenable thenMethod ∧
      OpensPair ({ machine with jobs }.note (.started job)) promise

theorem Fated.answers
    (fated : machine.Fated promise fate)
    (avoids : machine.Avoids (Request.Settles promise))
    (room : machine.nativeDepth < machine.config.maxNativeDepth) :
    machine.Answers promise fate where
  only latch reject id half := by
    obtain ⟨callee, present, behaves⟩ := isHalf_iff.1 half
    cases set : machine.cells.latches[latch.index]? with
    | none =>
        have fits := fated.behavior present
        rw [behaves] at fits
        exact absurd fits.1 (Nat.not_lt.2 (Array.getElem?_eq_none_iff.1 set))
    | some value =>
        cases value with
        | true => exact .inl rfl
        | false => exact .inr (promiseFates.eq_undecided fated present behaves set)
  ignores latch reject id half used fuel receiver arguments :=
    callValue_of_used receiver arguments fated half used room
  decides latch reject id half first := by
    cases first
    have inside : machine.deeper.Fated promise (.undecided latch) := fated.withNativeDepth _
    have locked := inside.lock.1
    refine ⟨locked, fun fuel receiver arguments decided decides => ?_⟩
    have avoids : (machine.deeper.setLatch latch).Avoids (Request.Settles promise) :=
      avoids.same rfl rfl
    exact callValue_of_first receiver arguments fated half room (decides.comesAbout locked avoids)
  adopts thenable thenMethod follows job jobs taken settles := by
    obtain ⟨_, _, same, adopts, locked⟩ := fated.take taken settles
    cases follows.symm.trans same
    exact ⟨adopts, (locked.note _).opensPair⟩

/-! ## The birth of a promise -/

/-- What nothing mentions may be constructed as a promise, which then waits for its pair. -/
theorem Fated.allocatePromise
    (tidy : machine.heap.Tidy)
    (latched : machine.Latched)
    (unknown : ¬ machine.Mentions machine.heap.nextId)
    (prototype : ObjectId) :
    (machine.allocatePromise prototype).2.Fated (machine.allocatePromise prototype).1
      .locked := by
  have handed : (machine.allocatePromise prototype).1 = machine.heap.nextId :=
    Heap.allocate_fst ..
  rw [handed]
  have adds : machine.Adds (machine.allocatePromise prototype).2 machine.heap.nextId
      (.promise {}) := .allocatePromise tidy prototype
  have unnamed : ∀ id kind, machine.kind? id = some kind ->
      Item.object machine.heap.nextId ∉ items kind := by
    intro id kind present member
    obtain ⟨object, live, rfl⟩ := Option.map_eq_some_iff.1 present
    exact unknown (.inl (.object live (List.mem_append_right _ member)))
  refine ⟨adds.tidy, fun id kind present => ?_, ?_, nofun, ?_⟩
  · rw [adds.kind?] at present
    split at present
    · cases present
      exact fun _ member => absurd member List.not_mem_nil
    · have unnamed := unnamed id kind present
      cases kind with
      | native callee =>
          have unnamed : Item.object machine.heap.nextId ∉ items callee.behavior := unnamed
          show callee.behavior.Fits _ _ _
          cases behaves : callee.behavior with
          | resolving other latch reject =>
              rw [behaves] at unnamed
              refine ⟨?_, fun same => absurd (same ▸ .head _) unnamed, nofun⟩
              rw [adds.cells]
              exact latched id callee other latch reject present behaves
          | combinatorElement index aggregate capability settlement =>
              rw [behaves] at unnamed
              exact fun same => unnamed (List.mem_append_right _ (same ▸ .head _))
          | _ => trivial
      | coroutine activation =>
          intro belongs
          refine unnamed (List.mem_append_right _ ?_)
          rw [belongs]
          exact .head _
      | promise record =>
          intro reaction member named
          refine unnamed (List.mem_append_right _ (List.mem_flatMap.2 ⟨reaction, member, ?_⟩))
          refine List.mem_append_left _ (List.mem_append_left _ ?_)
          rw [named]
          exact .head _
      | _ => trivial
  · rw [adds.promise?, if_pos rfl]
    rfl
  · refine List.filter_eq_nil_iff.2 fun job member settles => ?_
    have settles : job.settles? = some machine.heap.nextId := by simpa using settles
    refine unknown (.inl (.microtask (adds.jobs ▸ member) ?_))
    cases job with
    | reaction handler capability settlement argument =>
        refine List.mem_append_left _ (List.mem_append_right _ ?_)
        rw [show capability = _ from settles]
        exact .head _
    | resolveThenable promise thenable thenMethod =>
        cases settles
        exact List.mem_append_left _ (List.mem_append_left _ (.head _))
    | host body => cases settles

end Machine

/-! ## What comes later -/

/-- Internal slots that come up elsewhere: they settle other promises at most, and functions
that resolve these have latches that were made meanwhile. -/
def ObjectKind.Elsewhere
    (promise : ObjectId)
    (before after : Array Bool) : ObjectKind -> Prop
  | .native callee =>
      callee.behavior.settles? ≠ some promise ∧
        ∀ other latch reject, callee.behavior = .resolving other latch reject ->
          before.size ≤ latch.index ∧ latch.index < after.size
  | .coroutine activation => activation.kind ≠ .async promise
  | .promise record => ∀ reaction ∈ record.reactions, reaction.capability ≠ some promise
  | _ => True

namespace Machine

variable {machine before middle after : Machine σ} {promise : ObjectId} {fate : PromiseFate}

open Exec

/-- A change that has nothing to do with a promise, such as what a built-in does besides calls
of functions. -/
structure Elsewhere
    (promise : ObjectId)
    (before after : Machine σ) : Prop where
  tidy : after.heap.Tidy
  objects : ∀ id kind, after.kind? id = some kind ->
    before.kind? id = some kind ∨
      kind.Elsewhere promise before.cells.latches after.cells.latches
  record : (after.promise? promise).map PromiseRecord.state =
    (before.promise? promise).map PromiseRecord.state
  size : before.cells.latches.size ≤ after.cells.latches.size
  set : ∀ index : Nat, before.cells.latches[index]? = some true ->
    after.cells.latches[index]? = some true
  unset : ∀ index : Nat, before.cells.latches[index]? = some false ->
    after.cells.latches[index]? = some false ∨
      ∃ other reject id, other ≠ promise ∧ before.IsHalf other ⟨index⟩ reject id
  jobs : (after.jobs.microtasks.jobs.filter fun job => job.settles? == some promise) =
    before.jobs.microtasks.jobs.filter fun job => job.settles? == some promise
  avoids : after.Avoids (Request.Settles promise)

theorem Elsewhere.fated
    (elsewhere : Elsewhere promise before after)
    (fated : before.Fated promise fate) :
    after.Fated promise fate := by
  refine fated.change elsewhere.tidy
    ⟨elsewhere.size, elsewhere.set, fun _ => .inr, fun _ _ => id⟩
    (fun id kind present => (elsewhere.objects id kind present).imp_right fun kept => ?_)
    (elsewhere.record.trans fated.record) (fun latch decides => ?_)
    (elsewhere.jobs.trans fated.jobs)
  · cases kind with
    | native callee =>
        obtain ⟨harmless, fresh⟩ := kept
        show callee.behavior.Fits _ _ _
        cases behaves : callee.behavior with
        | resolving other latch reject =>
            rw [behaves] at harmless
            obtain ⟨made, bound⟩ := fresh other latch reject behaves
            refine ⟨bound, fun same => absurd (congrArg some same) harmless, fun decides => ?_⟩
            have held := fated.latch latch decides
            exact absurd (Array.getElem?_eq_some_iff.1 held).1 (Nat.not_lt.2 made)
        | combinatorElement index aggregate capability settlement =>
            rw [behaves] at harmless
            exact fun same => harmless (congrArg some same)
        | _ => trivial
    | _ => exact kept
  · rcases elsewhere.unset latch.index (fated.latch latch decides) with
      unset | ⟨other, reject, id, unlike, half⟩
    · exact unset
    · obtain ⟨callee, present, behaves⟩ := isHalf_iff.1 half
      have fits := fated.behavior present
      rw [behaves] at fits
      exact absurd (fits.2.2 decides) unlike

/-- The machine in which a run ended or where the watch interrupted it. -/
def reached? : EStateM.Result (Stop σ) (Machine σ) α -> Option (Machine σ)
  | .ok _ after | .error (.thrown _) after => some after
  | .error (.interrupted sight) _ => some sight.machine
  | .error .outOfFuel _ => none

/-- What an evolution says of the machine that a run reaches. -/
theorem passes_of_reached?
    {evolution : Evolution σ}
    {result : EStateM.Result (Stop σ) (Machine σ) α}
    (keeps : evolution.Keeps before result)
    (reached : after ∈ reached? result)
    (goesOn : ¬ evolution.ends after) :
    evolution.Passes before after := by
  match result, keeps, reached with
  | .ok _ _, keeps, rfl | .error (.thrown _) _, keeps, rfl => exact keeps
  | .error (.interrupted _) _, keeps, rfl => exact keeps goesOn

/-- One machine leads to another while a promise lives that the embedder does not settle: by
whatever operation, run or program of an embedder, as far as the watch lets it go, or by what
happens elsewhere. -/
inductive LeadsWhile
    (promise : ObjectId)
    (before : Machine σ) : Machine σ -> Prop
  | performs {fuel : Nat} {watch : Sight σ -> Bool} {after : Machine σ}
      (invocation : Invocation) :
      (∀ sight : Sight σ, sight.machine.promise? promise = none -> watch sight = true) ->
      after ∈ reached? ((Env.watched fuel watch).perform invocation before) ->
      LeadsWhile promise before after
  | runs {fuel : Nat} {watch : Sight σ -> Bool} {after : Machine σ}
      (base : Nat) :
      (∀ sight : Sight σ, sight.machine.promise? promise = none -> watch sight = true) ->
      after ∈ reached? (Exec.runFrames base (Env.watched fuel watch) before) ->
      LeadsWhile promise before after
  | hosts {fuel : Nat} {watch : Sight σ -> Bool} {after : Machine σ}
      {program : HostProgram σ} :
      (∀ sight : Sight σ, sight.machine.promise? promise = none -> watch sight = true) ->
      program.Avoids (Request.Settles promise) ->
      after ∈ reached? (Exec.runProgram program (Env.watched fuel watch) before) ->
      LeadsWhile promise before after
  | elsewhere {after : Machine σ} :
      Elsewhere promise before after -> LeadsWhile promise before after

theorem LeadsWhile.passes
    (leads : before.LeadsWhile promise after)
    (lives : after.promise? promise ≠ none) :
    (promiseFates σ promise).Passes before after := by
  cases leads with
  | @performs fuel watch _ invocation watches reached =>
      have sound : (promiseFates σ promise).discipline.Sound (Env.watched fuel watch) :=
        Discipline.sound_hosting watches fuel
      exact passes_of_reached? (sound.performs invocation before) reached lives
  | @runs fuel watch _ base watches reached =>
      have sound : (promiseFates σ promise).discipline.Sound (Env.watched fuel watch) :=
        Discipline.sound_hosting watches fuel
      have runs : Obeys (promiseFates σ promise).discipline (runFrames base) := inferInstance
      exact passes_of_reached? (runs.obeys _ sound before) reached lives
  | @hosts fuel watch _ program watches avoids reached =>
      have sound : (promiseFates σ promise).discipline.Sound (Env.watched fuel watch) :=
        Discipline.sound_hosting watches fuel
      have permits : (promiseFates σ promise).discipline.Permits program :=
        ⟨HostProgram.spares_of_forall (fun _ => id) _, avoids⟩
      exact passes_of_reached? ((obeys_runProgram program permits).obeys _ sound before) reached
        lives
  | elsewhere elsewhere =>
      exact promiseFates.passes_of_keeps elsewhere.set (fun _ => elsewhere.fated)
        fun _ _ => elsewhere.avoids

/-- Any number of machines that lead to one another while a promise lives. -/
def GoesOn (promise : ObjectId) (before after : Machine σ) : Prop :=
  Relation.ReflTransGen
    (fun machine next => LeadsWhile promise machine next ∧ next.promise? promise ≠ none)
    before after

theorem GoesOn.passes (goesOn : before.GoesOn promise after) :
    (promiseFates σ promise).Passes before after := by
  induction goesOn with
  | refl => exact .refl before
  | tail _ next earlier => exact earlier.trans (next.1.passes next.2)

end Machine
namespace Builtins

end Builtins

end ScriptVM

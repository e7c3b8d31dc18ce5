import ScriptVM.Proofs.Discipline.Frames

/-!
# Changes of promises

What the changes of a machine do to promises, to coroutines and to the functions that settle
promises. Most leave all of them aside. A settlement and a registration change the record of
one promise and queue the jobs of the reactions that are ready.
-/

namespace ScriptVM

variable {σ α : Type}

/-! ## Changes that leave promises aside -/

/-- Internal slots of a promise, of a coroutine, or of a function that settles a promise. -/
def ObjectKind.Matters : ObjectKind -> Prop
  | .promise _ | .coroutine _ => True
  | .native callee => callee.behavior.settles? ≠ none
  | _ => False

instance : DecidablePred ObjectKind.Matters
  | .promise _ | .coroutine _ => isTrue trivial
  | .native callee => inferInstanceAs (Decidable (callee.behavior.settles? ≠ none))
  | .ordinary | .array _ | .function _ | .bound .. | .arguments | .error | .proxy ..
  | .arrayIterator .. => isFalse id

namespace Machine

/-- Promises, coroutines and functions that settle promises are the same, with the same
latches and aggregates, and the same jobs wait. New proxies are proxies of objects. -/
structure Aside (before after : Machine σ) : Prop where
  tidy : after.heap.Tidy
  kinds : ∀ id kind, kind.Matters ->
    (after.kind? id = some kind ↔ before.kind? id = some kind)
  proxies : ∀ id target handler, after.kind? id = some (.proxy target handler) ->
    before.kind? id = some (.proxy target handler) ∨
      target.isObject = true ∧ handler.isObject = true
  shared : before.cells.KeepsShared after.cells
  jobs : after.jobs = before.jobs
  hosts : after.hosts = before.hosts

/-- And so is what is known of rejections, and nothing is written down. -/
structure Still (before after : Machine σ) : Prop extends before.Aside after where
  rejections : after.rejections = before.rejections
  unhandled : after.unhandled = before.unhandled
  config : after.config = before.config
  journal : after.journal = before.journal

/-- The records of promises are what is found in their slots. -/
theorem promise?_eq_some
    {machine : Machine σ}
    {id : ObjectId}
    {record : PromiseRecord Value Reaction} :
    machine.promise? id = some record ↔ machine.kind? id = some (.promise record) := by
  refine ⟨kind?_of_promise?, fun present => ?_⟩
  unfold promise?
  rw [present]

theorem promise?_eq_none {machine : Machine σ} {id : ObjectId} :
    machine.promise? id = none ↔ ∀ record, machine.kind? id ≠ some (.promise record) := by
  rw [Option.eq_none_iff_forall_ne_some]
  exact forall_congr' fun record => not_congr promise?_eq_some

end Machine

namespace Machine.Aside

variable {machine before middle after : Machine σ}

theorem promise? (aside : before.Aside after) (id : ObjectId) :
    after.promise? id = before.promise? id :=
  Option.ext fun record => promise?_eq_some.trans
    ((aside.kinds id (.promise record) trivial).trans promise?_eq_some.symm)

/-- A change beside the heap, the jobs and the functions of the embedder. -/
theorem beside
    (tidy : before.heap.Tidy)
    (heap : after.heap = before.heap)
    (shared : before.cells.KeepsShared after.cells)
    (jobs : after.jobs = before.jobs)
    (hosts : after.hosts = before.hosts) :
    before.Aside after where
  tidy := heap ▸ tidy
  kinds id kind _ := by
    unfold kind?
    rw [heap]
  proxies id target handler present := by
    unfold kind? at present ⊢
    rw [heap] at present
    exact .inl present
  shared := shared
  jobs := jobs
  hosts := hosts

/-- A change of the heap alone. -/
theorem ofHeap
    {heap : Heap ObjectKind}
    (tidy : heap.Tidy)
    (kinds : ∀ id (kind : ObjectKind), kind.Matters ->
      (heap.payload? id = some kind ↔ machine.heap.payload? id = some kind))
    (proxies : ∀ id target handler, heap.payload? id = some (.proxy target handler) ->
      machine.heap.payload? id = some (.proxy target handler)) :
    machine.Aside { machine with heap } :=
  ⟨tidy, kinds, fun id target handler present => .inl (proxies id target handler present),
    .refl machine.cells, rfl, rfl⟩

end Machine.Aside

/-- What advances stays as it is if it matters. -/
theorem ObjectKind.Advances.eq_of_matters
    {before after kind : ObjectKind}
    (advances : before.Advances after)
    (matters : kind.Matters) :
    after = kind ↔ before = kind := by
  cases advances with
  | same => exact Iff.rfl
  | _ =>
      cases kind with
      | promise | coroutine | native => exact ⟨nofun, nofun⟩
      | _ => exact matters.elim

namespace GuardedChange

variable {unguarded : ObjectId -> Prop} {before after : Heap ObjectKind}

/-- A guarded change leaves promises aside. -/
theorem payload?_iff
    (change : GuardedChange unguarded before after)
    (id : ObjectId)
    (kind : ObjectKind)
    (matters : kind.Matters) :
    after.payload? id = some kind ↔ before.payload? id = some kind := by
  cases change with
  | define | append | redefine | overwrite | freeze => rw [Heap.payload?_define]
  | remove => rw [Heap.payload?_remove]
  | setPrototype => rw [Heap.payload?_setPrototype]
  | preventExtensions => rw [Heap.payload?_preventExtensions]
  | modifyPayload other change advances =>
      rw [Heap.payload?_modifyPayload]
      split
      · next same =>
          subst same
          cases present : before.payload? other with
          | none => simp
          | some old =>
              simp only [Option.map_some, Option.some.injEq]
              exact (advances old present).eq_of_matters matters
      · exact Iff.rfl

/-- A guarded change makes nothing a proxy. -/
theorem payload?_proxy
    (change : GuardedChange unguarded before after)
    (id : ObjectId)
    (target handler : Value)
    (present : after.payload? id = some (.proxy target handler)) :
    before.payload? id = some (.proxy target handler) := by
  cases change with
  | define | append | redefine | overwrite | freeze => rwa [Heap.payload?_define] at present
  | remove => rwa [Heap.payload?_remove] at present
  | setPrototype => rwa [Heap.payload?_setPrototype] at present
  | preventExtensions => rwa [Heap.payload?_preventExtensions] at present
  | modifyPayload other change advances =>
      rw [Heap.payload?_modifyPayload] at present
      split at present
      · next same =>
          subst same
          obtain ⟨old, stands, changed⟩ := Option.map_eq_some_iff.1 present
          have advance := advances old stands
          rw [changed] at advance
          cases advance
          exact stands
      · exact present

theorem aside
    {machine : Machine σ}
    (change : GuardedChange unguarded machine.heap after)
    (tidy : machine.heap.Tidy) :
    machine.Aside { machine with heap := after } :=
  .ofHeap ((change.heapChange .all).tidy tidy) change.payload?_iff change.payload?_proxy

end GuardedChange

/-! ## New objects -/

namespace Machine

variable {machine before middle after : Machine σ} {id : ObjectId} {kind : ObjectKind}

/-- An object is added. -/
structure Adds (before after : Machine σ) (id : ObjectId) (kind : ObjectKind) : Prop where
  tidy : after.heap.Tidy
  dead : before.kind? id = none
  kind? : ∀ other, after.kind? other = if id = other then some kind else before.kind? other
  cells : after.cells = before.cells
  jobs : after.jobs = before.jobs
  hosts : after.hosts = before.hosts

theorem kind?_nextId (tidy : machine.heap.Tidy) : machine.kind? machine.heap.nextId = none := by
  have dead := tidy.allocated_dead none ObjectKind.ordinary
  rw [Heap.allocate_fst] at dead
  unfold kind? Heap.payload?
  rw [dead]
  rfl

theorem Adds.allocate
    (tidy : machine.heap.Tidy)
    (prototype : Option ObjectId)
    (kind : ObjectKind) :
    machine.Adds (machine.allocate prototype kind).2 machine.heap.nextId kind where
  tidy := tidy.allocate prototype kind
  dead := kind?_nextId tidy
  kind? other := by
    show ((machine.heap.allocate prototype kind).2.get? other).map HeapObject.payload = _
    rw [tidy.get?_allocate, Heap.allocate_fst]
    split <;> rfl
  cells := rfl
  jobs := rfl
  hosts := rfl

/-- The new object may get properties. -/
theorem Adds.thenDefine
    (adds : before.Adds middle id kind)
    (holder : ObjectId)
    (key : PropertyKey)
    (property : Property) :
    before.Adds (middle.defineRaw holder key property) id kind where
  tidy := adds.tidy.define holder key property
  dead := adds.dead
  kind? other := (Heap.payload?_define ..).trans (adds.kind? other)
  cells := adds.cells
  jobs := adds.jobs
  hosts := adds.hosts

theorem Adds.createNative (tidy : machine.heap.Tidy) (native : NativeFunction) (arity : Nat) :
    machine.Adds (machine.createNative native arity).2 machine.heap.nextId (.native native) :=
  ((Adds.allocate tidy (some machine.intrinsics.functionPrototype)
    (.native native)).thenDefine _ _ _).thenDefine _ _ _

theorem Adds.allocatePromise (tidy : machine.heap.Tidy) (prototype : ObjectId) :
    machine.Adds (machine.allocatePromise prototype).2 machine.heap.nextId (.promise {}) :=
  have adds := Adds.allocate tidy (some prototype) (.promise {})
  ⟨adds.tidy, adds.dead, adds.kind?, rfl, rfl, rfl⟩

theorem createNative_fst (machine : Machine σ) (native : NativeFunction) (arity : Nat) :
    (machine.createNative native arity).1 = .function machine.heap.nextId :=
  congrArg Value.function (Heap.allocate_fst ..)

/-- A new object that does not matter leaves promises aside. -/
theorem Adds.aside
    (adds : before.Adds after id kind)
    (harmless : ¬ kind.Matters)
    (wraps : ∀ target handler, kind = .proxy target handler ->
      target.isObject = true ∧ handler.isObject = true) :
    before.Aside after where
  tidy := adds.tidy
  kinds other found matters := by
    rw [adds.kind?]
    split
    · next same =>
        subst same
        rw [adds.dead]
        refine ⟨fun made => ?_, nofun⟩
        cases made
        exact absurd matters harmless
    · exact Iff.rfl
  proxies other target handler present := by
    rw [adds.kind?] at present
    split at present
    · exact .inr (wraps target handler (Option.some.inj present))
    · exact .inl present
  shared := adds.cells ▸ .refl before.cells
  jobs := adds.jobs
  hosts := adds.hosts

/-- A new object that is no promise leaves the records of promises alone. -/
theorem Adds.promise?_of_unlike
    (adds : before.Adds after id kind)
    (unlike : ∀ record, kind ≠ .promise record)
    (other : ObjectId) :
    after.promise? other = before.promise? other := by
  have kinds := adds.kind? other
  by_cases same : id = other
  · subst same
    rw [if_pos rfl] at kinds
    rw [promise?_eq_none.2 fun record made => unlike record (Option.some.inj (kinds.symm.trans made)),
      promise?_eq_none.2 fun record present => by rw [adds.dead] at present; cases present]
  · rw [if_neg same] at kinds
    unfold Machine.promise?
    rw [kinds]

/-- A new promise waits for its settlement. -/
theorem Adds.promise?
    {promise : ObjectId}
    (adds : before.Adds after promise (.promise {}))
    (id : ObjectId) :
    after.promise? id = if promise = id then some {} else before.promise? id := by
  have kind := adds.kind? id
  unfold Machine.promise?
  rw [kind]
  by_cases same : promise = id
  · rw [if_pos same, if_pos same]
  · rw [if_neg same, if_neg same]

end Machine

/-- Inert slots do not matter. -/
theorem ObjectKind.Inert.harmless_of {kind : ObjectKind} (inert : kind.Inert) :
    ¬ kind.Matters := by
  cases kind with
  | promise record => exact fun _ => inert.unlike record rfl
  | coroutine coroutine => exact fun _ => inert.still coroutine rfl
  | native function => exact fun matters => matters (inert.harmless function rfl)
  | _ => exact id

/-! ## Changes of one promise -/

/-- The state of a promise that settles with a value. -/
def Settlement.state (value : Value) : Settlement -> PromiseState Value
  | .fulfilled => .fulfilled value
  | .rejected => .rejected value

theorem PromiseState.settled_of_ne {state : PromiseState Value} (settled : state ≠ .pending) :
    ∃ (settlement : Settlement) (value : Value), state = settlement.state value := by
  cases state with
  | pending => exact absurd rfl settled
  | fulfilled value => exact ⟨.fulfilled, value, rfl⟩
  | rejected reason => exact ⟨.rejected, reason, rfl⟩

theorem Settlement.state_ne (settlement : Settlement) (value : Value) :
    settlement.state value ≠ .pending := by
  cases settlement <;> exact nofun

namespace Machine

/-- A promise gets a new record, and jobs are queued. -/
structure Rewrites (before after : Machine σ) (promise : ObjectId)
    (record : PromiseRecord Value Reaction) (jobs : List (Job σ)) : Prop where
  tidy : after.heap.Tidy
  kind? : ∀ id, after.kind? id =
    if promise = id then some (.promise record) else before.kind? id
  cells : after.cells = before.cells
  microtasks : after.jobs.microtasks.jobs = before.jobs.microtasks.jobs ++ jobs
  tasks : after.jobs.tasks = before.jobs.tasks
  hosts : after.hosts = before.hosts

variable {machine before middle after : Machine σ} {promise : ObjectId}
  {record old : PromiseRecord Value Reaction} {jobs : List (Job σ)}

theorem Rewrites.promise?
    (rewrites : before.Rewrites after promise record jobs)
    (id : ObjectId) :
    after.promise? id = if promise = id then some record else before.promise? id := by
  have kind := rewrites.kind? id
  unfold Machine.promise?
  rw [kind]
  by_cases same : promise = id
  · rw [if_pos same, if_pos same]
  · rw [if_neg same, if_neg same]

theorem Rewrites.setPromise
    (tidy : machine.heap.Tidy)
    (present : machine.promise? promise = some old)
    (record : PromiseRecord Value Reaction) :
    machine.Rewrites (machine.setPromise promise record) promise record [] where
  tidy := tidy.modify promise _
  kind? id := by
    have changed := Heap.payload?_modifyPayload machine.heap promise id fun _ => .promise record
    split
    · next same =>
        subst same
        rw [if_pos rfl, show machine.heap.payload? promise = _ from kind?_of_promise? present]
          at changed
        exact changed
    · next other =>
        rw [if_neg other] at changed
        exact changed
  cells := rfl
  microtasks := (List.append_nil _).symm
  tasks := rfl
  hosts := rfl

theorem Rewrites.track
    (rewrites : before.Rewrites middle promise record jobs)
    (rejections : Rejections ObjectId) :
    before.Rewrites { middle with rejections } promise record jobs :=
  ⟨rewrites.tidy, rewrites.kind?, rewrites.cells, rewrites.microtasks, rewrites.tasks,
    rewrites.hosts⟩

theorem Rewrites.note
    (rewrites : before.Rewrites middle promise record jobs)
    (event : PromiseEvent σ) :
    before.Rewrites (middle.note event) promise record jobs :=
  ⟨rewrites.tidy, rewrites.kind?, rewrites.cells, rewrites.microtasks, rewrites.tasks,
    rewrites.hosts⟩

theorem Rewrites.enqueue (rewrites : before.Rewrites middle promise record jobs) (job : Job σ) :
    before.Rewrites (middle.enqueueJob job) promise record (jobs ++ [job]) where
  tidy := rewrites.tidy
  kind? := rewrites.kind?
  cells := rewrites.cells
  microtasks := by
    show middle.jobs.microtasks.jobs ++ [job] = _
    rw [rewrites.microtasks, List.append_assoc]
  tasks := rewrites.tasks
  hosts := rewrites.hosts

theorem Rewrites.enqueueReactions
    (reactions : List Reaction)
    (rewrites : before.Rewrites middle promise record jobs)
    (settlement : Settlement)
    (value : Value) :
    before.Rewrites
      (reactions.foldl (fun machine reaction =>
        machine.enqueueJob (reactionJob reaction settlement value)) middle)
      promise record (jobs ++ reactions.map fun reaction =>
        reactionJob reaction settlement value) := by
  induction reactions generalizing middle jobs with
  | nil => simpa using rewrites
  | cons reaction rest step =>
      rw [List.foldl_cons, List.map_cons, List.append_cons]
      exact step (rewrites.enqueue _)

/-- A settlement of anything but a pending promise has no effect. -/
theorem settlePromise_of_settled
    (settled : ∀ record, machine.promise? promise = some record -> record.state ≠ .pending)
    (settlement : Settlement)
    (value : Value) :
    (machine.settlePromise promise settlement value).2 = machine := by
  unfold settlePromise
  split
  · rfl
  · next record present =>
      have done := settled record present
      unfold PromiseRecord.fulfill PromiseRecord.reject PromiseRecord.settle
      cases state : record.state with
      | pending => exact absurd state done
      | _ => cases settlement <;> rfl

/-- Only a pending promise can be settled. -/
theorem pending_or_settlePromise_eq
    (machine : Machine σ)
    (promise : ObjectId)
    (settlement : Settlement)
    (value : Value) :
    (∃ record, machine.promise? promise = some record ∧ record.state = .pending) ∨
      (machine.settlePromise promise settlement value).2 = machine := by
  by_cases waits : ∃ record, machine.promise? promise = some record ∧ record.state = .pending
  · exact .inl waits
  · exact .inr (settlePromise_of_settled
      (fun record present pending => waits ⟨record, present, pending⟩) settlement value)

/-- The settlement of a pending promise writes its record and the event, remembers a rejection that
nobody heeded, and queues the jobs of all reactions that wait. -/
theorem settlePromise_of_pending
    (present : machine.promise? promise = some record)
    (pending : record.state = .pending)
    (settlement : Settlement)
    (value : Value) :
    ∃ rejections,
      rejections = (if settlement == .rejected && machine.config.trackUnhandledRejections &&
        !record.handled then machine.rejections.rejected promise else machine.rejections) ∧
      machine.settlePromise promise settlement value = (.ok (), record.reactions.foldl
        (fun machine reaction => machine.enqueueJob (reactionJob reaction settlement value))
        { (machine.setPromise promise
            { record with state := settlement.state value, reactions := [] }).note
              (.settled promise settlement value) with
          rejections }) := by
  have settles : ∀ state, record.settle state =
      (some record.reactions, { record with state, reactions := [] }) := by
    intro state
    unfold PromiseRecord.settle
    rw [pending]
  generalize outcome : machine.settlePromise promise settlement value = settled
  unfold settlePromise PromiseRecord.fulfill PromiseRecord.reject at outcome
  rw [present] at outcome
  cases settlement <;>
  · dsimp only at outcome
    rw [settles] at outcome
    dsimp only at outcome
    split at outcome
    · next tracked =>
        exact ⟨machine.rejections.rejected promise, (if_pos tracked).symm, outcome.symm⟩
    · next untracked => exact ⟨machine.rejections, (if_neg untracked).symm, outcome.symm⟩

/-- So the jobs of all reactions that wait are queued. -/
theorem rewrites_settlePromise
    (tidy : machine.heap.Tidy)
    (present : machine.promise? promise = some record)
    (pending : record.state = .pending)
    (settlement : Settlement)
    (value : Value) :
    machine.Rewrites (machine.settlePromise promise settlement value).2 promise
      { record with state := settlement.state value, reactions := [] }
      (record.reactions.map fun reaction => reactionJob reaction settlement value) := by
  obtain ⟨_, _, same⟩ := settlePromise_of_pending present pending settlement value
  rw [same]
  have replaced := (Rewrites.setPromise tidy present
    { record with state := settlement.state value, reactions := [] }).note
      (.settled promise settlement value)
  exact (replaced.track _).enqueueReactions record.reactions _ value

theorem registerReaction_eq_of_pending
    (present : machine.promise? promise = some record)
    (pending : record.state = .pending)
    (reaction : Reaction) :
    (machine.registerReaction promise reaction).2 =
      { (machine.setPromise promise
          { record with reactions := record.reactions ++ [reaction], handled := true }).note
            (.registered promise reaction) with
        rejections := machine.rejections.handled promise } := by
  obtain ⟨state, waiting, handled⟩ := record
  subst pending
  unfold registerReaction
  rw [present]
  rfl

theorem registerReaction_eq_of_settled
    (present : machine.promise? promise = some record)
    {settlement : Settlement}
    {value : Value}
    (settled : record.state = settlement.state value)
    (reaction : Reaction) :
    (machine.registerReaction promise reaction).2 =
      enqueueJob
        { (machine.setPromise promise { record with handled := true }).note
            (.registered promise reaction) with
          rejections := machine.rejections.handled promise }
        (reactionJob reaction settlement value) := by
  obtain ⟨state, waiting, handled⟩ := record
  subst settled
  unfold registerReaction
  rw [present]
  cases settlement <;> rfl

/-- A reaction on a pending promise waits. -/
theorem rewrites_registerReaction_of_pending
    (tidy : machine.heap.Tidy)
    (present : machine.promise? promise = some record)
    (pending : record.state = .pending)
    (reaction : Reaction) :
    machine.Rewrites (machine.registerReaction promise reaction).2 promise
      { record with reactions := record.reactions ++ [reaction], handled := true } [] := by
  rw [registerReaction_eq_of_pending present pending]
  exact ((Rewrites.setPromise tidy present _).note _).track _

/-- A reaction on a settled promise is queued at once. -/
theorem rewrites_registerReaction_of_settled
    (tidy : machine.heap.Tidy)
    (present : machine.promise? promise = some record)
    {settlement : Settlement}
    {value : Value}
    (settled : record.state = settlement.state value)
    (reaction : Reaction) :
    machine.Rewrites (machine.registerReaction promise reaction).2 promise
      { record with handled := true } [reactionJob reaction settlement value] := by
  rw [registerReaction_eq_of_settled present settled]
  exact (((Rewrites.setPromise tidy present _).note _).track _).enqueue _

theorem registerReaction_of_none
    (absent : machine.promise? promise = none)
    (reaction : Reaction) :
    (machine.registerReaction promise reaction).2 = machine := by
  unfold registerReaction
  rw [absent]

/-- At most one promise gets a new record. -/
def MayRewrite (before after : Machine σ) : Prop :=
  after = before ∨ ∃ promise record jobs, before.Rewrites after promise record jobs

theorem mayRewrite_settlePromise
    (tidy : machine.heap.Tidy)
    (promise : ObjectId)
    (settlement : Settlement)
    (value : Value) :
    machine.MayRewrite (machine.settlePromise promise settlement value).2 := by
  rcases machine.pending_or_settlePromise_eq promise settlement value with
    ⟨record, present, pending⟩ | same
  · exact .inr ⟨_, _, _, rewrites_settlePromise tidy present pending settlement value⟩
  · exact .inl same

theorem mayRewrite_registerReaction
    (tidy : machine.heap.Tidy)
    (promise : ObjectId)
    (reaction : Reaction) :
    machine.MayRewrite (machine.registerReaction promise reaction).2 := by
  cases present : machine.promise? promise with
  | none => exact .inl (registerReaction_of_none present reaction)
  | some record =>
      by_cases pending : record.state = .pending
      · exact .inr ⟨_, _, _, rewrites_registerReaction_of_pending tidy present pending reaction⟩
      · obtain ⟨_, _, settled⟩ := PromiseState.settled_of_ne pending
        exact .inr ⟨_, _, _, rewrites_registerReaction_of_settled tidy present settled reaction⟩

/-! ## Coroutines -/

/-- Parking a coroutine leaves what is no coroutine alone. -/
theorem kind?_park_of_unlike
    {id other : ObjectId}
    {state : CoroutineState}
    {frame : Option Frame}
    {kind : ObjectKind}
    (unlike : ∀ coroutine, kind ≠ .coroutine coroutine) :
    (machine.park id state frame).kind? other = some kind ↔ machine.kind? other = some kind := by
  refine (congrArg (· = some kind) (Heap.payload?_modifyPayload ..)).to_iff.trans ?_
  unfold kind?
  split
  · cases machine.heap.payload? other with
    | none => exact Iff.rfl
    | some held =>
        cases held with
        | coroutine coroutine =>
            exact ⟨fun same => absurd (Option.some.inj same).symm (unlike _),
              fun same => absurd (Option.some.inj same).symm (unlike _)⟩
        | _ => exact Iff.rfl
  · exact Iff.rfl

theorem promise?_park
    (machine : Machine σ)
    (id : ObjectId)
    (state : CoroutineState)
    (frame : Option Frame)
    (other : ObjectId) :
    (machine.park id state frame).promise? other = machine.promise? other :=
  Option.ext fun _ => promise?_eq_some.trans ((kind?_park_of_unlike
    fun _ => ObjectKind.noConfusion).trans promise?_eq_some.symm)

/-! ## Collections -/

/-- What a collection leaves alive is unchanged, and so is all beside the heap. -/
theorem collectGarbage_keeps (tidy : machine.heap.Tidy) (kept : List Value) :
    (machine.collectGarbage kept).2.heap.Tidy ∧
      (∀ id kind, (machine.collectGarbage kept).2.kind? id = some kind ->
        machine.kind? id = some kind) ∧
      (machine.collectGarbage kept).2.cells = machine.cells ∧
      (machine.collectGarbage kept).2.jobs = machine.jobs ∧
      (machine.collectGarbage kept).2.hosts = machine.hosts := by
  unfold collectGarbage
  split
  · exact ⟨tidy, fun _ _ present => present, rfl, rfl, rfl⟩
  · refine ⟨tidy.collect _ _, fun id kind present => ?_, rfl, rfl, rfl⟩
    obtain ⟨object, live, same⟩ := Option.map_eq_some_iff.1
      (show Option.map HeapObject.payload (Heap.get? _ id) = some kind from present)
    have stood := Heap.get?_collect _ _ _ live
    exact Option.map_eq_some_iff.2 ⟨object, stood, same⟩

end Machine
end ScriptVM

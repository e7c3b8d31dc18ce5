import ScriptVM.Proofs.PromiseFates

/-!
# Runs and the fate of a promise

As long as an embedder does not settle a promise itself, only calls of its functions and the job
that follows a thenable decide about it, however deep in a run they are.
-/

namespace ScriptVM

variable {σ α β : Type}

/-- The request settles the promise directly. -/
def Request.Settles (promise : ObjectId) : Request -> Prop
  | .resolvePromise value _ | .rejectPromise value _ => value.objectId? = some promise
  | _ => False

/-- Latches stay set, and every fate leads to a later one. -/
structure Machine.HandsOn
    (promise : ObjectId)
    (before after : Machine σ) : Prop where
  set : ∀ index : Nat, before.cells.latches[index]? = some true ->
    after.cells.latches[index]? = some true
  fates : ∀ fate, before.Fated promise fate ->
    ∃ later, after.Fated promise later ∧ fate.LeadsTo after.cells.latches later

/-- The fate of a promise that lives and that the embedder does not settle. -/
def promiseFates
    (σ : Type)
    (promise : ObjectId) : Evolution σ where
  holds machine := (∃ fate, machine.Fated promise fate) ∧ machine.Avoids (Request.Settles promise)
  leads := Machine.HandsOn promise
  refl machine _ := ⟨fun _ set => set, fun fate fated => ⟨fate, fated, .refl fate _⟩⟩
  trans earlier later := by
    refine ⟨fun index set => later.set index (earlier.set index set), fun fate fated => ?_⟩
    obtain ⟨between, then_, led⟩ := earlier.fates fate fated
    obtain ⟨last, finally_, leads⟩ := later.fates between then_
    exact ⟨last, finally_, led.trans leads later.set⟩
  ends machine := machine.promise? promise = none
  settles other := other ≠ promise
  registers reaction := reaction.capability ≠ some promise
  refuses := Request.Settles promise

namespace promiseFates

variable {record : PromiseRecord Value Reaction} {latch : LatchId} {reject : Bool}

variable {machine before after : Machine σ} {promise : ObjectId} {fate : PromiseFate}
  {id : ObjectId} {other : ObjectId} {job : Job σ} {jobs : EventLoop (Job σ) (HostProgram σ)}
  {callee : NativeFunction} {env : Env σ}

/-- A change that keeps every fate. -/
theorem passes_of_keeps
    (latches : ∀ index : Nat, before.cells.latches[index]? = some true ->
      after.cells.latches[index]? = some true)
    (keeps : ∀ fate, before.Fated promise fate -> after.Fated promise fate)
    (avoids : before.heap.Tidy -> before.Avoids (Request.Settles promise) ->
      after.Avoids (Request.Settles promise)) :
    (promiseFates σ promise).Passes before after := by
  rintro ⟨⟨fate, fated⟩, avoided⟩
  exact ⟨⟨⟨fate, keeps fate fated⟩, avoids fated.tidy avoided⟩, latches,
    fun fate fated => ⟨fate, keeps fate fated, .refl fate _⟩⟩

/-- A change that keeps every fate, the latches and the jobs. -/
theorem passes_of_same
    (latches : after.cells.latches = before.cells.latches)
    (jobs : after.jobs = before.jobs)
    (hosts : after.hosts = before.hosts)
    (keeps : ∀ fate, before.Fated promise fate -> after.Fated promise fate) :
    (promiseFates σ promise).Passes before after :=
  passes_of_keeps (fun _ set => latches ▸ set) keeps fun _ avoids => avoids.same hosts jobs

theorem passes_adds
    {kind : ObjectKind}
    (adds : before.heap.Tidy -> before.Adds after id kind)
    (cells : after.cells = before.cells)
    (jobs : after.jobs = before.jobs)
    (hosts : after.hosts = before.hosts)
    (fits : ∀ fate latches, kind.Fits promise fate latches) :
    (promiseFates σ promise).Passes before after :=
  passes_of_same (by rw [cells]) jobs hosts fun fate fated =>
    fated.adds (adds fated.tidy) (fits fate _)

/-- A change of another promise, or of one that does not settle. -/
theorem passes_rewrites
    {jobs : List (Job σ)}
    (rewrites : before.heap.Tidy -> before.Rewrites after other record jobs)
    (cells : after.cells = before.cells)
    (reactions : ∀ fate, before.Fated promise fate ->
      ∀ reaction ∈ record.reactions, reaction.capability ≠ some promise)
    (settles : ∀ fate, before.Fated promise fate -> ∀ job ∈ jobs, job.settles? ≠ some promise)
    (inner : ∀ job ∈ jobs, job.isReaction = true)
    (state : ∀ fate, before.Fated promise fate -> other = promise -> record.state = fate.state) :
    (promiseFates σ promise).Passes before after := by
  refine passes_of_keeps (fun _ set => cells ▸ set) (fun fate fated => ?_)
    fun tidy avoids => (rewrites tidy).avoids inner avoids
  refine fated.rewrites (rewrites fated.tidy) (reactions fate fated) (settles fate fated) ?_ rfl rfl
  split
  · next same => exact state fate fated same
  · rfl

/-- The reactions to a promise do not settle the one that is guarded. -/
theorem capability_ne
    (fated : machine.Fated promise fate)
    (present : machine.promise? other = some record) :
    ∀ reaction ∈ record.reactions, reaction.capability ≠ some promise :=
  fated.objects other _ (Machine.kind?_of_promise? present)

theorem passes_settlePromise
    (machine : Machine σ)
    (settlement : Settlement)
    (value : Value)
    (unlike : other ≠ promise) :
    (promiseFates σ promise).Passes machine
      (machine.settlePromise other settlement value).2 := by
  rcases machine.pending_or_settlePromise_eq other settlement value with
    ⟨record, present, pending⟩ | same
  · refine Evolution.known fun ⟨⟨_, fated⟩, _⟩ => ?_
    have rewrites := Machine.rewrites_settlePromise fated.tidy present pending settlement value
    refine passes_rewrites (fun _ => rewrites) rewrites.cells (fun _ _ _ member => ?_)
      (fun _ fated job member => ?_) (fun job member => ?_) fun _ _ same => absurd same unlike
    · exact absurd member List.not_mem_nil
    · obtain ⟨reaction, waiting, rfl⟩ := List.mem_map.1 member
      exact capability_ne fated present reaction waiting
    · obtain ⟨_, _, rfl⟩ := List.mem_map.1 member
      rfl
  · rw [same]
    exact .refl machine

theorem passes_registerReaction
    (machine : Machine σ)
    (other : ObjectId)
    {reaction : Reaction}
    (harmless : reaction.capability ≠ some promise) :
    (promiseFates σ promise).Passes machine (machine.registerReaction other reaction).2 := by
  cases present : machine.promise? other with
  | none =>
      rw [Machine.registerReaction_of_none present]
      exact .refl machine
  | some record =>
      refine Evolution.known fun ⟨⟨_, fated⟩, _⟩ => ?_
      have unchanged : ∀ fate, machine.Fated promise fate -> other = promise ->
          record.state = fate.state := by
        intro fate fated same
        subst same
        obtain ⟨found, held, state⟩ := fated.present
        cases present.symm.trans held
        exact state
      by_cases pending : record.state = .pending
      · have rewrites :=
          Machine.rewrites_registerReaction_of_pending fated.tidy present pending reaction
        refine passes_rewrites (fun _ => rewrites) rewrites.cells (fun _ fated other member => ?_)
          (fun _ _ _ member => absurd member List.not_mem_nil)
          (fun _ member => absurd member List.not_mem_nil) unchanged
        rcases List.mem_append.1 member with old | new
        · exact capability_ne fated present other old
        · cases List.mem_singleton.1 new
          exact harmless
      · obtain ⟨settlement, value, settled⟩ := PromiseState.settled_of_ne pending
        have rewrites :=
          Machine.rewrites_registerReaction_of_settled fated.tidy present settled reaction
        refine passes_rewrites (fun _ => rewrites) rewrites.cells
          (fun _ fated reaction waits => capability_ne fated present reaction waits)
          (fun _ _ job member => ?_)
          (fun job member => ?_) unchanged
        · cases List.mem_singleton.1 member
          exact harmless
        · cases List.mem_singleton.1 member
          rfl

/-- Jobs that do not settle the promise are queued. -/
theorem passes_enqueue
    (machine : Machine σ)
    (harmless : job.settles? ≠ some promise)
    (avoids : ∀ body, job = .host body -> body.Avoids (Request.Settles promise)) :
    (promiseFates σ promise).Passes machine (machine.enqueueJob job) := by
  refine passes_of_keeps (fun _ set => set) (fun fate fated => ?_) fun _ avoided =>
    ⟨avoided.hosts, avoided.tasks, fun body member => ?_⟩
  · refine fated.withJobs ?_ rfl rfl
    show ((machine.jobs.microtasks.jobs ++ [job]).filter fun job => job.settles? == some promise) = _
    rw [List.filter_append, fated.jobs, List.filter_eq_nil_iff.2 (by simpa using harmless),
      List.append_nil]
  · rcases List.mem_append.1 (show Job.host body ∈ machine.jobs.microtasks.jobs ++ [job] from
      member) with old | new
    · exact avoided.microtasks body old
    · exact avoids body (List.mem_singleton.1 new).symm

theorem passes_note (machine : Machine σ) (event : PromiseEvent σ) :
    (promiseFates σ promise).Passes machine (machine.note event) :=
  passes_of_same rfl rfl rfl fun _ fated => fated.note event

/-- A job that does not settle the promise leaves the queue. -/
theorem passes_take
    (machine : Machine σ)
    (taken : machine.jobs.nextMicrotask? = some (job, jobs))
    (harmless : job.settles? ≠ some promise) :
    (promiseFates σ promise).Passes machine { machine with jobs } := by
  obtain ⟨tasks, microtasks⟩ := EventLoop.nextMicrotask?_spec taken
  refine passes_of_keeps (fun _ set => set) (fun fate fated => fated.withJobs ?_ rfl rfl)
    fun _ avoids => avoids.mono rfl (by rw [tasks]; exact List.Subset.refl _) fun body member => ?_
  · have waiting := fated.jobs
    rw [microtasks, List.filter_cons_of_neg (by simpa using harmless)] at waiting
    exact waiting
  · rw [microtasks]
    exact .tail job member

theorem passes_still (aside : before.Aside after) : (promiseFates σ promise).Passes before after :=
  passes_of_same aside.shared.latches aside.jobs aside.hosts fun _ fated => fated.aside aside

instance lawful (promise : ObjectId) : (promiseFates σ promise).Lawful where
  tidy := fun ⟨⟨_, fated⟩, _⟩ => fated.tidy
  quiet still := passes_still still.toAside
  takeUnhandled _ := Evolution.known fun ⟨⟨_, fated⟩, _⟩ =>
    passes_still (.beside fated.tidy rfl (.refl _) rfl rfl)
  fresh := fun ⟨⟨_, fated⟩, _⟩ => fated.ne_nextId
  allocatePromise machine prototype :=
    passes_adds (fun tidy => .allocatePromise tidy prototype) rfl rfl rfl
      fun _ _ _ member => absurd member List.not_mem_nil
  settlePromise machine _ settlement value unlike :=
    passes_settlePromise machine settlement value unlike
  registerReaction machine other _ harmless := passes_registerReaction machine other harmless
  registers {reaction} harmless _ := fun same => harmless promise same rfl
  adopt machine other thenable thenMethod unlike :=
    have queues : (promiseFates σ promise).Passes machine
        (machine.enqueueJob (.resolveThenable other thenable thenMethod)) :=
      passes_enqueue machine (fun same => unlike (Option.some.inj same)) nofun
    queues.trans (passes_note _ _)
  createResolvingFunctions machine other unlike :=
    passes_of_keeps (fun _ => Machine.latches_addLatch_of_some)
      (fun _ fated => fated.createResolvingFunctions unlike) fun _ avoids => avoids.same rfl rfl
  createElement machine index aggregate capability settlement unlike :=
    passes_adds (fun tidy => .createNative tidy _ 1) rfl rfl rfl fun _ _ => unlike
  addAggregate machine kind :=
    passes_of_same rfl rfl rfl fun _ fated => fated.cells rfl
  updateAggregate machine id fallback operation := by
    have latches : (machine.cells.updateAggregate id fallback operation).2.latches =
        machine.cells.latches := by
      unfold Cells.updateAggregate
      split <;> rfl
    exact passes_of_same latches rfl rfl fun _ fated => fated.cells latches

instance parking (promise : ObjectId) : (promiseFates σ promise).discipline.Parking where
  allocateCoroutine _ prototype coroutine settles :=
    passes_adds (fun tidy => .allocate tidy prototype (.coroutine coroutine)) rfl rfl rfl
      fun _ _ same => settles promise same rfl
  park _ id state frame :=
    passes_of_same rfl rfl rfl fun _ fated => fated.park id state frame
  awaits _ := nofun

/-! ## Calls of the functions that settle promises -/

/-- Only the pair with this latch can still decide. -/
theorem eq_undecided
    (fated : machine.Fated promise fate)
    (present : machine.kind? id = some (.native callee))
    (behaves : callee.behavior = .resolving promise latch reject)
    (unset : machine.cells.latches[latch.index]? = some false) :
    fate = .undecided latch := by
  have fits : (NativeBehavior.resolving promise latch reject).Fits promise fate
      machine.cells.latches := behaves ▸ fated.behavior present
  rcases fits.2.1 rfl with set | decides
  · cases unset.symm.trans set
  · cases fate with
    | undecided other =>
        cases decides
        rfl
    | _ => cases decides

/-- A promise is being resolved since the call of a function whose latch was not set. -/
structure Resolving
    (promise : ObjectId)
    (latch : LatchId)
    (start machine : Machine σ) : Prop where
  only : ∀ fate, start.Fated promise fate -> fate = .undecided latch
  set : ∀ index : Nat, start.cells.latches[index]? = some true ->
    machine.cells.latches[index]? = some true
  done : machine.cells.latches[latch.index]? = some true
  locked : machine.Fated promise .locked
  avoids : machine.Avoids (Request.Settles promise)

namespace Resolving

variable {start : Machine σ} {latch : LatchId} {env : Env σ}

/-- Whatever fate the promise meets in the end, it was undecided in the beginning. -/
theorem passes_of_fated
    (resolving : Resolving promise latch start before)
    (set : ∀ index : Nat, before.cells.latches[index]? = some true ->
      after.cells.latches[index]? = some true)
    (fated : after.Fated promise fate)
    (avoids : after.Avoids (Request.Settles promise)) :
    (promiseFates σ promise).Passes start after := by
  refine fun _ => ⟨⟨⟨fate, fated⟩, avoids⟩, fun index old => set index (resolving.set index old),
    fun old held => ⟨fate, fated, ?_⟩⟩
  rw [resolving.only old held]
  exact .inr (set _ resolving.done)

theorem passes (resolving : Resolving promise latch start machine) :
    (promiseFates σ promise).Passes start machine :=
  resolving.passes_of_fated (fun _ set => set) resolving.locked resolving.avoids

/-- While the promise is being resolved, nothing else resolves it. -/
theorem later
    (resolving : Resolving promise latch start before)
    (passes : (promiseFates σ promise).Passes before after) :
    Resolving promise latch start after := by
  obtain ⟨⟨_, avoids⟩, leads⟩ := passes ⟨⟨_, resolving.locked⟩, resolving.avoids⟩
  obtain ⟨fate, fated, same⟩ := leads.fates _ resolving.locked
  cases same
  exact ⟨resolving.only, fun index old => leads.set index (resolving.set index old),
    leads.set _ resolving.done, fated, avoids⟩

variable (resolving : Resolving promise latch start machine)
include resolving

theorem settle
    (settlement : Settlement)
    (value : Value) :
    (promiseFates σ promise).Passes start
      (machine.settlePromise promise settlement value).2 := by
  obtain ⟨fated, rewrites, reactions⟩ := resolving.locked.settle settlement value
  exact resolving.passes_of_fated (fun _ set => rewrites ▸ set) fated
    (reactions _ resolving.avoids)

theorem keeps_settlePromise
    (sound : (promiseFates σ promise).discipline.Sound env)
    (settlement : Settlement)
    (value : Value) :
    (promiseFates σ promise).Keeps start
      (Exec.settlePromise promise settlement value env machine) := by
  have settles := resolving.settle settlement value
  refine Evolution.Keeps.changeThen sound _ (fun _ => settles) fun _ => ?_
  cases (machine.settlePromise promise settlement value).1 with
  | ok answer => exact settles
  | error exception => exact settles

theorem follow
    (thenable thenMethod : Value) :
    (promiseFates σ promise).Passes start
      (machine.submitJob (.resolveThenable promise thenable thenMethod)) := by
  refine resolving.passes_of_fated (fun _ set => set) (resolving.locked.follow thenable thenMethod)
    ⟨resolving.avoids.hosts, resolving.avoids.tasks, fun body member => ?_⟩
  rcases List.mem_append.1 (show Job.host body ∈ machine.jobs.microtasks.jobs ++
    [.resolveThenable promise thenable thenMethod] from member) with old | new
  · exact resolving.avoids.microtasks body old
  · cases List.mem_singleton.1 new

/-- Resolving the promise keeps to its fate, whatever code runs on the way. -/
theorem keeps_resolvePromise
    (sound : (promiseFates σ promise).discipline.Sound env)
    (value : Value) :
    (promiseFates σ promise).Keeps start (Exec.resolvePromise promise value env machine) := by
  unfold Exec.resolvePromise
  split
  · exact Evolution.Keeps.bindThen sound resolving.passes inferInstance fun error after passes =>
      (resolving.later passes).keeps_settlePromise sound .rejected error
  · split
    · exact resolving.keeps_settlePromise sound .fulfilled value
    · refine Evolution.Keeps.bindThen sound resolving.passes inferInstance
        fun found after passes => ?_
      have resolving := resolving.later passes
      cases found with
      | error exception =>
          exact Evolution.Keeps.bindThen sound resolving.passes inferInstance
            fun reason after passes =>
              (resolving.later passes).keeps_settlePromise sound .rejected reason
      | ok thenMethod =>
          dsimp only
          split
          · exact Evolution.Keeps.change sound _ fun _ => resolving.follow value thenMethod
          · exact resolving.keeps_settlePromise sound .fulfilled value

end Resolving

variable (sound : (promiseFates σ promise).discipline.Sound env)
include sound

/-- The call of a resolving function keeps to the fate of the promise, whichever promise the
function belongs to. -/
theorem keeps_callResolving
    (present : machine.kind? id = some (.native callee))
    (behaves : callee.behavior = .resolving other latch reject)
    (value : Value) :
    (promiseFates σ promise).Keeps machine
      (Exec.callResolving other latch reject value env machine) := by
  refine Evolution.Keeps.relevant fun ⟨⟨fate, fated⟩, avoids⟩ => ?_
  have fits : (NativeBehavior.resolving other latch reject).Fits promise fate
      machine.cells.latches := behaves ▸ fated.behavior present
  obtain ⟨held, reads⟩ : ∃ held, machine.cells.latches[latch.index]? = some held :=
    ⟨_, Array.getElem?_eq_getElem fits.1⟩
  unfold Exec.callResolving
  by_cases mine : other = promise ∧ machine.cells.latches[latch.index]? = some false
  · obtain ⟨rfl, unset⟩ := mine
    have only : ∀ fate, machine.Fated other fate -> fate = .undecided latch :=
      fun fate fated => eq_undecided fated present behaves unset
    obtain ⟨locked, done⟩ := (only fate fated ▸ fated).lock
    have resolving : Resolving other latch machine (machine.setLatch latch) :=
      ⟨only, fun _ set => Machine.latches_setLatch_of_set set latch, done, locked,
        avoids.same rfl rfl⟩
    have free : (machine.cells.setLatch latch).1 = false := by
      show (machine.cells.latches[latch.index]?).getD false = false
      rw [unset]
      rfl
    refine Evolution.Keeps.changeThen sound _ (fun _ => resolving.passes) fun _ => ?_
    rw [free, if_neg Bool.false_ne_true]
    split
    · exact resolving.keeps_settlePromise sound .rejected value
    · exact resolving.keeps_resolvePromise sound value
  · have apart : ∀ fate, machine.Fated promise fate -> fate.latch? ≠ some latch := by
      intro fate fated decides
      have unset := fated.latch latch decides
      have fits : (NativeBehavior.resolving other latch reject).Fits promise fate
        machine.cells.latches := behaves ▸ fated.behavior present
      exact mine ⟨fits.2.2 decides, unset⟩
    have passes : (promiseFates σ promise).Passes machine (machine.setLatch latch) :=
      passes_of_keeps (fun _ set => Machine.latches_setLatch_of_set set latch)
        (fun fate fated => fated.setLatch (apart fate fated)) fun _ avoids => avoids.same rfl rfl
    refine Evolution.Keeps.changeThen sound _ (fun _ => passes) fun _ => ?_
    by_cases used : (machine.cells.setLatch latch).1 = true
    · rw [if_pos used]
      exact passes
    · rw [if_neg used]
      have unlike : other ≠ promise := by
        rintro rfl
        cases held with
        | false => exact mine ⟨rfl, reads⟩
        | true =>
            refine used ?_
            show (machine.cells.latches[latch.index]?).getD false = true
            rw [reads]
            rfl
      have settling : (promiseFates σ promise).discipline.Settling other := ⟨unlike⟩
      have rest : Exec.Obeys (promiseFates σ promise).discipline
          (if reject = true then Exec.settlePromise other .rejected value
            else Exec.resolvePromise other value : Exec σ Unit) := inferInstance
      exact Evolution.Keeps.since passes (rest.obeys env sound _)

/-- The call of a native function that settles some promise keeps to the fate of this one. -/
theorem keeps_settler
    (present : machine.kind? id = some (.native callee))
    (settles : callee.behavior.settles? = some other)
    (receiver : Value)
    (arguments : List Value) :
    (promiseFates σ promise).Keeps machine
      (Exec.withNativeDepth (Exec.runNative callee.behavior receiver arguments) env machine) := by
  refine Evolution.Keeps.relevant fun ⟨⟨fate, fated⟩, _⟩ =>
    Evolution.keeps_withNativeDepth sound fun nativeDepth => ?_
  have deeper : Machine.kind? { machine with nativeDepth } id = some (.native callee) := present
  cases behaves : callee.behavior with
  | resolving owner latch reject =>
      have calls : (promiseFates σ promise).discipline.keeps { machine with nativeDepth }
          (Exec.callResolving owner latch reject (Builtins.argument arguments 0) env
            { machine with nativeDepth }) := keeps_callResolving sound deeper behaves _
      exact Discipline.keeps_bind calls fun _ last _ => Evolution.Passes.refl last
  | combinatorElement index aggregate capability settlement =>
      have fits : capability ≠ promise := by
        have fits := fated.behavior present
        rw [behaves] at fits
        exact fits
      have settling : (promiseFates σ promise).discipline.Settling capability := ⟨fits⟩
      have runs : Exec.Obeys (promiseFates σ promise).discipline (Exec.runNative
          (.combinatorElement index aggregate capability settlement) receiver arguments) :=
        Exec.obeys_runSettler rfl (fun _ _ same => by cases same) receiver arguments
      exact runs.obeys env sound _
  | _ =>
      rw [behaves] at settles
      cases settles

/-! ## Jobs -/

/-- The job that has the promise follow a thenable makes a new pair of functions. -/
theorem keeps_follow
    (taken : machine.jobs.nextMicrotask? = some (job, jobs))
    (settles : job.settles? = some promise) :
    (promiseFates σ promise).Keeps machine ((do
      Exec.note (.started job)
      Exec.runJob job : Exec σ Unit) env { machine with jobs }) := by
  refine Evolution.Keeps.relevant fun ⟨⟨fate, fated⟩, avoids⟩ => ?_
  obtain ⟨thenable, thenMethod, rfl, rfl, locked⟩ := fated.take taken settles
  obtain ⟨tasks, microtasks⟩ := EventLoop.nextMicrotask?_spec taken
  have avoids : Machine.Avoids (Request.Settles promise) { machine with jobs } :=
    avoids.mono rfl (by rw [tasks]; exact List.Subset.refl _) fun body member => by
      rw [microtasks]
      exact .tail _ member
  have decides : ∀ {after : Machine σ} {later : PromiseFate}, after.Fated promise later ->
      after.Avoids (Request.Settles promise) ->
      (∀ index : Nat, machine.cells.latches[index]? = some true ->
        after.cells.latches[index]? = some true) ->
      (promiseFates σ promise).Passes machine after := by
    intro after later held kept set
    refine fun _ => ⟨⟨⟨later, held⟩, kept⟩, set, fun old present => ⟨later, held, ?_⟩⟩
    obtain ⟨_, _, rfl, _⟩ := present.take taken settles
    trivial
  have started := locked.note (.started (.resolveThenable promise thenable thenMethod))
  have takes := decides started (avoids.same rfl rfl) fun _ set => set
  have opens := decides (started.createOwnFunctions rfl rfl rfl) (avoids.same rfl rfl)
    fun _ => Machine.latches_addLatch_of_some
  refine Evolution.Keeps.changeThen sound
    (fun machine => ((), machine.note (.started (.resolveThenable promise thenable thenMethod))))
    (fun _ => takes) fun _ => ?_
  unfold Exec.runJob Exec.withResolvingFunctions Exec.createResolvingFunctions
  refine Evolution.Keeps.changeThen sound
    (fun machine => machine.createResolvingFunctions promise) (fun _ => opens)
    fun _ => .since opens (@Exec.Obeys.obeys _ _ _ _ ?_ env sound _)
  refine .bind inferInstance fun outcome => ?_
  split <;> infer_instance

/-- A job of the machine itself that is taken and run keeps to the fate of the promise. -/
theorem keeps_work
    (taken : machine.jobs.nextMicrotask? = some (job, jobs))
    (inner : ∀ body, job ≠ .host body) :
    (promiseFates σ promise).Keeps machine ((do
      Exec.note (.started job)
      Exec.runJob job : Exec σ Unit) env { machine with jobs }) := by
  by_cases settles : job.settles? = some promise
  · exact keeps_follow sound taken settles
  · have resumes : ∀ coroutine settlement argument, Exec.Obeys (promiseFates σ promise).discipline
        (Exec.resumeAsync coroutine settlement argument : Exec σ Unit) := by
      refine fun coroutine settlement argument => ⟨fun env sound machine => ?_⟩
      refine Evolution.Keeps.relevant fun ⟨⟨fate, fated⟩, _⟩ => ?_
      refine Exec.keeps_resumeAsync sound (fun activation other present belongs => ?_) _ _
      rintro rfl
      exact fated.objects coroutine _ (Machine.coroutine?_eq_some.1 present) belongs
    exact Discipline.keeps_microtask ((passes_take machine taken settles).trans (passes_note _ _))
      (Exec.obeys_runJob_of_inner inner (fun other same => by
        rintro rfl
        exact settles same) fun coroutine _ settlement argument _ =>
          resumes coroutine settlement argument) sound

instance hosted (promise : ObjectId) : (promiseFates σ promise).Hosted where
  avoids holds := holds.2
  pushHost machine body avoids :=
    passes_of_keeps (fun _ set => set)
      (fun _ fated => ⟨fated.tidy, fated.objects, fated.record, fated.latch, fated.jobs⟩)
      fun _ avoided => ⟨fun other member receiver arguments => by
        rcases Array.mem_push.1 member with old | rfl
        · exact avoided.hosts other old receiver arguments
        · exact avoids receiver arguments, avoided.tasks, avoided.microtasks⟩
  enqueueTask machine task avoids :=
    passes_of_keeps (fun _ set => set) (fun _ fated => fated.withJobs fated.jobs rfl rfl)
      fun _ avoided => ⟨avoided.hosts, fun other member => by
        rcases List.mem_append.1 (show other ∈ machine.jobs.tasks.jobs ++ [task] from member)
          with old | new
        · exact avoided.tasks other old
        · exact List.mem_singleton.1 new ▸ avoids, avoided.microtasks⟩
  enqueueMicrotask machine body avoids :=
    have queues : (promiseFates σ promise).Passes machine (machine.enqueueJob (.host body)) :=
      passes_enqueue machine nofun fun _ same => Job.host.inj same ▸ avoids
    queues.trans (passes_note _ _)
  reschedule machine jobs tasks microtasks :=
    passes_of_keeps (fun _ set => set)
      (fun _ fated => fated.withJobs (microtasks ▸ fated.jobs) rfl rfl)
      fun _ avoids => avoids.mono rfl tasks fun _ member => microtasks ▸ member
  finish env _ _ := Evolution.known fun ⟨⟨_, fated⟩, _⟩ =>
    passes_still (Machine.aside_checkpointFinished fated.tidy env)
  takeMicrotask machine _ _ taken := (passes_take machine taken nofun).trans (passes_note _ _)
  works _ taken inner sound := keeps_work sound taken inner
  settlers receiver arguments _ present settles sound :=
    keeps_settler sound present settles receiver arguments
  resolves asked named := fun same => asked (same ▸ named)
  rejects asked named := fun same => asked (same ▸ named)
  discards machine _ := by
    refine fun ⟨⟨fate, fated⟩, avoids⟩ => ⟨⟨?_, avoids.hosts, nofun, nofun⟩, fun _ set => set,
      fun fate fated => ?_⟩
    · obtain ⟨later, left, _⟩ := fated.discard
      exact ⟨later, left⟩
    · obtain ⟨later, left, same | ⟨_, _, rfl⟩⟩ := fated.discard
      · exact ⟨later, left, same ▸ .refl fate _⟩
      · exact ⟨later, left, trivial⟩
  collects kept _ := fun env sound machine => by
    refine Evolution.Keeps.relevant fun ⟨⟨_, fated⟩, _⟩ =>
      Evolution.Keeps.change sound _ fun lives => ?_
    obtain ⟨_, _, cells, jobs, hosts⟩ := Machine.collectGarbage_keeps fated.tidy kept
    exact passes_of_same (by rw [cells]) jobs hosts fun _ fated => fated.collectGarbage lives

end promiseFates
end ScriptVM

import ScriptVM.Proofs.PromiseEvolutions

/-!
# The fate of a promise

Where nothing but its pairs of functions settles a promise, one latch at a time decides about
it. The first call of a function with this latch locks the promise; then it is settled, or it
waits for a job that has it follow a thenable by means of a new pair. What is done elsewhere
does not matter.
-/

namespace ScriptVM

variable {σ α : Type} {kind : ObjectKind} {fate later : PromiseFate}

/-! ## Fates -/

/-- What is decided about a promise that only its pairs of functions settle. -/
inductive PromiseFate
  /-- Nobody has called the functions with this latch. -/
  | undecided (latch : LatchId)
  /-- The first call is under way. -/
  | locked
  /-- A job is going to call the method of a thenable. -/
  | following (thenable thenMethod : Value)
  | settled (settlement : Settlement) (value : Value)

namespace PromiseFate

/-- The state of the promise. -/
def state : PromiseFate -> PromiseState Value
  | undecided _ | locked | following .. => .pending
  | settled settlement value => settlement.state value

/-- The latch of the pair that decides. -/
def latch? : PromiseFate -> Option LatchId
  | undecided latch => some latch
  | locked | following .. | settled .. => none

/-- The jobs that wait to settle the promise. -/
def jobs (promise : ObjectId) : PromiseFate -> List (Job σ)
  | following thenable thenMethod => [.resolveThenable promise thenable thenMethod]
  | undecided _ | locked | settled .. => []

/-- What may become of a fate, given the latches of the later machine: a promise that settled
stays as it is, so does one that is being resolved, and nothing is decided as long as the latch
is not set. -/
def LeadsTo
    (fate : PromiseFate)
    (latches : Array Bool)
    (later : PromiseFate) : Prop :=
  match fate with
  | undecided latch => later = fate ∨ latches[latch.index]? = some true
  | locked | settled .. => later = fate
  | following .. => True

theorem LeadsTo.refl (fate : PromiseFate) (latches : Array Bool) :
    fate.LeadsTo latches fate := by
  cases fate with
  | undecided latch => exact .inl rfl
  | locked | settled => rfl
  | following => trivial

theorem LeadsTo.trans
    {first second third : PromiseFate}
    {middle last : Array Bool}
    (earlier : first.LeadsTo middle second)
    (later : second.LeadsTo last third)
    (set : ∀ index : Nat, middle[index]? = some true -> last[index]? = some true) :
    first.LeadsTo last third := by
  cases first with
  | undecided latch =>
      rcases earlier with rfl | done
      · exact later
      · exact .inr (set _ done)
  | locked | settled =>
      cases earlier
      exact later
  | following => trivial

end PromiseFate

/-! ## Who settles a promise -/

/-- A native function settles the promise only by way of the latch that decides, or its latch
is set. No other function has that latch. -/
def NativeBehavior.Fits
    (promise : ObjectId)
    (fate : PromiseFate)
    (latches : Array Bool) : NativeBehavior -> Prop
  | .resolving other latch _ =>
      latch.index < latches.size ∧
        (other = promise -> latches[latch.index]? = some true ∨ fate.latch? = some latch) ∧
        (fate.latch? = some latch -> other = promise)
  | .combinatorElement _ _ capability _ => capability ≠ promise
  | .builtin _ | .host _ | .finallyStep .. | .settled .. => True

/-- Internal slots that settle the promise by way of its pairs of functions at most. -/
def ObjectKind.Fits
    (promise : ObjectId)
    (fate : PromiseFate)
    (latches : Array Bool) : ObjectKind -> Prop
  | .native callee => callee.behavior.Fits promise fate latches
  | .coroutine activation => activation.kind ≠ .async promise
  | .promise record => ∀ reaction ∈ record.reactions, reaction.capability ≠ some promise
  | _ => True

namespace Machine

/-- Only its pairs of functions settle a promise, and this is its fate. -/
structure Fated
    (machine : Machine σ)
    (promise : ObjectId)
    (fate : PromiseFate) : Prop where
  tidy : machine.heap.Tidy
  objects : ∀ id kind, machine.kind? id = some kind ->
    kind.Fits promise fate machine.cells.latches
  record : (machine.promise? promise).map PromiseRecord.state = some fate.state
  latch : ∀ latch, fate.latch? = some latch ->
    machine.cells.latches[latch.index]? = some false
  jobs : (machine.jobs.microtasks.jobs.filter fun job => job.settles? == some promise) =
    fate.jobs promise

variable {machine before after : Machine σ} {promise : ObjectId} {fate later : PromiseFate}

theorem Fated.present (fated : machine.Fated promise fate) :
    ∃ record, machine.promise? promise = some record ∧ record.state = fate.state :=
  Option.map_eq_some_iff.1 fated.record

/-- How a function settles the promise. -/
theorem Fated.behavior
    {id : ObjectId}
    {callee : NativeFunction}
    (fated : machine.Fated promise fate)
    (present : machine.kind? id = some (.native callee)) :
    callee.behavior.Fits promise fate machine.cells.latches :=
  fated.objects id _ present

/-- A promise that lives is not handed out. -/
theorem Fated.ne_nextId (fated : machine.Fated promise fate) : machine.heap.nextId ≠ promise := by
  intro same
  obtain ⟨record, present, _⟩ := fated.present
  have live := kind?_of_promise? present
  rw [← same, kind?_nextId fated.tidy] at live
  cases live

end Machine

/-- A function that settles no promise fits. -/
theorem NativeBehavior.fits_of_harmless
    {behavior : NativeBehavior}
    (harmless : behavior.settles? = none)
    (promise : ObjectId)
    (fate : PromiseFate)
    (latches : Array Bool) :
    behavior.Fits promise fate latches := by
  cases behavior with
  | resolving | combinatorElement => cases harmless
  | _ => trivial

/-- What does not matter to promises fits. -/
theorem ObjectKind.fits_of_harmless
    (harmless : ¬ kind.Matters)
    (promise : ObjectId)
    (fate : PromiseFate)
    (latches : Array Bool) :
    kind.Fits promise fate latches := by
  cases kind with
  | native callee =>
      exact NativeBehavior.fits_of_harmless (Classical.not_not.1 harmless) promise fate latches
  | coroutine | promise => exact absurd trivial harmless
  | _ => trivial

/-- What becomes of the latches and of the one that decides without disturbing what fits. -/
structure PromiseFate.Moves
    (fate later : PromiseFate)
    (before after : Array Bool) : Prop where
  size : before.size ≤ after.size
  set : ∀ index : Nat, before[index]? = some true -> after[index]? = some true
  decides : ∀ latch : LatchId, fate.latch? = some latch ->
    after[latch.index]? = some true ∨ later.latch? = some latch
  owns : ∀ latch : LatchId, latch.index < before.size -> later.latch? = some latch ->
    fate.latch? = some latch

theorem PromiseFate.Moves.same
    (latch : later.latch? = fate.latch?)
    (latches : Array Bool) :
    fate.Moves later latches latches where
  size := Nat.le_refl _
  set _ set := set
  decides _ decides := .inr (latch.trans decides)
  owns _ _ decides := latch.symm.trans decides

theorem PromiseFate.Moves.refl (fate : PromiseFate) (latches : Array Bool) :
    fate.Moves fate latches latches :=
  .same rfl latches

theorem ObjectKind.Fits.moves
    {promise : ObjectId}
    {before after : Array Bool}
    (fits : kind.Fits promise fate before)
    (moves : fate.Moves later before after) :
    kind.Fits promise later after := by
  cases kind with
  | native callee =>
      obtain ⟨name, behavior, construct⟩ := callee
      cases behavior with
      | resolving other latch reject =>
          obtain ⟨bound, settles, owned⟩ := fits
          refine ⟨Nat.lt_of_lt_of_le bound moves.size, fun same => ?_,
            fun decides => owned (moves.owns latch bound decides)⟩
          exact (settles same).elim (fun set => .inl (moves.set _ set)) (moves.decides latch)
      | _ => exact fits
  | _ => exact fits

namespace Machine

variable {machine before after : Machine σ} {promise : ObjectId} {fate later : PromiseFate}
variable {other : ObjectId} {jobs : EventLoop (Job σ) (HostProgram σ)} {index : Nat}

/-! ## Changes that keep a fate -/

/-- A fate is kept if every object is an old one or fits, the promise has its state, the latches
move along, and so do the jobs. -/
theorem Fated.change
    (fated : before.Fated promise fate)
    (tidy : after.heap.Tidy)
    (moves : fate.Moves later before.cells.latches after.cells.latches)
    (objects : ∀ id kind, after.kind? id = some kind ->
      before.kind? id = some kind ∨ kind.Fits promise later after.cells.latches)
    (record : (after.promise? promise).map PromiseRecord.state = some later.state)
    (latch : ∀ latch, later.latch? = some latch ->
      after.cells.latches[latch.index]? = some false)
    (jobs : (after.jobs.microtasks.jobs.filter fun job => job.settles? == some promise) =
      later.jobs promise) :
    after.Fated promise later where
  tidy := tidy
  objects id kind present :=
    (objects id kind present).elim (fun old => (fated.objects id kind old).moves moves)
      fun fits => fits
  record := record
  latch := latch
  jobs := jobs

/-- Changes that leave promises aside keep every fate. -/
theorem Fated.aside (fated : before.Fated promise fate) (aside : before.Aside after) :
    after.Fated promise fate := by
  have same : after.cells.latches = before.cells.latches := aside.shared.latches
  refine fated.change aside.tidy (same ▸ .refl fate _) (fun id kind present => ?_) ?_ ?_ ?_
  · by_cases matters : kind.Matters
    · exact .inl ((aside.kinds id kind matters).1 present)
    · exact .inr (ObjectKind.fits_of_harmless matters ..)
  · rw [aside.promise?]
    exact fated.record
  · rw [same]
    exact fated.latch
  · rw [aside.jobs]
    exact fated.jobs

/-- A new object that fits keeps every fate. -/
theorem Fated.adds
    {id : ObjectId}
    {kind : ObjectKind}
    (fated : before.Fated promise fate)
    (adds : before.Adds after id kind)
    (fits : kind.Fits promise fate before.cells.latches) :
    after.Fated promise fate := by
  refine fated.change adds.tidy (adds.cells ▸ .refl fate _) (fun other held present => ?_) ?_ ?_ ?_
  · rw [adds.kind?] at present
    split at present
    · cases present
      exact .inr (adds.cells ▸ fits)
    · exact .inl present
  · obtain ⟨record, live, _⟩ := fated.present
    have other : id ≠ promise := by
      rintro rfl
      have present := kind?_of_promise? live
      rw [adds.dead] at present
      cases present
    have kept : after.promise? promise = before.promise? promise := by
      unfold promise?
      rw [adds.kind?, if_neg other]
    rw [kept]
    exact fated.record
  · rw [adds.cells]
    exact fated.latch
  · rw [adds.jobs]
    exact fated.jobs

/-- A change of one promise with the jobs that it queues. -/
theorem Fated.rewrites
    {record : PromiseRecord Value Reaction}
    {jobs : List (Job σ)}
    (fated : before.Fated promise fate)
    (rewrites : before.Rewrites after other record jobs)
    (reactions : ∀ reaction ∈ record.reactions, reaction.capability ≠ some promise)
    (settles : ∀ job ∈ jobs, job.settles? ≠ some promise)
    (state : (if other = promise then record.state else fate.state) = later.state)
    (latch : later.latch? = fate.latch?)
    (waiting : (later.jobs promise : List (Job σ)) = fate.jobs promise) :
    after.Fated promise later := by
  refine fated.change rewrites.tidy ?_ (fun id kind present => ?_) ?_ ?_ ?_
  · rw [rewrites.cells]
    exact .same latch _
  · rw [rewrites.kind?] at present
    split at present
    · cases present
      exact .inr reactions
    · exact .inl present
  · rw [rewrites.promise?, ← state]
    split
    · rfl
    · exact fated.record
  · rw [rewrites.cells, latch]
    exact fated.latch
  · rw [rewrites.microtasks, List.filter_append, fated.jobs, waiting,
      List.filter_eq_nil_iff.2 fun job member => by simpa using settles job member,
      List.append_nil]

/-- Changes of the cells that leave the latches alone keep every fate. -/
theorem Fated.cells
    (fated : machine.Fated promise fate)
    {cells : Cells}
    (latches : cells.latches = machine.cells.latches) :
    Fated { machine with cells } promise fate := by
  refine fated.change fated.tidy (latches ▸ .refl fate _) (fun _ _ present => .inl present)
    fated.record ?_ fated.jobs
  show ∀ latch : LatchId, fate.latch? = some latch -> cells.latches[latch.index]? = some false
  rw [latches]
  exact fated.latch

/-- Jobs that do not settle the promise come and go. -/
theorem Fated.withJobs
    (fated : machine.Fated promise fate)
    (waiting : (jobs.microtasks.jobs.filter fun job => job.settles? == some promise) =
      later.jobs promise)
    (state : later.state = fate.state)
    (latch : later.latch? = fate.latch?) :
    Fated { machine with jobs } promise later := by
  refine fated.change fated.tidy (.same latch _) (fun _ _ present => .inl present) ?_ ?_ waiting
  · rw [state]
    exact fated.record
  · rw [latch]
    exact fated.latch

theorem Fated.note (fated : machine.Fated promise fate) (event : PromiseEvent σ) :
    (machine.note event).Fated promise fate :=
  fated.change fated.tidy (.refl fate _) (fun _ _ present => .inl present) fated.record
    fated.latch fated.jobs

/-- Coroutines keep the promise that they settle. -/
theorem Fated.park
    (fated : machine.Fated promise fate)
    (id : ObjectId)
    (state : CoroutineState)
    (frame : Option Frame) :
    (machine.park id state frame).Fated promise fate := by
  refine fated.change (fated.tidy.modify id _) (.refl fate _) (fun other kind present => ?_) ?_
    fated.latch fated.jobs
  · by_cases unlike : ∀ coroutine, kind ≠ .coroutine coroutine
    · exact .inl ((kind?_park_of_unlike unlike).1 present)
    · obtain ⟨coroutine, made⟩ := Classical.not_forall.1 unlike
      obtain rfl := Classical.not_not.1 made
      obtain ⟨earlier, held, same⟩ := (machine.payload?_park id other state frame).1 present
      refine .inr fun settles => fated.objects other _ held ?_
      rw [same] at settles
      split at settles <;> exact settles
  · rw [promise?_park]
    exact fated.record

/-- The settlement of a promise that is being resolved. -/
theorem Fated.settle
    (locked : machine.Fated promise .locked)
    (settlement : Settlement)
    (value : Value) :
    (machine.settlePromise promise settlement value).2.Fated promise (.settled settlement value) ∧
      (machine.settlePromise promise settlement value).2.cells = machine.cells ∧
      ∀ refused, machine.Avoids refused ->
        (machine.settlePromise promise settlement value).2.Avoids refused := by
  obtain ⟨record, present, pending⟩ := locked.present
  have rewrites := rewrites_settlePromise locked.tidy present pending settlement value
  refine ⟨locked.rewrites rewrites (fun _ member => absurd member List.not_mem_nil)
    (fun job member => ?_) ?_ rfl rfl, rewrites.cells,
    fun _ => rewrites.avoids fun job member => ?_⟩
  · obtain ⟨reaction, waiting, rfl⟩ := List.mem_map.1 member
    exact locked.objects promise _ (kind?_of_promise? present) reaction waiting
  · rw [if_pos rfl]
    rfl
  · obtain ⟨_, _, rfl⟩ := List.mem_map.1 member
    rfl

theorem Fated.follow (locked : machine.Fated promise .locked) (thenable thenMethod : Value) :
    (machine.submitJob (.resolveThenable promise thenable thenMethod)).Fated promise
      (.following thenable thenMethod) := by
  suffices follows : (machine.enqueueJob (.resolveThenable promise thenable thenMethod)).Fated
      promise (.following thenable thenMethod) from follows.note _
  refine locked.withJobs ?_ rfl rfl
  have queued : (machine.jobs.enqueueMicrotask
      (.resolveThenable promise thenable thenMethod)).microtasks.jobs =
        machine.jobs.microtasks.jobs ++ [.resolveThenable promise thenable thenMethod] := rfl
  rw [queued, List.filter_append, locked.jobs]
  simp [PromiseFate.jobs, Job.settles?]

theorem Fated.take
    {job : Job σ}
    (fated : machine.Fated promise fate)
    (taken : machine.jobs.nextMicrotask? = some (job, jobs))
    (settles : job.settles? = some promise) :
    ∃ thenable thenMethod, fate = .following thenable thenMethod ∧
      job = .resolveThenable promise thenable thenMethod ∧
      Fated { machine with jobs } promise .locked := by
  have waiting := fated.jobs
  rw [(EventLoop.nextMicrotask?_spec taken).2, List.filter_cons_of_pos (by simp [settles])]
    at waiting
  cases fate with
  | following thenable thenMethod =>
      obtain ⟨same, rest⟩ := List.cons.inj waiting
      exact ⟨thenable, thenMethod, rfl, same, fated.withJobs rest rfl rfl⟩
  | _ => cases waiting

/-- What is left after a collection keeps every fate, if the promise is left. -/
theorem Fated.collectGarbage
    (fated : machine.Fated promise fate)
    {kept : List Value}
    (lives : (machine.collectGarbage kept).2.promise? promise ≠ none) :
    (machine.collectGarbage kept).2.Fated promise fate := by
  obtain ⟨tidy, kinds, cells, jobs, _⟩ := collectGarbage_keeps fated.tidy kept
  refine fated.change tidy (cells ▸ .refl fate _)
    (fun id kind present => .inl (kinds id kind present)) ?_ ?_ ?_
  · obtain ⟨record, found⟩ := Option.ne_none_iff_exists'.1 lives
    have stood := promise?_eq_some.2 (kinds _ _ (promise?_eq_some.1 found))
    have state := fated.record
    rw [stood] at state
    rw [found]
    exact state
  · rw [cells]
    exact fated.latch
  · rw [jobs]
    exact fated.jobs

/-- Without its job a promise that follows a thenable is stuck. -/
theorem Fated.discard (fated : machine.Fated promise fate) :
    ∃ later, Fated { machine with jobs := machine.jobs.discard.2 } promise later ∧
      (later = fate ∨ ∃ thenable thenMethod, fate = .following thenable thenMethod) := by
  cases fate with
  | following thenable thenMethod =>
      exact ⟨.locked, fated.withJobs rfl rfl rfl, .inr ⟨thenable, thenMethod, rfl⟩⟩
  | _ => exact ⟨_, fated.withJobs rfl rfl rfl, .inl rfl⟩

/-! ## Latches -/

/-- The cells with a latch set. -/
def setLatch (machine : Machine σ) (latch : LatchId) : Machine σ :=
  { machine with cells := (machine.cells.setLatch latch).2 }

theorem latches_setLatch (machine : Machine σ) (latch : LatchId) (index : Nat) :
    (machine.setLatch latch).cells.latches[index]? =
      if latch.index = index ∧ index < machine.cells.latches.size then some true
      else machine.cells.latches[index]? := by
  show (machine.cells.latches.setIfInBounds latch.index true)[index]? = _
  rw [Array.getElem?_setIfInBounds]
  by_cases same : latch.index = index
  · subst same
    by_cases bound : latch.index < machine.cells.latches.size
    · rw [if_pos rfl, if_pos bound, if_pos ⟨rfl, bound⟩]
    · rw [if_pos rfl, if_neg bound, if_neg fun both => bound both.2,
        Array.getElem?_eq_none (Nat.not_lt.1 bound)]
  · rw [if_neg same, if_neg fun both => same both.1]

/-- A latch that is set stays set. -/
theorem latches_setLatch_of_set
    (set : machine.cells.latches[index]? = some true)
    (latch : LatchId) :
    (machine.setLatch latch).cells.latches[index]? = some true := by
  rw [latches_setLatch]
  split
  · rfl
  · exact set

/-- Another latch may be set. -/
theorem Fated.setLatch
    {latch : LatchId}
    (fated : machine.Fated promise fate)
    (other : fate.latch? ≠ some latch) :
    (machine.setLatch latch).Fated promise fate := by
  refine fated.change fated.tidy ⟨?_, fun _ set => latches_setLatch_of_set set latch,
    fun _ => .inr, fun _ _ => id⟩ (fun _ _ present => .inl present) fated.record ?_ fated.jobs
  · exact Nat.le_of_eq Array.size_setIfInBounds.symm
  · intro deciding decides
    have apart : latch.index ≠ deciding.index := by
      rintro same
      have equal : latch = deciding := by
        cases latch
        cases deciding
        cases same
        rfl
      exact other (equal ▸ decides)
    rw [latches_setLatch, if_neg fun both => apart both.1]
    exact fated.latch deciding decides

/-- The first call locks the promise. -/
theorem Fated.lock {latch : LatchId} (fated : machine.Fated promise (.undecided latch)) :
    (machine.setLatch latch).Fated promise .locked ∧
      (machine.setLatch latch).cells.latches[latch.index]? = some true := by
  have bound := (Array.getElem?_eq_some_iff.1 (fated.latch latch rfl)).1
  have locked : (machine.setLatch latch).cells.latches[latch.index]? = some true := by
    rw [latches_setLatch, if_pos ⟨rfl, bound⟩]
  refine ⟨fated.change fated.tidy ⟨?_, fun _ set => latches_setLatch_of_set set latch, ?_, nofun⟩
    (fun _ _ present => .inl present) fated.record nofun fated.jobs, locked⟩
  · exact Nat.le_of_eq Array.size_setIfInBounds.symm
  · rintro deciding ⟨⟩
    exact .inl locked

/-- The machine with a new latch that is not set. -/
def addLatch (machine : Machine σ) : Machine σ :=
  { machine with cells := machine.cells.addLatch.2 }

theorem latches_addLatch (machine : Machine σ) (index : Nat) :
    machine.addLatch.cells.latches[index]? =
      if index = machine.cells.latches.size then some false
      else machine.cells.latches[index]? :=
  Array.getElem?_push

theorem latches_addLatch_of_some
    {value : Bool}
    (present : machine.cells.latches[index]? = some value) :
    machine.addLatch.cells.latches[index]? = some value := by
  rw [latches_addLatch, if_neg (Nat.ne_of_lt (Array.getElem?_eq_some_iff.1 present).1)]
  exact present

/-- A new pair of functions decides about its promise, if nothing else does that. -/
theorem Fated.addOwnLatch
    (fated : machine.Fated promise fate)
    (free : fate.latch? = none)
    (pending : fate.state = .pending)
    (idle : (fate.jobs promise : List (Job σ)) = []) :
    machine.addLatch.Fated promise (.undecided ⟨machine.cells.latches.size⟩) := by
  refine fated.change fated.tidy
    ⟨Nat.le_of_lt (by simp [Machine.addLatch, Cells.addLatch]),
      fun _ => latches_addLatch_of_some, fun latch decides => ?_, fun latch bound decides => ?_⟩
    (fun _ _ present => .inl present) ?_ ?_ ?_
  · rw [free] at decides
    cases decides
  · cases decides
    exact absurd bound (Nat.lt_irrefl _)
  · exact fated.record.trans (congrArg some pending)
  · rintro latch ⟨⟩
    rw [latches_addLatch, if_pos rfl]
  · exact fated.jobs.trans idle

/-- A new latch does not matter to any other promise. -/
theorem Fated.addLatch (fated : machine.Fated promise fate) : machine.addLatch.Fated promise fate :=
  fated.change fated.tidy
    ⟨Nat.le_of_lt (by simp [Machine.addLatch, Cells.addLatch]),
      fun _ => latches_addLatch_of_some, fun _ => .inr, fun _ _ => id⟩
    (fun _ _ present => .inl present) fated.record
    (fun latch decides => latches_addLatch_of_some (fated.latch latch decides)) fated.jobs

/-- A latch that decides is in use. -/
theorem Fated.ne_fresh (fated : machine.Fated promise fate) :
    fate.latch? ≠ some ⟨machine.cells.latches.size⟩ := fun decides =>
  Nat.lt_irrefl _ (Array.getElem?_eq_some_iff.1 (fated.latch _ decides)).1

/-- The two functions of a pair fit where their latch does. -/
theorem Fated.createPair
    (fated : machine.addLatch.Fated promise fate)
    (fits : ∀ reject, (NativeBehavior.resolving other ⟨machine.cells.latches.size⟩ reject).Fits
      promise fate machine.addLatch.cells.latches) :
    (machine.createResolvingFunctions other).2.Fated promise fate := by
  have adds := Adds.createNative fated.tidy
    { name := "", behavior := .resolving other ⟨machine.cells.latches.size⟩ false } 1
  have first := fated.adds adds (fits false)
  refine first.adds (.createNative first.tidy
    { name := "", behavior := .resolving other ⟨machine.cells.latches.size⟩ true } 1) ?_
  rw [adds.cells]
  exact fits true

theorem Fated.createResolvingFunctions
    (fated : machine.Fated promise fate)
    (unlike : other ≠ promise) :
    (machine.createResolvingFunctions other).2.Fated promise fate :=
  fated.addLatch.createPair fun _ =>
    ⟨by simp [Machine.addLatch, Cells.addLatch], fun same => absurd same unlike,
      fun decides => absurd decides fated.ne_fresh⟩

theorem Fated.createOwnFunctions
    (fated : machine.Fated promise fate)
    (free : fate.latch? = none)
    (pending : fate.state = .pending)
    (idle : (fate.jobs promise : List (Job σ)) = []) :
    (machine.createResolvingFunctions promise).2.Fated promise
      (.undecided ⟨machine.cells.latches.size⟩) :=
  (fated.addOwnLatch free pending idle).createPair fun _ =>
    ⟨by simp [Machine.addLatch, Cells.addLatch], fun _ => .inr rfl, fun _ => rfl⟩

end Machine
end ScriptVM

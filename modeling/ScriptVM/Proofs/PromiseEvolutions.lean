import ScriptVM.Proofs.CachedWrites
import ScriptVM.Proofs.Discipline.Frames
import ScriptVM.Proofs.Discipline.Hosts
import ScriptVM.Proofs.PromiseRecords
import ScriptVM.Proofs.Reachable

/-!
# Open disciplines and evolutions of promises

Where no property is guarded every instruction obeys, so that only what is done to promises and
jobs decides whether a discipline about them is followed.
-/

/-!
## Open disciplines, and evolutions

Where no property is guarded, the instructions that change properties without a check obey
like all others.
-/

namespace ScriptVM

variable {σ α : Type}

/-- A frameless discipline that guards no property. -/
class Discipline.Open (discipline : Discipline σ) : Prop extends discipline.Frameless where
  free (id : ObjectId) : discipline.unguarded id
  setValueAt (machine : Machine σ) (id : ObjectId) (offset : Nat) (value : Value) :
    discipline.passes machine (machine.modifyHeap fun heap => heap.setValueAt id offset value)
  /-- Any name may become a global. -/
  defineGlobal (machine : Machine σ) (name : String) (property : Property) :
    discipline.passes machine
      (machine.defineRaw machine.intrinsics.global (.string name) property)

variable {discipline : Discipline σ} [isOpen : discipline.Open]

namespace Discipline

instance (id : ObjectId) : discipline.Frees id := ⟨isOpen.free id⟩

theorem passes_cachedStore
    (machine : Machine σ)
    (id : ObjectId)
    (value : Value)
    (template : TemplateId)
    (slot : Nat) :
    discipline.passes machine (machine.cachedStore id value template slot).2 := by
  rcases machine.cachedStore_cases id value template slot with refused | ⟨offset, _, _, stored⟩
  · rw [refused]
    exact isOpen.refl machine
  · rw [stored]
    exact isOpen.setValueAt machine id offset value

end Discipline

open Discipline

namespace Exec

instance (target : Value) (key : PropertyKey) (value : Value) (template : Template) (slot : Nat) :
    Obeys discipline (setNamed target key value template slot : Exec σ Unit) := by
  have stores : ∀ id, Obeys discipline (change fun machine =>
      machine.cachedStore id value template.id slot : Exec σ Bool) :=
    fun id => .change _ fun machine => passes_cachedStore machine id value template.id slot
  have remembers : ∀ id, Obeys discipline (update fun machine =>
      machine.rememberOwn id key template.id slot : Exec σ Unit) :=
    fun id => .update _ fun machine => passes_rememberOwn machine id key template.id slot
  unfold setNamed
  refine .bind inferInstance fun cacheable => ?_
  split <;> infer_instance

theorem obeys_defineGlobal (name : String) (property : Property) :
    Obeys discipline (update fun machine : Machine σ =>
      machine.defineRaw machine.intrinsics.global (.string name) property) :=
  .update _ fun machine => isOpen.defineGlobal machine name property

instance obeys_createClass (constructor : Value) (heritage : Option Value) :
    Obeys discipline (createClass constructor heritage : Exec σ Unit) := by
  unfold createClass
  split
  · infer_instance
  · next id _ =>
      refine .bind inferInstance fun prototypes => .bind inferInstance fun prototype => ?_
      refine .bind inferInstance fun _ => .bind inferInstance fun _ => ?_
      refine .update _ fun machine => ?_
      have linked : discipline.passes machine
          (machine.modifyHeap fun heap => heap.setPrototype id (some prototypes.2)) :=
        isOpen.heap machine (.setPrototype machine.heap id _)
      exact isOpen.trans linked (passes_modifyClosure _ id _ fun _ => ⟨_, _, rfl⟩)

end Exec

namespace Discipline

instance (priority := low) dispatching_of_open : discipline.Dispatching where
  unchecked {template instruction machine env} unchecked _ sound := by
    suffices acts : Exec.Obeys discipline (Exec.act template instruction : Exec σ Unit) from
      acts.obeys env sound machine
    cases instruction with
    | createClass | setNamed => unfold Exec.act; dsimp only; infer_instance
    | defineGlobal name source =>
        unfold Exec.act
        dsimp only
        refine .bind inferInstance fun name => .bind inferInstance fun value =>
          .pointwise fun machine => ⟨_, Exec.obeys_defineGlobal name (.plain value), fun _ => rfl⟩
    | _ => exact unchecked.elim

end Discipline
end ScriptVM

/-!
### Evolutions

Many disciplines only say how a machine comes from an earlier one, while something holds of
both. Such a discipline is closed. It may end at some machines, and nothing is said of what
comes after them; then the watch has to pick them.
-/

namespace ScriptVM

variable {σ α β : Type}

/-- How machines go on while something holds of them. -/
structure Evolution (σ : Type) where
  holds : Machine σ -> Prop
  leads : Machine σ -> Machine σ -> Prop
  refl (machine : Machine σ) : holds machine -> leads machine machine
  trans {first second third : Machine σ} :
    leads first second -> leads second third -> leads first third
  /-- Machines of which nothing is said. -/
  ends (machine : Machine σ) : Prop := False
  settles (promise : ObjectId) : Prop := True
  registers (reaction : Reaction) : Prop := True
  refuses (request : Request) : Prop := False

namespace Evolution

variable {evolution : Evolution σ} {machine before middle after : Machine σ}

/-- What holds goes on to hold. -/
def Passes
    (evolution : Evolution σ)
    (before after : Machine σ) : Prop :=
  evolution.holds before -> evolution.holds after ∧ evolution.leads before after

/-- The machine where a run ends evolves from the first one, and so does what the watch sees
until the evolution ends. -/
def Keeps
    (evolution : Evolution σ)
    (before : Machine σ) : EStateM.Result (Stop σ) (Machine σ) α -> Prop
  | .ok _ after => evolution.Passes before after
  | .error (.thrown _) after => evolution.Passes before after
  | .error .outOfFuel _ => True
  | .error (.interrupted sight) _ =>
      ¬ evolution.ends sight.machine -> evolution.Passes before sight.machine

/-- The discipline that asks for an evolution. -/
def discipline (evolution : Evolution σ) : Discipline σ where
  knows := evolution.holds
  unguarded _ := True
  passes := evolution.Passes
  keeps := evolution.Keeps
  watches watch := ∀ sight : Sight σ, evolution.ends sight.machine -> watch sight = true
  settles := evolution.settles
  registers := evolution.registers
  refuses := evolution.refuses

namespace Passes

theorem refl (machine : Machine σ) : evolution.Passes machine machine :=
  fun holds => ⟨holds, evolution.refl machine holds⟩

theorem trans
    (earlier : evolution.Passes before middle)
    (later : evolution.Passes middle after) :
    evolution.Passes before after := by
  intro holds
  obtain ⟨then_, led⟩ := earlier holds
  obtain ⟨still, leads⟩ := later then_
  exact ⟨still, evolution.trans led leads⟩

end Passes

namespace Keeps

variable {env : Env σ} {start : Machine σ} {result : EStateM.Result (Stop σ) (Machine σ) α}

theorem since
    (passes : evolution.Passes before middle)
    (keeps : evolution.Keeps middle result) :
    evolution.Keeps before result := by
  match result, keeps with
  | .ok _ _, later | .error (.thrown _) _, later => exact passes.trans later
  | .error .outOfFuel _, _ => trivial
  | .error (.interrupted _) _, shown => exact fun goesOn => passes.trans (shown goesOn)

/-- Nothing is asked for where nothing holds. -/
theorem relevant
    (keeps : evolution.holds machine -> evolution.Keeps machine result) :
    evolution.Keeps machine result := by
  match result, keeps with
  | .ok _ _, passes | .error (.thrown _) _, passes => exact fun holds => passes holds holds
  | .error .outOfFuel _, _ => trivial
  | .error (.interrupted _) _, shown => exact fun goesOn holds => shown holds goesOn holds

variable (sound : evolution.discipline.Sound env)
include sound

/-- A change at which the evolution may end. -/
theorem change
    (operation : Machine σ -> α × Machine σ)
    (passes : ¬ evolution.ends (operation machine).2 ->
      evolution.Passes start (operation machine).2) :
    evolution.Keeps start (Exec.change operation env machine) := by
  unfold Exec.change
  dsimp only
  split
  · exact passes
  · next unpicked => exact passes fun ends => unpicked (sound.watches _ ends)

/-- A change in the middle of a computation that is looked at as a whole. -/
theorem changeThen
    (operation : Machine σ -> α × Machine σ)
    {next : α -> Exec σ β}
    (passes : ¬ evolution.ends (operation machine).2 ->
      evolution.Passes start (operation machine).2)
    (later : ¬ evolution.ends (operation machine).2 ->
      evolution.Keeps start (next (operation machine).1 env (operation machine).2)) :
    evolution.Keeps start ((Exec.change operation >>= next) env machine) := by
  by_cases picked : env.watch { machine := (operation machine).2 } = true
  · have ran : Exec.change operation env machine =
        .error (.interrupted { machine := (operation machine).2 }) (operation machine).2 := by
      unfold Exec.change
      dsimp only
      rw [if_pos picked]
    rw [Exec.bind_of_error next ran]
    exact passes
  · have ran : Exec.change operation env machine =
        .ok (operation machine).1 (operation machine).2 := by
      unfold Exec.change
      dsimp only
      rw [if_neg picked]
    rw [Exec.bind_of_ok next ran]
    exact later fun ends => picked (sound.watches _ ends)

/-- What obeys, in the middle of a computation that is looked at as a whole. -/
theorem bindThen
    {first : Exec σ α}
    {next : α -> Exec σ β}
    (passes : evolution.Passes start machine)
    (obedient : Exec.Obeys evolution.discipline first)
    (later : ∀ answer after, evolution.Passes machine after ->
      evolution.Keeps start (next answer env after)) :
    evolution.Keeps start ((first >>= next) env machine) := by
  have kept : evolution.Keeps machine (first env machine) := obedient.obeys env sound machine
  cases ran : first env machine with
  | ok answer after =>
      rw [Exec.bind_of_ok next ran]
      rw [ran] at kept
      exact later answer after kept
  | error stop after =>
      rw [Exec.bind_of_error next ran]
      rw [ran] at kept
      cases stop with
      | thrown exception => exact passes.trans kept
      | outOfFuel => trivial
      | interrupted sight => exact fun goesOn => passes.trans (kept goesOn)

end Keeps

instance closed_discipline (evolution : Evolution σ) : evolution.discipline.Closed where
  refl := Passes.refl
  trans := Passes.trans
  relevant := .relevant
  settles _ passes := passes
  throws _ passes := passes
  shows passes _ := passes
  stops _ _ := trivial
  resume passes keeps := .since passes keeps
  interrupts _ _ shown := shown
  catches _ passes := passes

/-- A change only matters where something holds. -/
theorem known (passes : evolution.holds before -> evolution.Passes before after) :
    evolution.Passes before after :=
  fun holds => passes holds holds

end Evolution
end ScriptVM

/-!
## Evolutions of promises

For an evolution that lets everything pass that leaves promises aside it is enough to look at
what is done to promises, at the jobs that are queued and taken, and at what an embedder does.
-/

namespace ScriptVM

variable {σ α : Type}

/-! ## Jobs -/

/-- A reaction to a settlement. -/
def Job.isReaction : Job σ -> Bool
  | .reaction .. => true
  | .resolveThenable .. | .host _ => false

namespace Machine

variable {before after machine : Machine σ} {refused : Request -> Prop}

/-- What was avoided is avoided while no program of the embedder is added. -/
theorem Avoids.mono
    (avoids : before.Avoids refused)
    (hosts : after.hosts = before.hosts)
    (tasks : after.jobs.tasks.jobs ⊆ before.jobs.tasks.jobs)
    (microtasks : ∀ body, Job.host body ∈ after.jobs.microtasks.jobs ->
      Job.host body ∈ before.jobs.microtasks.jobs) :
    after.Avoids refused where
  hosts body member := avoids.hosts body (hosts ▸ member)
  tasks task member := avoids.tasks task (tasks member)
  microtasks body member := avoids.microtasks body (microtasks body member)

theorem Avoids.same
    (avoids : before.Avoids refused)
    (hosts : after.hosts = before.hosts)
    (jobs : after.jobs = before.jobs) :
    after.Avoids refused :=
  avoids.mono hosts (by rw [jobs]; exact List.Subset.refl _) fun _ member => jobs ▸ member

/-- The jobs that a change of one promise queues are no programs of the embedder. -/
theorem Rewrites.avoids
    {promise : ObjectId}
    {record : PromiseRecord Value Reaction}
    {jobs : List (Job σ)}
    (rewrites : before.Rewrites after promise record jobs)
    (reactions : ∀ job ∈ jobs, job.isReaction = true)
    (avoids : before.Avoids refused) :
    after.Avoids refused := by
  refine avoids.mono rewrites.hosts (by rw [rewrites.tasks]; exact List.Subset.refl _)
    fun body member => ?_
  rw [rewrites.microtasks] at member
  rcases List.mem_append.1 member with old | new
  · exact old
  · cases reactions _ new

end Machine

/-- What is reported after a checkpoint leaves promises aside. -/
theorem Machine.aside_checkpointFinished
    {machine : Machine σ}
    (tidy : machine.heap.Tidy)
    (env : Env σ) :
    machine.Aside ((scheduler env).checkpointFinished machine) := by
  unfold scheduler
  dsimp only
  split <;> exact .beside tidy rfl (.refl machine.cells) rfl rfl

/-! ## Lawful evolutions -/

namespace Evolution

/-- An evolution that lets changes pass that leave promises aside, and the changes of the
promises that operations settle. -/
class Lawful (evolution : Evolution σ) : Prop where
  tidy {machine : Machine σ} : evolution.holds machine -> machine.heap.Tidy
  quiet {before after : Machine σ} : before.Still after -> evolution.Passes before after
  /-- The rejections that were reported are handed out. -/
  takeUnhandled (machine : Machine σ) :
    evolution.Passes machine machine.takeUnhandled.2
  fresh {machine : Machine σ} :
    evolution.holds machine -> evolution.settles machine.heap.nextId
  allocatePromise (machine : Machine σ) (prototype : ObjectId) :
    evolution.Passes machine (machine.allocatePromise prototype).2
  settlePromise (machine : Machine σ) {promise : ObjectId} (settlement : Settlement)
    (value : Value) : evolution.settles promise ->
    evolution.Passes machine (machine.settlePromise promise settlement value).2
  registerReaction (machine : Machine σ) (promise : ObjectId) {reaction : Reaction} :
    evolution.registers reaction ->
    evolution.Passes machine (machine.registerReaction promise reaction).2
  registers {reaction : Reaction} :
    (∀ promise, reaction.capability = some promise -> evolution.settles promise) ->
    (∀ settlement coroutine, reaction.handler settlement ≠ .asyncResume coroutine) ->
    evolution.registers reaction
  adopt (machine : Machine σ) {promise : ObjectId} (thenable thenMethod : Value) :
    evolution.settles promise ->
    evolution.Passes machine
      (machine.submitJob (.resolveThenable promise thenable thenMethod))
  createResolvingFunctions (machine : Machine σ) {promise : ObjectId} :
    evolution.settles promise ->
    evolution.Passes machine (machine.createResolvingFunctions promise).2
  createElement (machine : Machine σ) (index : Nat) (aggregate : AggregateId)
    {capability : ObjectId} (settlement : Settlement) :
    evolution.settles capability ->
    evolution.Passes machine (machine.createNative
      { name := "",
        behavior := .combinatorElement index aggregate capability settlement } 1).2
  addAggregate (machine : Machine σ) (kind : CombinatorKind) :
    evolution.Passes machine
      { machine with cells := (machine.cells.addAggregate kind).2 }
  updateAggregate {α : Type} (machine : Machine σ) (id : AggregateId) (fallback : α)
    (operation : Aggregate Value -> α × Aggregate Value) :
    evolution.Passes machine
      { machine with cells := (machine.cells.updateAggregate id fallback operation).2 }

section

variable {evolution : Evolution σ} [lawful : evolution.Lawful] {machine : Machine σ} {env : Env σ}

theorem passes_beside
    {after : Machine σ}
    (heap : after.heap = machine.heap)
    (shared : machine.cells.KeepsShared after.cells)
    (jobs : after.jobs = machine.jobs)
    (hosts : after.hosts = machine.hosts)
    (rejections : after.rejections = machine.rejections)
    (unhandled : after.unhandled = machine.unhandled)
    (config : after.config = machine.config)
    (journal : after.journal = machine.journal) :
    evolution.Passes machine after :=
  known fun holds => lawful.quiet
    ⟨.beside (lawful.tidy holds) heap shared jobs hosts, rejections, unhandled, config, journal⟩

theorem passes_guarded
    {unguarded : ObjectId -> Prop}
    {heap : Heap ObjectKind}
    (change : GuardedChange unguarded machine.heap heap) :
    evolution.Passes machine { machine with heap } :=
  known fun holds => lawful.quiet ⟨change.aside (lawful.tidy holds), rfl, rfl, rfl, rfl⟩

theorem passes_defineRaw (id : ObjectId) (key : PropertyKey) (property : Property) :
    evolution.Passes machine (machine.defineRaw id key property) :=
  known fun holds => lawful.quiet
    ⟨.ofHeap ((lawful.tidy holds).define id key property)
      (fun other _ _ => by rw [Heap.payload?_define])
      (fun other _ _ present => by rwa [Heap.payload?_define] at present), rfl, rfl, rfl, rfl⟩

theorem passes_allocate
    (prototype : Option ObjectId)
    {kind : ObjectKind}
    (harmless : ¬ kind.Matters)
    (wraps : ∀ target handler, kind = .proxy target handler ->
      target.isObject = true ∧ handler.isObject = true) :
    evolution.Passes machine (machine.allocate prototype kind).2 :=
  known fun holds =>
    lawful.quiet ⟨(Machine.Adds.allocate (lawful.tidy holds) prototype kind).aside harmless wraps,
      rfl, rfl, rfl, rfl⟩

instance : evolution.discipline.Lawful where
  next _ _ := trivial
  fresh _ := lawful.fresh
  known := known
  heap _ _ change := passes_guarded change
  allocate _ prototype _ inert := passes_allocate prototype inert.harmless_of inert.wraps
  cells _ _ _ shared := passes_beside rfl shared rfl rfl rfl rfl rfl rfl
  symbols machine _ := passes_beside rfl (.refl machine.cells) rfl rfl rfl rfl rfl rfl
  takeUnhandled := lawful.takeUnhandled
  withNativeDepth obeys :=
    have deeper : ∀ (machine : Machine σ) (nativeDepth : Nat),
        evolution.Passes machine { machine with nativeDepth } :=
      fun machine _ => passes_beside rfl (.refl machine.cells) rfl rfl rfl rfl rfl rfl
    Exec.obeys_withNativeDepth_of deeper obeys
  allocatePromise := lawful.allocatePromise
  settlePromise := lawful.settlePromise
  registerReaction := lawful.registerReaction
  registers := lawful.registers
  adopt := lawful.adopt
  createResolvingFunctions := lawful.createResolvingFunctions
  createElement := lawful.createElement
  addAggregate := lawful.addAggregate
  updateAggregate := lawful.updateAggregate

instance : evolution.discipline.Open where
  beside _ _ _ _ _ shared := passes_beside rfl shared rfl rfl rfl rfl rfl rfl
  allocateFunction _ prototype _ :=
    passes_allocate prototype id fun _ _ => ObjectKind.noConfusion
  uses machine _ _ := Passes.refl machine
  pauses machine _ := Passes.refl machine
  strays machine _ _ _ := Passes.refl machine
  free _ := trivial
  setValueAt machine id offset value := known fun holds => lawful.quiet
    ⟨.ofHeap ((lawful.tidy holds).modify id _)
      (fun other _ _ => by rw [Heap.payload?_setValueAt])
      (fun other _ _ present => by rwa [Heap.payload?_setValueAt] at present), rfl, rfl, rfl, rfl⟩
  defineGlobal _ _ property := passes_defineRaw _ _ property

/-- A native call evolves if what it does evolves at any depth. -/
theorem keeps_withNativeDepth
    {computation : Exec σ α}
    (sound : evolution.discipline.Sound env)
    (inner : ∀ nativeDepth, evolution.Keeps { machine with nativeDepth }
      (computation env { machine with nativeDepth })) :
    evolution.Keeps machine (Exec.withNativeDepth computation env machine) := by
  have deeper : ∀ (machine : Machine σ) (nativeDepth : Nat),
      evolution.Passes machine { machine with nativeDepth } :=
    fun machine _ => passes_beside rfl (.refl machine.cells) rfl rfl rfl rfl rfl rfl
  have leaves : Exec.Obeys evolution.discipline (Exec.update fun machine =>
      { machine with nativeDepth := machine.nativeDepth - 1 } : Exec σ Unit) :=
    .update _ fun machine => deeper machine _
  have ends : ∀ outcome, Exec.Obeys evolution.discipline (do
      Exec.update fun machine => { machine with nativeDepth := machine.nativeDepth - 1 }
      Exec.ofExcept outcome : Exec σ α) := fun _ => inferInstance
  have enters : Exec.Obeys evolution.discipline (Exec.update fun machine =>
      { machine with nativeDepth := machine.nativeDepth + 1 } : Exec σ Unit) :=
    .update _ fun machine => deeper machine _
  have rest : evolution.discipline.keeps machine ((do
      Exec.update fun machine => { machine with nativeDepth := machine.nativeDepth + 1 }
      let outcome <- Exec.attempt computation
      Exec.update fun machine => { machine with nativeDepth := machine.nativeDepth - 1 }
      Exec.ofExcept outcome : Exec σ α) env machine) := by
    refine Discipline.keeps_bind (enters.obeys env sound machine) fun _ middle entered => ?_
    cases Exec.eq_of_change entered
    exact Discipline.keeps_bind (Discipline.keeps_attempt (inner _)) fun outcome last _ =>
      (ends outcome).obeys env sound last
  unfold Exec.withNativeDepth
  rw [Exec.ask_bind]
  split
  · exact Passes.refl machine
  · exact rest

/-- Where all promises may be settled, functions that settle them evolve. -/
theorem keeps_settler_of_forall
    {behavior : NativeBehavior}
    {promise : ObjectId}
    (all : ∀ promise, evolution.settles promise)
    (uses : ∀ (machine : Machine σ) (latch : LatchId), evolution.Passes machine
      { machine with cells := (machine.cells.setLatch latch).2 })
    (settles : behavior.settles? = some promise)
    (sound : evolution.discipline.Sound env)
    (receiver : Value)
    (arguments : List Value) :
    evolution.Keeps machine
      (Exec.withNativeDepth (Exec.runNative behavior receiver arguments) env machine) := by
  have settling : evolution.discipline.Settling promise := ⟨all promise⟩
  have runs : Exec.Obeys evolution.discipline (Exec.runNative behavior receiver arguments) :=
    Exec.obeys_runSettler settles (fun latch _ _ machine => uses machine latch) receiver arguments
  exact (Exec.obeys_withNativeDepth _).obeys env sound machine

/-- So do the jobs of the machine itself. -/
theorem keeps_work_of_forall
    [evolution.discipline.Parking]
    {job : Job σ}
    {jobs : EventLoop (Job σ) (HostProgram σ)}
    (all : ∀ promise, evolution.settles promise)
    (takes : evolution.Passes machine ({ machine with jobs }.note (.started job)))
    (inner : ∀ body, job ≠ .host body)
    (sound : evolution.discipline.Sound env) :
    evolution.Keeps machine ((do
      Exec.note (.started job)
      Exec.runJob job : Exec σ Unit) env { machine with jobs }) :=
  Discipline.keeps_microtask takes
    (Exec.obeys_runJob_of_inner inner (fun promise _ => all promise) fun _ _ _ _ _ =>
      ⟨fun _ sound _ => Exec.keeps_resumeAsync sound (fun _ promise _ _ => all promise) _ _⟩) sound

end

/-- An evolution that allows what an embedder does, and the jobs and the functions that settle
promises. -/
class Hosted (evolution : Evolution σ) : Prop extends evolution.Lawful where
  avoids {machine : Machine σ} : evolution.holds machine -> machine.Avoids evolution.refuses
  pushHost (machine : Machine σ) (body : HostFunction σ) :
    (∀ receiver arguments, (body receiver arguments).Avoids evolution.refuses) ->
    evolution.Passes machine { machine with hosts := machine.hosts.push body }
  enqueueTask (machine : Machine σ) {task : HostProgram σ} : task.Avoids evolution.refuses ->
    evolution.Passes machine { machine with jobs := machine.jobs.enqueueTask task }
  enqueueMicrotask (machine : Machine σ) {body : HostProgram σ} :
    body.Avoids evolution.refuses -> evolution.Passes machine (machine.submitJob (.host body))
  /-- Tasks may leave their queue, and checkpoints may begin and end. -/
  reschedule (machine : Machine σ) (jobs : EventLoop (Job σ) (HostProgram σ)) :
    jobs.tasks.jobs ⊆ machine.jobs.tasks.jobs -> jobs.microtasks = machine.jobs.microtasks ->
    evolution.Passes machine { machine with jobs }
  /-- A checkpoint emptied the queue of microtasks. -/
  finish (env : Env σ) (machine : Machine σ) : machine.jobs.microtasks.jobs = [] ->
    evolution.Passes machine ((Machine.scheduler env).checkpointFinished machine)
  /-- A program of the embedder leaves the queue of microtasks to be run. -/
  takeMicrotask (machine : Machine σ) {body : HostProgram σ}
    {jobs : EventLoop (Job σ) (HostProgram σ)} :
    machine.jobs.nextMicrotask? = some (.host body, jobs) ->
    evolution.Passes machine ({ machine with jobs }.note (.started (.host body)))
  /-- A job of the machine itself is taken and run. -/
  works {machine : Machine σ} {job : Job σ} {jobs : EventLoop (Job σ) (HostProgram σ)}
    {env : Env σ} :
    evolution.holds machine -> machine.jobs.nextMicrotask? = some (job, jobs) ->
    (∀ body, job ≠ .host body) -> evolution.discipline.Sound env ->
    evolution.Keeps machine ((do
      Exec.note (.started job)
      Exec.runJob job : Exec σ Unit) env { machine with jobs })
  /-- A native function that settles a promise is called. -/
  settlers {machine : Machine σ} {id : ObjectId} {function : NativeFunction}
    {promise : ObjectId} {env : Env σ} (receiver : Value) (arguments : List Value) :
    evolution.holds machine -> machine.kind? id = some (.native function) ->
    function.behavior.settles? = some promise -> evolution.discipline.Sound env ->
    evolution.Keeps machine
      (Exec.withNativeDepth (Exec.runNative function.behavior receiver arguments) env machine)
  resolves {promise value : Value} {id : ObjectId} :
    ¬ evolution.refuses (.resolvePromise promise value) -> promise.objectId? = some id ->
    evolution.settles id
  rejects {promise reason : Value} {id : ObjectId} :
    ¬ evolution.refuses (.rejectPromise promise reason) -> promise.objectId? = some id ->
    evolution.settles id
  discards (machine : Machine σ) : ¬ evolution.refuses .discardJobs ->
    evolution.Passes machine { machine with jobs := machine.jobs.discard.2 }
  collects (kept : List Value) : ¬ evolution.refuses (.collectGarbage kept) ->
    evolution.discipline.obeys (Exec.change fun machine => machine.collectGarbage kept)

instance hosting_discipline
    (evolution : Evolution σ)
    [hosted : evolution.Hosted]
    [resuming : evolution.discipline.Resuming] :
    evolution.discipline.Hosting where
  spares _ :=
    { hosts _ _ _ _ := HostProgram.spares_of_forall (fun _ => id) _
      tasks _ _ := HostProgram.spares_of_forall (fun _ => id) _
      microtasks _ _ := HostProgram.spares_of_forall (fun _ => id) _ }
  avoids := hosted.avoids
  setWorld machine _ := passes_beside rfl (.refl machine.cells) rfl rfl rfl rfl rfl rfl
  pushHost machine body permits :=
    hosted.pushHost machine body fun receiver arguments => (permits receiver arguments).avoids
  enqueueTask machine _ permits := hosted.enqueueTask machine permits.avoids
  enqueueMicrotask machine _ permits := hosted.enqueueMicrotask machine permits.avoids
  reschedule := hosted.reschedule
  finish := hosted.finish
  takeMicrotask := hosted.takeMicrotask
  works := hosted.works
  settlers := hosted.settlers
  setGlobal _ _ _ _ := passes_defineRaw _ _ _
  resolves := hosted.resolves
  rejects := hosted.rejects
  discards := hosted.discards
  collects := hosted.collects

end Evolution

/-! ## New machines -/

/-- There are no promises, no coroutines and no functions that settle promises. -/
def Machine.Plain (machine : Machine σ) : Prop :=
  ∀ id kind, machine.kind? id = some kind -> ¬ kind.Matters

theorem Machine.plain_onHeap
    (intrinsics : Intrinsics)
    (config : Config)
    (world : σ)
    {heap : Heap ObjectKind}
    (plain : (heap.objects.toList.all fun slot =>
      slot.all fun object => !decide object.payload.Matters) = true) :
    (onHeap heap intrinsics config world).Plain := by
  intro id kind present
  obtain ⟨object, live, rfl⟩ := Option.map_eq_some_iff.1 present
  have member := Array.mem_of_getElem? (Option.join_eq_some_iff.1 live)
  have harmless := List.all_eq_true.1 plain _ (Array.mem_toList_iff.2 member)
  simpa using harmless

namespace Builtins

theorem initialHeap_plain :
    (initialHeap.2.objects.toList.all fun slot =>
      slot.all fun object => !decide object.payload.Matters) = true := by
  decide +kernel

theorem newMachine_plain (config : Config) (world : σ) :
    (newMachine config world).Plain :=
  Machine.plain_onHeap initialHeap.1 config world initialHeap_plain

theorem newMachine_tidy (config : Config) (world : σ) :
    (newMachine config world).heap.Tidy :=
  (Machine.Settled.new config world).reached.tidy

theorem newMachine_avoids (refused : Request -> Prop) (config : Config) (world : σ) :
    (newMachine config world).Avoids refused where
  hosts _ member := absurd member (Array.not_mem_empty _)
  tasks _ member := nomatch member
  microtasks _ member := nomatch member

end Builtins

/-! ## Embedders that avoid requests -/

/-- What becomes of a machine while its embedder runs programs that do not ask for what is
refused. -/
inductive Machine.LeadsWithout
    (refused : Request -> Prop)
    (start : Machine σ) : Machine σ -> Prop
  | start : LeadsWithout refused start start
  | returned {before after : Machine σ} {fuel : Nat} {program : HostProgram σ} {value : Value} :
      start.LeadsWithout refused before -> program.Avoids refused ->
      before.runWithin fuel program = .ok value after -> start.LeadsWithout refused after
  | threw {before after : Machine σ} {fuel : Nat} {program : HostProgram σ}
      {exception : Exception} :
      start.LeadsWithout refused before -> program.Avoids refused ->
      before.runWithin fuel program = .error (.thrown exception) after ->
      start.LeadsWithout refused after

/-- What such an embedder can come across. -/
inductive Sight.SeenWithout
    (refused : Request -> Prop)
    (start : Machine σ) : Sight σ -> Prop
  | between {machine : Machine σ} :
      start.LeadsWithout refused machine -> SeenWithout refused start { machine }
  /-- In the middle of a host program. -/
  | during {before after : Machine σ} {fuel : Nat} {program : HostProgram σ}
      {watch : Sight σ -> Bool} {sight : Sight σ} :
      start.LeadsWithout refused before -> program.Avoids refused ->
      Exec.runProgram program (Env.watched fuel watch) before =
        .error (.interrupted sight) after ->
      SeenWithout refused start sight

section

variable {refused : Request -> Prop} {start : Machine σ} {program : HostProgram σ} {fuel : Nat}
variable (avoids : program.Avoids refused)
include avoids

theorem Machine.leadsWithout_of_ofRun?
    {after : Machine σ}
    (ended : after ∈ Machine.ofRun? (start.runWithin fuel program)) :
    start.LeadsWithout refused after := by
  cases ran : start.runWithin fuel program with
  | ok value last =>
      rw [ran] at ended
      cases ended
      exact .returned .start avoids ran
  | error stop last =>
      rw [ran] at ended
      cases ended

/-- What a run is interrupted at is seen by the embedder. -/
theorem Sight.seenWithout_of_ofRun?
    {watch : Sight σ -> Bool}
    {sight : Sight σ}
    (interrupted : sight ∈ Sight.ofRun?
      (Exec.runProgram program (Env.watched fuel watch) start)) :
    sight.SeenWithout refused start := by
  cases ran : Exec.runProgram program (Env.watched fuel watch) start with
  | ok answer after =>
      rw [ran] at interrupted
      cases interrupted
  | error stop after =>
      rw [ran] at interrupted
      cases stop with
      | interrupted seen =>
          cases interrupted
          exact .during .start avoids ran
      | _ => cases interrupted

end

namespace Evolution

variable {evolution : Evolution σ} [hosting : evolution.discipline.Hosting]
  {start machine : Machine σ}

/-- An evolution that does not end goes on from program to program. -/
theorem passes_leadsWithout
    (endless : ∀ machine, ¬ evolution.ends machine)
    (leads : start.LeadsWithout evolution.refuses machine) :
    evolution.Passes start machine := by
  have sound : ∀ fuel, evolution.discipline.Sound (Env.ofFuel fuel) :=
    Discipline.sound_hosting fun sight ended => absurd ended (endless sight.machine)
  induction leads with
  | start => exact .refl start
  | @returned before after fuel program answer _ avoids ran earlier
  | @threw before after fuel program answer _ avoids ran earlier =>
      have permits : evolution.discipline.Permits program :=
        ⟨HostProgram.spares_of_forall (fun _ => id) _, avoids⟩
      have kept := (Exec.obeys_runProgram program permits).obeys _ (sound fuel) before
      rw [show Exec.runProgram program (Env.ofFuel fuel) before = _ from ran] at kept
      exact earlier.trans kept

/-- So it goes on to everything that is seen on the way. -/
theorem passes_seenWithout
    (endless : ∀ machine, ¬ evolution.ends machine)
    {sight : Sight σ}
    (seen : sight.SeenWithout evolution.refuses start) :
    evolution.Passes start sight.machine := by
  cases seen with
  | between leads => exact passes_leadsWithout endless leads
  | @during before after fuel program watch _ leads avoids ran =>
      have permits : evolution.discipline.Permits program :=
        ⟨HostProgram.spares_of_forall (fun _ => id) _, avoids⟩
      have sound : evolution.discipline.Sound (Env.watched fuel watch) :=
        Discipline.sound_hosting (fun sight ended => absurd ended (endless sight.machine)) fuel
      have kept := (Exec.obeys_runProgram program permits).obeys _ sound before
      rw [ran] at kept
      exact (passes_leadsWithout endless leads).trans (kept (endless sight.machine))

end Evolution
end ScriptVM

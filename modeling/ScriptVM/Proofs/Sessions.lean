import ScriptVM.Proofs.Discipline.Operations
import ScriptVM.Proofs.Soundness.Calls
import ScriptVM.Proofs.Soundness.Install

/-!
# Sound runs and sessions of careful embedders

Draining the queues is sound, since all that waits there is. So every invocation is, by
induction on the fuel, and the same goes for every program of a careful embedder.

The whole session of an embedder with a new machine is one program, which asks for one thing
after the other and chooses the next one by the answers. If the program is careful, the machine
is consistent at every moment of the session.
-/

namespace ScriptVM

variable {σ : Type} {collects : Bool} {machine : Machine σ}
variable {jobs : EventLoop (Job σ) (HostProgram σ)}

open Machine Exec

/-! ## Jobs -/

namespace Exec

variable [consistent : machine.Consistent collects]

instance (handler : Handler) (settlement : Settlement) (argument : Value) [plain : handler.Plain]
    [vouched : machine.Vouches handler] [machine.Vouches argument] :
    Sound collects machine (runHandler handler settlement argument :
      Exec σ (Option (Except Exception Value))) := by
  unfold runHandler
  cases handler with
  | identity => infer_instance
  | thrower => infer_instance
  | callable function =>
      have := vouches_callable_iff.1 vouched
      infer_instance
  | asyncResume coroutine => exact absurd rfl (plain.plain coroutine)

/-- A microtask of the machine itself that resumes no async function. -/
theorem sound_runJob
    (job : Job σ)
    (own : ∀ body, job ≠ .host body)
    (plain : ∀ coroutine, ¬ job.Resumes coroutine)
    [vouched : machine.Vouches job] :
    Sound collects machine (runJob job : Exec σ Unit) := by
  cases job with
  | host body => exact absurd rfl (own body)
  | resolveThenable promise thenable thenMethod =>
      obtain ⟨_, _, _⟩ := vouches_thenableJob_iff.1 vouched
      unfold runJob
      infer_instance
  | reaction handler capability settlement argument =>
      obtain ⟨_, _, _⟩ := vouches_reactionJob_iff.1 vouched
      have : handler.Plain :=
        ⟨fun coroutine same => plain coroutine ⟨_, _, _, congrArg (Job.reaction · _ _ _) same⟩⟩
      unfold runJob
      refine .bind inferInstance fun outcome after _ later given => ?_
      have derives : after.Vouches (capability.map PromiseHandle.mk) := inferInstance
      split
      · infer_instance
      · infer_instance
      · next value derived _ =>
          have : after.Vouches (PromiseHandle.mk derived) := vouches_some.1 derives
          have : after.Vouches value := vouches_ok.1 (vouches_some.1 given)
          infer_instance
      · next exception derived _ =>
          have : after.Vouches (PromiseHandle.mk derived) := vouches_some.1 derives
          have : after.Vouches exception := vouches_error.1 (vouches_some.1 given)
          infer_instance

omit consistent in
/-- A microtask that resumes an async function does nothing else. -/
theorem runJob_resumption
    (coroutine : ObjectId)
    (capability : Option ObjectId)
    (settlement : Settlement)
    (argument : Value) :
    (runJob (.reaction (.asyncResume coroutine) capability settlement argument) : Exec σ Unit) =
      resumeAsync coroutine settlement argument := by
  unfold runJob runHandler
  simp only [bind_assoc, pure_bind]
  exact bind_pure_unit

/-- A microtask that resumes an async function. -/
theorem drives_runJob
    {job : Job σ}
    {coroutine : ObjectId}
    (resumes : job.Resumes coroutine)
    (held : machine.InHand coroutine (.suspendedYield, true))
    [vouched : machine.Vouches job] :
    Drives collects coroutine machine (runJob job : Exec σ Unit) fun _ _ => True := by
  obtain ⟨capability, settlement, argument, rfl⟩ := resumes
  obtain ⟨_, _, _⟩ := vouches_reactionJob_iff.1 vouched
  rw [runJob_resumption]
  exact drives_resumeAsync coroutine settlement argument held

/-- A microtask that resumes no async function, whoever queued it. -/
theorem ensures_runJob
    (job : Job σ)
    (spare : ∀ body, job = .host body -> body.Spare collects)
    (plain : ∀ coroutine, ¬ job.Resumes coroutine)
    [machine.Vouches job] :
    Ensures collects (Spares collects machine) machine (runJob job : Exec σ Unit)
      fun _ _ => True := by
  by_cases host : ∃ body, job = .host body
  · obtain ⟨body, rfl⟩ := host
    have runs := ensures_runProgram body machine consistent (spare body rfl).1
      fun item member => by cases member
    refine .bind (runs.weaken (fun spares => ?_) fun _ _ _ _ held => held)
      fun _ after _ _ _ => .pure () trivial
    exact spares.symm.imp_right fun quiet => ⟨quiet, (spare body rfl).2 quiet⟩
  · exact (sound_runJob job (fun body same => host ⟨body, same⟩) plain).ensures.weaken
      (fun _ => trivial) fun _ _ _ _ _ => trivial

theorem ensures_runTask (task : HostProgram σ) (spare : task.Spare collects) :
    Ensures collects (Spares collects machine) machine (runProgram task : Exec σ Value)
      fun _ _ => True :=
  (ensures_runProgram task machine consistent spare.1 fun item member => by cases member).weaken
    (fun spares => spares.symm.imp_right fun quiet => ⟨quiet, spare.2 quiet⟩)
    fun _ _ _ _ _ => trivial

end Exec

/-! ## Queues -/

/-- Jobs may leave the queues. -/
theorem Machine.sustains_jobs
    [consistent : machine.Consistent collects]
    (tasks : jobs.tasks.jobs ⊆ machine.jobs.tasks.jobs)
    (microtasks : jobs.microtasks.jobs ⊆ machine.jobs.microtasks.jobs)
    (carries : machine.CarriesOver { machine with jobs }) :
    machine.Sustains collects { machine with jobs } := by
  have queued : machine.Vouches jobs.microtasks.jobs :=
    @Vouches.of_subset _ _ _ _ _ _ microtasks consistent.microtasks
  exact @sustains_tables _ _ _ consistent _ rfl rfl rfl rfl rfl
    ⟨consistent.attended.hosts, fun task member => consistent.attended.tasks task (tasks member),
      fun body member => consistent.attended.microtasks body (microtasks member)⟩ carries
    queued consistent.rejections consistent.unhandled

/-- The next microtask leaves the queue to be run. -/
theorem Machine.sustains_taken
    [consistent : machine.Consistent collects]
    {job : Job σ}
    (taken : machine.jobs.nextMicrotask? = some (job, jobs)) :
    machine.Sustains collects ({ machine with jobs }.note (.started job)) ∧
      ({ machine with jobs }.note (.started job)).Vouches job := by
  obtain ⟨tasks, microtasks⟩ := EventLoop.nextMicrotask?_spec taken
  have queued : job ∈ machine.jobs.microtasks.jobs := microtasks ▸ .head _
  have taking : machine.Sustains collects { machine with jobs } :=
    sustains_jobs (by rw [tasks]; exact fun _ => id) (microtasks ▸ List.subset_cons_self job _)
      (.of_taken microtasks)
  have := taking.consistent
  have starts := taking.trans (sustains_note (.started job))
  exact ⟨starts, starts.later.vouches (vouches_list.1 consistent.microtasks job queued)⟩

/-! ## Draining -/

namespace Exec

variable [consistent : machine.Consistent collects]

omit consistent in
/-- The watch sees the machine before a job runs. -/
theorem ensures_updateThen
    {α : Type}
    {carries : Prop}
    (operation : Machine σ -> Machine σ)
    {computation : Exec σ α}
    (sustains : machine.Sustains collects (operation machine))
    (ensures : Ensures collects carries (operation machine) computation fun _ _ => True) :
    Ensures collects carries machine
      (do
        update operation
        computation) fun _ _ => True := by
  have changes : Ensures collects carries machine (update operation) fun after _ =>
      after = operation machine := .update _ sustains rfl
  refine .bind changes fun _ after _ _ same => ?_
  rw [same]
  exact ensures

end Exec

section

variable {env : Env σ} {carries : Prop}

/-- An error stands, whatever else is done to the machine. -/
theorem Machine.Keeps.errorAfter
    {α β : Type}
    {holds : Machine σ -> α -> Prop}
    {wants : Machine σ -> β -> Prop}
    {stop : Stop σ}
    {middle after : Machine σ}
    (keeps : machine.Keeps collects env.watch carries holds (.error stop middle))
    (sustains : middle.Consistent collects -> middle.Sustains collects after) :
    machine.Keeps collects env.watch carries wants (.error stop after) := by
  cases stop with
  | thrown exception =>
      obtain ⟨follows, vouched⟩ := keeps
      have changes := sustains follows.consistent
      exact ⟨follows.trans (.of_sustains changes), changes.later.vouches vouched⟩
  | outOfFuel => trivial
  | interrupted sight => exact keeps

variable (sound : env.Sound collects)
include sound

/-- A microtask leaves the queue and runs. -/
theorem keeps_takeMicrotask
    {job : Job σ}
    {jobs : EventLoop (Job σ) (HostProgram σ)}
    (taken : machine.jobs.nextMicrotask? = some (job, jobs))
    [consistent : machine.Consistent collects] :
    machine.Keeps collects env.watch (Spares collects machine) (fun _ _ => True)
      ((Machine.scheduler env).runMicrotask job { machine with jobs }) := by
  obtain ⟨_, microtasks⟩ := EventLoop.nextMicrotask?_spec taken
  have queued : job ∈ machine.jobs.microtasks.jobs := microtasks ▸ .head _
  obtain ⟨starts, vouched⟩ := sustains_taken taken
  have := starts.consistent
  let start : Machine σ -> Machine σ := fun machine => { machine with jobs }.note (.started job)
  by_cases resumes : ∃ coroutine, job.Resumes coroutine
  · obtain ⟨coroutine, resumes⟩ := resumes
    obtain ⟨held, apart⟩ := consistent.resumes.inHand_of_taken microtasks resumes
    have takes : Ensures collects True machine (update start) fun after _ =>
        after = start machine := .update _ starts rfl
    have runs : Drives collects coroutine machine (do update start; runJob job)
        fun _ _ => True := by
      refine .after takes fun _ after _ _ same => ?_
      subst same
      exact drives_runJob resumes (held.of_same rfl rfl)
    exact (runs env sound machine (.refl machine) apart).weaken (fun _ => trivial)
      fun _ _ _ _ => trivial
  · have runs : Ensures collects (Spares collects machine)
        ({ machine with jobs }.note (.started job)) (runJob job) fun _ _ => True :=
      ensures_runJob job (fun body same => consistent.attended.microtasks body (same ▸ queued))
        fun coroutine resumed => resumes ⟨coroutine, resumed⟩
    exact ensures_updateThen start starts runs env sound

/-- A task that has left the queue. -/
theorem keeps_runTask
    {task : HostProgram σ}
    [machine.Consistent collects]
    (spare : task.Spare collects) :
    machine.Keeps collects env.watch (Spares collects machine) (fun _ _ => True)
      ((Machine.scheduler env).runTask task machine) := by
  have runs : Ensures collects (Spares collects machine) machine
      (do let _ <- runProgram task : Exec σ Unit) fun _ _ => True :=
    .bind (ensures_runTask task spare) fun _ _ _ _ _ => .pure () trivial
  exact ensures_updateThen id (.refl machine) runs env sound

theorem keeps_drain
    (rounds ran : Nat)
    (machine : Machine σ)
    [consistent : machine.Consistent collects] :
    machine.Keeps collects env.watch (Spares collects machine) (fun _ _ => True)
      ((Machine.scheduler env).drain rounds ran machine) := by
  induction rounds generalizing ran machine with
  | zero => trivial
  | succ rounds more =>
      unfold Scheduler.drain
      split
      · exact ⟨.refl machine, trivial⟩
      · next job loop taken =>
          have runs := keeps_takeMicrotask sound
            (show machine.jobs.nextMicrotask? = some (job, loop) from taken)
          split
          · next after settled =>
              have runs := (show _ = EStateM.Result.ok () after from settled) ▸ runs
              have := runs.1.consistent
              exact .since runs.1 ((more (ran + 1) after).weaken
                (fun spares => spares.later (runs.1.later spares)) fun _ _ _ held => held)
          · next stop after settled =>
              have runs := (show _ = EStateM.Result.error stop after from settled) ▸ runs
              exact runs.error

/-- A checkpoint empties the queue of microtasks. -/
theorem keeps_checkpoint
    (rounds : Nat)
    (machine : Machine σ)
    [consistent : machine.Consistent collects] :
    machine.Keeps collects env.watch (Spares collects machine) (fun _ _ => True)
      ((Machine.scheduler env).checkpoint rounds machine) := by
  have close : ∀ (middle : Machine σ) (counted : Bool), middle.Consistent collects ->
      middle.Sustains collects { middle with jobs := middle.jobs.closeCheckpoint counted } :=
    fun middle counted _ => sustains_jobs (fun _ => id) (fun _ => id) (.of_heap rfl fun _ => id)
  unfold Scheduler.checkpoint
  dsimp only
  split
  · exact ⟨.refl machine, trivial⟩
  · have opens : machine.Sustains collects { machine with jobs := machine.jobs.openCheckpoint } :=
      sustains_jobs (fun _ => id) (fun _ => id) (.of_heap rfl fun _ => id)
    have := opens.consistent
    have drained := keeps_drain sound rounds 0 { machine with jobs := machine.jobs.openCheckpoint }
    refine .since (.of_sustains opens) ?_
    split
    · next ran middle settled =>
        have drained := (show _ = EStateM.Result.ok ran middle from settled) ▸ drained
        have closes := close middle (!machine.jobs.microtasks.isEmpty) drained.1.consistent
        have := closes.consistent
        have finishes : Sustains collects
            { middle with jobs := middle.jobs.closeCheckpoint (!machine.jobs.microtasks.isEmpty) }
            ((Machine.scheduler env).checkpointFinished
              { middle with
                jobs := middle.jobs.closeCheckpoint (!machine.jobs.microtasks.isEmpty) }) := by
          unfold Machine.scheduler
          dsimp only
          split
          · have reports : Sustains collects
                { middle with jobs := middle.jobs.closeCheckpoint (!machine.jobs.microtasks.isEmpty) }
                (reportRejections { middle with
                  jobs := middle.jobs.closeCheckpoint (!machine.jobs.microtasks.isEmpty) }) :=
              inferInstance
            have := reports.consistent
            exact reports.trans (sustains_note _)
          · exact sustains_note _
        exact ⟨drained.1.trans (.of_sustains (closes.trans finishes)), trivial⟩
    · next stop middle settled =>
        have drained := (show _ = EStateM.Result.error stop middle from settled) ▸ drained
        exact drained.errorAfter (close middle _)

theorem keeps_runTasks
    (fuel rounds : Nat)
    (machine : Machine σ)
    [consistent : machine.Consistent collects] :
    machine.Keeps collects env.watch (Spares collects machine) (fun _ _ => True)
      ((Machine.scheduler env).runTasks fuel rounds machine) := by
  induction rounds generalizing machine with
  | zero => trivial
  | succ rounds more =>
      unfold Scheduler.runTasks
      split
      · exact ⟨.refl machine, trivial⟩
      · next task loop taken =>
          obtain ⟨microtasks, tasks⟩ := EventLoop.nextTask?_spec
            (show machine.jobs.nextTask? = some (task, loop) from taken)
          have queued : task ∈ machine.jobs.tasks.jobs := tasks ▸ .head _
          have taking : machine.Sustains collects { machine with jobs := loop } :=
            sustains_jobs (tasks ▸ List.subset_cons_self task _)
              (by rw [microtasks]; exact fun _ => id)
              (.of_heap rfl fun _ stands => by rw [← microtasks]; exact stands)
          have := taking.consistent
          have runs : Keeps collects env.watch (Spares collects machine)
              { machine with jobs := loop } (fun _ _ => True)
              ((Machine.scheduler env).runTask task { machine with jobs := loop }) :=
            keeps_runTask sound (consistent.attended.tasks task queued)
          have runs := runs.since (.of_sustains taking)
          split
          · next stop middle settled =>
              have runs := (show _ = EStateM.Result.error stop middle from settled) ▸ runs
              exact runs.error
          · next middle settled =>
              have runs := (show _ = EStateM.Result.ok () middle from settled) ▸ runs
              have := runs.1.consistent
              refine .since runs.1 ?_
              have checked := (keeps_checkpoint sound fuel middle).weaken
                (fun spares : Spares collects machine => spares.later (runs.1.later spares))
                fun _ _ _ held => held
              split
              · next stop last ended =>
                  have checked := (show _ = EStateM.Result.error stop last from ended) ▸ checked
                  exact checked.error
              · next count last ended =>
                  have checked := (show _ = EStateM.Result.ok count last from ended) ▸ checked
                  have := checked.1.consistent
                  exact .since checked.1 ((more last).weaken
                    (fun spares => (spares.later (runs.1.later spares)).later
                      (checked.1.later spares)) fun _ _ _ held => held)

theorem keeps_runUntilIdle
    (fuel : Nat)
    (machine : Machine σ)
    [consistent : machine.Consistent collects] :
    machine.Keeps collects env.watch (Spares collects machine) (fun _ _ => True)
      ((Machine.scheduler env).runUntilIdle fuel machine) := by
  have checked := keeps_checkpoint sound fuel machine
  rw [Scheduler.runUntilIdle_eq]
  cases first : (Machine.scheduler env).checkpoint fuel machine with
  | error stop middle =>
      rw [first] at checked
      exact checked.error
  | ok count middle =>
      rw [first] at checked
      have := checked.1.consistent
      refine .since checked.1 ?_
      have tasks := (keeps_runTasks sound fuel fuel middle).weaken
        (fun spares : Spares collects machine => spares.later (checked.1.later spares))
        fun _ _ _ held => held
      dsimp only
      cases second : (Machine.scheduler env).runTasks fuel fuel middle with
      | error stop last =>
          rw [second] at tasks
          exact tasks.error
      | ok _ last =>
          rw [second] at tasks
          exact ⟨tasks.1, trivial⟩

end

/-! ## Invocations -/

/-- Every invocation is sound, however much fuel there is. -/
theorem Env.sound_watched (watch : Sight σ -> Bool) (fuel : Nat) :
    (Env.watched fuel watch).Sound collects := by
  induction fuel with
  | zero => exact ⟨fun _ _ _ _ => trivial⟩
  | succ fuel sound =>
      refine ⟨fun invocation machine consistent vouched => ?_⟩
      cases invocation with
      | call callee receiver arguments =>
          obtain ⟨_, _⟩ := (vouches_append receiver arguments rfl).1 vouched
          exact (sound_callValue callee receiver arguments).ensures _ sound
      | construct callee arguments newTarget =>
          obtain ⟨both, _⟩ := (vouches_append (callee, arguments) newTarget
            rfl).1 vouched
          obtain ⟨_, _⟩ := vouches_pair.1 both
          exact (sound_constructValue callee arguments newTarget).ensures _ sound
      | get id key receiver =>
          have : machine.Vouches receiver := ⟨vouched.accepts⟩
          exact (sound_getWithReceiver id key receiver).ensures _ sound
      | set id key value receiver =>
          obtain ⟨_, _⟩ := (vouches_append value receiver rfl).1 vouched
          exact (sound_setWithReceiver id key value receiver).ensures _ sound
      | has id key => exact (sound_hasProperty id key).ensures _ sound
      | delete target key => exact (sound_deleteProperty target key false).ensures _ sound
      | prototypeOf id => exact (sound_getPrototypeOf id).ensures _ sound
      | instanceOf value target =>
          obtain ⟨_, _⟩ := (vouches_append value target rfl).1 vouched
          exact (sound_instanceOf value target).ensures _ sound
      | checkpoint =>
          exact (keeps_checkpoint sound fuel machine).weaken id fun _ _ _ _ => vouches_of_nil rfl
      | untilIdle =>
          exact (keeps_runUntilIdle sound fuel machine).weaken id fun _ _ _ _ =>
            vouches_of_nil rfl

end ScriptVM

namespace ScriptVM

variable {σ : Type} {collects : Bool}

/-- A moment of a session of a careful embedder: the new machine, what the watch sees on the
way, or the machine at the end. -/
inductive Sight.InSession (collects : Bool) : Sight σ -> Prop
  | new (config : Config) (world : σ) :
      InSession collects { machine := Builtins.newMachine config world }
  | during {program : HostProgram σ} {config : Config} {world : σ} {fuel : Nat}
      {watch : Sight σ -> Bool} {sight : Sight σ} {after : Machine σ} :
      program.Careful collects [] ->
      Exec.runProgram program (Env.watched fuel watch) (Builtins.newMachine config world) =
        .error (.interrupted sight) after ->
      InSession collects sight
  | returned {program : HostProgram σ} {config : Config} {world : σ} {fuel : Nat}
      {value : Value} {after : Machine σ} :
      program.Careful collects [] ->
      (Builtins.newMachine config world).runWithin fuel program = .ok value after ->
      InSession collects { machine := after }
  | threw {program : HostProgram σ} {config : Config} {world : σ} {fuel : Nat}
      {exception : Exception} {after : Machine σ} :
      program.Careful collects [] ->
      (Builtins.newMachine config world).runWithin fuel program =
        .error (.thrown exception) after ->
      InSession collects { machine := after }

/-- A careful program leaves a new machine consistent. -/
theorem HostProgram.Careful.keeps
    {program : HostProgram σ}
    (careful : program.Careful collects [])
    (config : Config)
    (world : σ)
    (fuel : Nat)
    (watch : Sight σ -> Bool) :
    (Builtins.newMachine config world).Keeps collects watch
      (program.Carries collects (Builtins.newMachine config world))
      (fun after answer => after.Vouches answer)
      (Exec.runProgram program (Env.watched fuel watch) (Builtins.newMachine config world)) :=
  Exec.ensures_runProgram program _ (Builtins.newMachine_settles collects config world).1
    careful (fun _ member => by cases member) _ (Env.sound_watched watch fuel)

/-- The machine is consistent at every moment. -/
theorem Sight.InSession.consistent {sight : Sight σ} (session : sight.InSession collects) :
    sight.machine.Consistent collects := by
  cases session with
  | new config world => exact (Builtins.newMachine_settles collects config world).1
  | @during program config world fuel watch sight after careful ran =>
      have kept := careful.keeps config world fuel watch
      rw [ran] at kept
      exact kept.consistent
  | @returned program config world fuel answer after careful ran
  | @threw program config world fuel answer after careful ran =>
      have kept := careful.keeps config world fuel fun _ => false
      unfold Machine.runWithin Env.ofFuel at ran
      rw [ran] at kept
      exact kept.1.consistent

/-! ## What a machine stores -/

/-- The values that an item leads to. -/
def Item.values (cells : Cells) : Item -> List Value
  | .value held => [held]
  | .object _ | .promise _ => []
  | .window id => (cells.window id).toList
  | .captured id =>
      match cells.upvalues[id.index]? with
      | some (.attached registers _) => (cells.window registers).toList
      | some (.detached held) => [held]
      | none => []
  | .cell id => (cells.thisCells[id.index]?).join.toList
  | .aggregate id =>
      match cells.aggregates[id.index]? with
      | some collected => collected.entries.toList.filterMap fun entry => entry
      | none => []

namespace Machine

variable {machine : Machine σ} {item : Item} {value : Value}

/-- The machine stores the item: as the prototype, a property or in an internal slot of a live
object, in a frame, in a queued microtask of its own, among the rejections that it tracks or
reports, or as an intrinsic. -/
inductive Stores (machine : Machine σ) : Item -> Prop
  | object {id : ObjectId} {object : HeapObject ObjectKind} {item : Item} :
      machine.heap.get? id = some object -> item ∈ items object -> Stores machine item
  | frame {frame : Frame} {item : Item} :
      frame ∈ machine.frames -> item ∈ items frame -> Stores machine item
  | microtask {job : Job σ} {item : Item} :
      job ∈ machine.jobs.microtasks.jobs -> item ∈ items job -> Stores machine item
  | rejection {promise : ObjectId} :
      promise ∈ machine.rejections.pending -> Stores machine (.object promise)
  | unhandled {reason : Value} :
      reason ∈ machine.unhandled -> Stores machine (.value reason)
  | intrinsic {id : ObjectId} :
      id ∈ machine.intrinsics.roots -> Stores machine (.object id)

/-- The machine stores the value. -/
def StoresValue (machine : Machine σ) (value : Value) : Prop :=
  ∃ item, machine.Stores item ∧ value ∈ item.values machine.cells

/-- The machine stores the handle of an object, on its own or in a value. -/
def Mentions (machine : Machine σ) (id : ObjectId) : Prop :=
  machine.Stores (.object id) ∨
    ∃ value, machine.StoresValue value ∧ value.objectId? = some id

theorem Stores.accepted
    (stores : machine.Stores item)
    [consistent : machine.Consistent collects] :
    machine.Accepts item := by
  cases stores with
  | object live member => exact (consistent.objects live).accepts item member
  | frame member held => exact (vouches_array.1 consistent.frames _ member).accepts item held
  | microtask member held =>
      exact (vouches_list.1 consistent.microtasks _ member).accepts item held
  | rejection member =>
      exact vouches_id.1 (vouches_list.1 consistent.rejections _ member)
  | unhandled member =>
      exact vouches_value.1 (vouches_list.1 consistent.unhandled _ member)
  | intrinsic member => exact (consistent.intrinsics _ member).live rfl

/-- All values that an accepted item leads to have the right form. -/
theorem Accepts.tags
    (accepted : machine.Accepts item)
    (member : value ∈ item.values machine.cells) :
    machine.Tags value := by
  cases item with
  | value held =>
      cases List.mem_singleton.1 member
      exact accepted
  | object id | promise id => cases member
  | window id => exact accepted value (Array.mem_toList_iff.1 member)
  | captured id =>
      simp only [Accepts, Item.values] at accepted member
      cases present : machine.cells.upvalues[id.index]? with
      | none =>
          rw [present] at member
          cases member
      | some upvalue =>
          rw [present] at accepted member
          cases upvalue with
          | attached window register => exact accepted value (Array.mem_toList_iff.1 member)
          | detached held =>
              cases List.mem_singleton.1 member
              exact accepted
  | cell id => exact accepted value (Option.join_eq_some_iff.1 (Option.mem_toList.1 member))
  | aggregate id =>
      simp only [Item.values] at member
      cases present : machine.cells.aggregates[id.index]? with
      | none =>
          rw [present] at member
          cases member
      | some aggregate =>
          rw [present] at member
          obtain ⟨entry, held, rfl⟩ := List.mem_filterMap.1 member
          exact accepted aggregate present value (Array.mem_toList_iff.1 held)

/-- A consistent machine has the right form for every value that it stores. -/
theorem StoresValue.tags
    (stores : machine.StoresValue value)
    [machine.Consistent collects] :
    machine.Tags value := by
  obtain ⟨item, stored, member⟩ := stores
  exact stored.accepted.tags member

/-- In a consistent machine every handle denotes a live object. -/
theorem Mentions.live
    {id : ObjectId}
    (mentions : machine.Mentions id)
    [machine.Consistent collects] :
    ∃ kind, machine.kind? id = some kind := by
  rcases mentions with stores | ⟨value, stores, named⟩
  · exact stores.accepted
  · exact stores.tags.live named

end Machine
end ScriptVM

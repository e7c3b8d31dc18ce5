import ScriptVM.Machine.Jobs
import ScriptVM.Machine.Run
import ScriptVM.Proofs.Discipline.Builtins
import ScriptVM.Proofs.EventLoops

/-!
# Operations and queues under a discipline

What instructions, calls and requests of an embedder do without a look at the code of a
frame obeys every lawful discipline.

Draining the queues obeys a discipline if their jobs do. So an environment in which every
invocation is performed by an operation that obeys is sound, by induction on its fuel.
-/

namespace ScriptVM

-- Long sequences make large instances.
set_option synthInstance.maxSize 512

variable {σ α : Type} {discipline : Discipline σ} [lawful : discipline.Lawful]

open Discipline

namespace Exec

/-! ## Instructions -/

instance : Obeys discipline currentFrame := by
  unfold currentFrame
  refine .bind inferInstance fun top => ?_
  split <;> infer_instance

instance (index : Nat) : Obeys discipline (upvalueOperand index) := by
  unfold upvalueOperand
  refine .bind inferInstance fun frame => ?_
  split <;> infer_instance

instance (id : UpvalueId) (value : Value) :
    Obeys discipline (update fun machine =>
      machine.modifyCells fun cells => cells.setUpvalue id value : Exec σ Unit) :=
  .update _ fun machine =>
    lawful.cells machine (.setUpvalue machine.cells id value) (.setUpvalue machine.cells id value)

instance (name : String) : Obeys discipline (readGlobal name) := by
  unfold readGlobal
  infer_instance

instance (name : String) : Obeys discipline (hasGlobal name) := by
  unfold hasGlobal
  infer_instance

instance (target key : Value) : Obeys discipline (getIndexed target key) := by
  unfold getIndexed
  split
  · refine .bind inferInstance fun element => ?_
    split <;> infer_instance
  · infer_instance

instance (target : ObjectId) (key : PropertyKey) (value : Value) :
    Obeys discipline (defineField target key value) := by
  unfold defineField
  infer_instance

instance (target : ObjectId) (key : PropertyKey) (getter setter : Value) :
    Obeys discipline (defineAccessor target key getter setter) := by
  unfold defineAccessor
  infer_instance

instance (arguments : List Value) :
    Obeys discipline (change fun machine =>
      machine.createArguments arguments : Exec σ ObjectId) :=
  .change _ fun machine => passes_createArguments machine arguments

instance (iterator : Value) (mode : ResumeMode) (received : Value) :
    Obeys discipline (delegate iterator mode received) := by
  unfold delegate
  cases mode with
  | next => infer_instance
  | throw =>
      refine .bind inferInstance fun method => ?_
      split <;> infer_instance
  | «return» =>
      refine .bind inferInstance fun method => ?_
      split <;> infer_instance

/-! ## Coroutines -/

instance (mode : ResumeMode) (value : Value) : Obeys discipline (resumeCompleted mode value) := by
  unfold resumeCompleted
  cases mode <;> infer_instance

/-! ## Sessions and requests -/

instance (exception : Exception) :
    Obeys discipline (change fun machine => machine.uncaught exception : Exec σ Failure) :=
  .change _ fun machine => passes_exceptionValue machine exception

instance (computation : Exec σ α) [obeys : Obeys discipline computation] :
    Obeys discipline (reporting computation) := by
  refine .bind inferInstance fun outcome => ?_
  split <;> infer_instance

instance : Obeys discipline runMicrotasks := by
  unfold runMicrotasks
  infer_instance

instance : Obeys discipline runEventLoop := by
  unfold runEventLoop
  infer_instance

instance (value : Value) : Obeys discipline (promiseOperand value) := by
  unfold promiseOperand
  refine .bind inferInstance fun found => ?_
  split <;> infer_instance

instance (id : ObjectId) :
    Obeys discipline (change fun machine => machine.preventExtensions id : Exec σ Bool) :=
  .change _ fun machine => passes_preventExtensions machine id

instance (id : ObjectId) :
    Obeys discipline (change fun machine => machine.freeze id : Exec σ Bool) :=
  .change _ fun machine => passes_freeze machine id

instance :
    Obeys discipline (change Machine.takeUnhandled : Exec σ (List Value)) :=
  .change _ fun machine => lawful.takeUnhandled machine

/-! ## Calls -/

instance obeys_callProxy (target handler receiver : Value) (arguments : List Value) :
    Obeys discipline (callProxy target handler receiver arguments) := by
  unfold callProxy
  refine .bind inferInstance fun trap => ?_
  split <;> infer_instance

instance (callee : Value) : Obeys discipline (notConstructor callee : Exec σ α) := by
  unfold notConstructor
  infer_instance

instance obeys_constructProxy
    (id : ObjectId) (target handler : Value) (arguments : List Value) (newTarget : Value) :
    Obeys discipline (constructProxy id target handler arguments newTarget :
      Exec σ Value) := by
  have trapped : Obeys discipline (do
      match <- trap? handler "construct" with
      | some trap =>
          let list <- createArray arguments
          let result <- call trap handler [target, list, newTarget]
          if result.isObject then return result
          else raise (.typeError "'construct' on proxy: trap returned non-object")
      | none =>
          let newTarget :=
            if newTarget.objectId? == some id then target else newTarget
          perform (.construct target arguments newTarget) : Exec σ Value) := by
    refine .bind inferInstance fun trap => ?_
    split <;> infer_instance
  unfold constructProxy
  infer_instance

end Exec

/-! ## Jobs of the machine -/

/-- The promise that is settled when a job of the machine itself is run. -/
def Job.settles? : Job σ -> Option ObjectId
  | .reaction _ capability _ _ => capability
  | .resolveThenable promise _ _ => some promise
  | .host _ => none

namespace Exec

/-- A job that is no program of the embedder obeys if what it resumes does. -/
theorem obeys_runJob_of_inner
    {job : Job σ}
    (inner : ∀ body, job ≠ .host body)
    (settles : ∀ promise, job.settles? = some promise -> discipline.settles promise)
    (resumes : ∀ coroutine capability settlement argument,
      job = .reaction (.asyncResume coroutine) capability settlement argument ->
      Obeys discipline (resumeAsync coroutine settlement argument)) :
    Obeys discipline (runJob job) := by
  cases job with
  | host body => exact absurd rfl (inner body)
  | resolveThenable promise thenable thenMethod =>
      have settling : discipline.Settling promise := ⟨settles promise rfl⟩
      unfold runJob
      infer_instance
  | reaction handler capability settlement argument =>
      have handles : Obeys discipline (runHandler handler settlement argument :
          Exec σ (Option (Except Exception Value))) := by
        unfold runHandler
        cases handler with
        | asyncResume coroutine =>
            have := resumes coroutine capability settlement argument rfl
            infer_instance
        | _ => infer_instance
      unfold runJob
      refine .bind inferInstance fun outcome => ?_
      cases capability with
      | none => rcases outcome with _ | _ | _ <;> infer_instance
      | some derived =>
          have settling : discipline.Settling derived := ⟨settles derived rfl⟩
          rcases outcome with _ | _ | _ <;> infer_instance

/-- A native function that settles a promise obeys if its latch may be used up. -/
theorem obeys_runSettler
    {behavior : NativeBehavior}
    {promise : ObjectId}
    [settling : discipline.Settling promise]
    (settles : behavior.settles? = some promise)
    (uses : ∀ latch reject, behavior = .resolving promise latch reject ->
      ∀ machine : Machine σ, discipline.passes machine
        { machine with cells := (machine.cells.setLatch latch).2 })
    (receiver : Value)
    (arguments : List Value) :
    Obeys discipline (runNative behavior receiver arguments : Exec σ Value) := by
  unfold runNative
  cases behavior with
  | resolving other latch reject =>
      cases settles
      have resolves : ∀ value, Obeys discipline
          (callResolving promise latch reject value : Exec σ Unit) :=
        fun value => obeys_callResolving (uses latch reject rfl) promise reject value
      infer_instance
  | combinatorElement =>
      cases settles
      infer_instance
  | _ => cases settles

end Exec
end ScriptVM

namespace ScriptVM

variable {σ α : Type} {discipline : Discipline σ}

/-! ## Taking jobs -/

namespace EventLoop

variable {J T : Type} {loop rest : EventLoop J T}

theorem nextMicrotask?_spec {job : J} (taken : loop.nextMicrotask? = some (job, rest)) :
    rest.tasks = loop.tasks ∧ loop.microtasks.jobs = job :: rest.microtasks.jobs := by
  obtain ⟨oldest, same⟩ := nextMicrotask?_eq_some taken
  exact ⟨by rw [same], oldest⟩

theorem nextTask?_spec {task : T} (taken : loop.nextTask? = some (task, rest)) :
    rest.microtasks = loop.microtasks ∧ loop.tasks.jobs = task :: rest.tasks.jobs := by
  obtain ⟨oldest, same⟩ := nextTask?_eq_some taken
  exact ⟨by rw [same], oldest⟩

end EventLoop

/-! ## Disciplines of jobs -/

namespace Discipline

/-- What a discipline asks of the jobs of a machine. -/
class Queued (discipline : Discipline σ) : Prop extends discipline.Lawful where
  /-- Tasks may leave their queue, and checkpoints may begin and end. -/
  reschedule (machine : Machine σ) (jobs : EventLoop (Job σ) (HostProgram σ)) :
    jobs.tasks.jobs ⊆ machine.jobs.tasks.jobs -> jobs.microtasks = machine.jobs.microtasks ->
    discipline.passes machine { machine with jobs }
  /-- A checkpoint emptied the queue of microtasks. -/
  finish (env : Env σ) (machine : Machine σ) : machine.jobs.microtasks.jobs = [] ->
    discipline.passes machine ((Machine.scheduler env).checkpointFinished machine)
  /-- The oldest microtask leaves its queue and is run. -/
  microtask {machine : Machine σ} {job : Job σ} {jobs : EventLoop (Job σ) (HostProgram σ)}
    {env : Env σ} :
    discipline.knows machine -> machine.jobs.nextMicrotask? = some (job, jobs) ->
    discipline.Sound env ->
    discipline.keeps machine ((do
      Exec.note (.started job)
      Exec.runJob job : Exec σ Unit) env { machine with jobs })
  task {machine : Machine σ} {task : HostProgram σ} :
    discipline.knows machine -> task ∈ machine.jobs.tasks.jobs ->
    discipline.obeys (Exec.runProgram task)

/-- Running a microtask keeps to a discipline if the job obeys and may leave its queue. -/
theorem keeps_microtask
    [closed : discipline.Closed]
    {env : Env σ}
    {machine : Machine σ}
    {job : Job σ}
    {jobs : EventLoop (Job σ) (HostProgram σ)}
    (taken : discipline.passes machine ({ machine with jobs }.note (.started job)))
    (obedient : Exec.Obeys discipline (Exec.runJob job))
    (sound : discipline.Sound env) :
    discipline.keeps machine ((do
      Exec.note (.started job)
      Exec.runJob job : Exec σ Unit) env { machine with jobs }) := by
  let start : Exec σ Unit := Exec.update fun machine =>
    { machine with jobs }.note (.started job)
  have starts : discipline.keeps machine (start env machine) := keeps_change _ taken
  exact keeps_bind starts fun _ middle _ => obedient.obeys env sound middle

variable [queued : discipline.Queued] {env : Env σ}

/-- Draining the microtask queue keeps to the discipline. -/
theorem keeps_drain (sound : discipline.Sound env) (rounds ran : Nat) (machine : Machine σ) :
    discipline.keeps machine ((Machine.scheduler env).drain rounds ran machine) := by
  induction rounds generalizing ran machine with
  | zero => exact queued.stops machine machine
  | succ rounds more =>
      refine queued.relevant fun known => ?_
      unfold Scheduler.drain
      split
      · exact queued.settles ran (queued.refl machine)
      · next job loop taken =>
          have runs : discipline.keeps machine
              ((Machine.scheduler env).runMicrotask job { machine with jobs := loop }) :=
            queued.microtask known
              (show machine.jobs.nextMicrotask? = some (job, loop) from taken) sound
          split
          · next middle settled =>
              have runs := (show _ = EStateM.Result.ok () middle from settled) ▸ runs
              exact queued.resume runs (more (ran + 1) middle)
          · next stop middle settled =>
              have runs := (show _ = EStateM.Result.error stop middle from settled) ▸ runs
              exact keeps_error (queued.refl middle) runs

/-- A checkpoint keeps to the discipline. -/
theorem keeps_checkpoint (sound : discipline.Sound env) (rounds : Nat) (machine : Machine σ) :
    discipline.keeps machine ((Machine.scheduler env).checkpoint rounds machine) := by
  have close : ∀ (machine : Machine σ) (counted : Bool), discipline.passes machine
      { machine with jobs := machine.jobs.closeCheckpoint counted } :=
    fun machine counted => queued.reschedule machine _ (fun _ => id) rfl
  unfold Scheduler.checkpoint
  dsimp only
  split
  · exact queued.settles 0 (queued.refl machine)
  · refine keeps_after (queued.reschedule machine machine.jobs.openCheckpoint (fun _ => id)
      rfl) ?_
    have drained := keeps_drain sound rounds 0
      { machine with jobs := machine.jobs.openCheckpoint }
    split
    · next ran middle settled =>
        have drained := (show _ = EStateM.Result.ok ran middle from settled) ▸ drained
        exact queued.resume drained (queued.settles ran (queued.trans (close middle _)
          (queued.finish env _ (Scheduler.empty_of_drained settled))))
    · next stop middle settled =>
        have drained := (show _ = EStateM.Result.error stop middle from settled) ▸ drained
        exact keeps_error (close middle _) drained

/-- Running the host tasks keeps to the discipline. -/
theorem keeps_runTasks
    (sound : discipline.Sound env)
    (fuel rounds : Nat)
    (machine : Machine σ) :
    discipline.keeps machine ((Machine.scheduler env).runTasks fuel rounds machine) := by
  induction rounds generalizing machine with
  | zero => exact queued.stops machine machine
  | succ rounds more =>
      refine queued.relevant fun known => ?_
      unfold Scheduler.runTasks
      split
      · exact queued.settles () (queued.refl machine)
      · next task loop taken =>
          obtain ⟨microtasks, tasks⟩ := EventLoop.nextTask?_spec
            (show machine.jobs.nextTask? = some (task, loop) from taken)
          refine keeps_after (queued.reschedule machine loop
            (tasks ▸ List.subset_cons_self task _) microtasks) ?_
          have runs : discipline.keeps { machine with jobs := loop }
              ((Machine.scheduler env).runTask task { machine with jobs := loop }) :=
            keeps_bind (Exec.obeys_observe.obeys env sound _) fun _ middle _ =>
              keeps_bind (queued.task known (tasks ▸ .head _) env sound middle) fun _ last _ =>
                queued.settles () (queued.refl last)
          split
          · next stop middle settled =>
              have runs := (show _ = EStateM.Result.error stop middle from settled) ▸ runs
              exact keeps_error (queued.refl middle) runs
          · next middle settled =>
              have runs := (show _ = EStateM.Result.ok () middle from settled) ▸ runs
              refine queued.resume runs ?_
              have checked := keeps_checkpoint sound fuel middle
              split
              · next stop last ended =>
                  have checked := (show _ = EStateM.Result.error stop last from ended) ▸ checked
                  exact keeps_error (queued.refl last) checked
              · next count last ended =>
                  have checked := (show _ = EStateM.Result.ok count last from ended) ▸ checked
                  exact queued.resume checked (more last)

/-- Running until both queues are empty keeps to the discipline. -/
theorem keeps_runUntilIdle (sound : discipline.Sound env) (fuel : Nat) (machine : Machine σ) :
    discipline.keeps machine ((Machine.scheduler env).runUntilIdle fuel machine) := by
  have checked := keeps_checkpoint sound fuel machine
  rw [Scheduler.runUntilIdle_eq]
  cases first : (Machine.scheduler env).checkpoint fuel machine with
  | error stop middle =>
      rw [first] at checked
      exact keeps_error (queued.refl middle) checked
  | ok count middle =>
      rw [first] at checked
      refine queued.resume checked ?_
      have tasks := keeps_runTasks sound fuel fuel middle
      dsimp only
      cases second : (Machine.scheduler env).runTasks fuel fuel middle with
      | error stop last =>
          rw [second] at tasks
          exact keeps_error (queued.refl last) tasks
      | ok _ last =>
          rw [second] at tasks
          exact queued.resume tasks (queued.settles _ (queued.refl last))

/-- Invocations keep to the discipline, however much fuel there is, if the operations that
run code do. -/
theorem sound_watched
    (operations : ∀ invocation, invocation ≠ .checkpoint -> invocation ≠ .untilIdle ->
      discipline.obeys (Exec.operation invocation))
    {watch : Sight σ -> Bool}
    (watches : discipline.watches watch)
    (fuel : Nat) :
    discipline.Sound (Env.watched fuel watch) := by
  induction fuel with
  | zero => exact ⟨watches, fun invocation machine => queued.stops machine machine⟩
  | succ fuel sound =>
      refine ⟨watches, fun invocation machine => ?_⟩
      by_cases checkpoint : invocation = .checkpoint
      · subst checkpoint
        exact keeps_checkpoint sound fuel machine
      · by_cases idle : invocation = .untilIdle
        · subst idle
          exact keeps_runUntilIdle sound fuel machine
        · exact operations invocation checkpoint idle _ sound machine

end Discipline
end ScriptVM

import ScriptVM.Proofs.Discipline.Frames
import ScriptVM.Proofs.Discipline.Operations

/-!
# Host programs under a discipline

An embedder can set globals without a check. A discipline may reserve some of them, and is
obeyed by the programs of an embedder that leaves these alone, by all that such programs ask
for, and so by every run.
-/

namespace ScriptVM

-- Long sequences make large instances.
set_option synthInstance.maxSize 512

variable {σ α : Type}

/-! ## Globals that are spared -/

/-- A host program sets none of these globals, and neither do the programs that it leaves
behind. -/
def HostProgram.Spares (reserved : String -> Prop) : HostProgram σ -> Prop
  | finish _ => True
  | read next => ∀ world, (next world).Spares reserved
  | write _ next => next.Spares reserved
  | request asked next =>
      (∀ name value, asked = .setGlobal name value -> ¬ reserved name) ∧
        ∀ answer, (next answer).Spares reserved
  | register name _ body next =>
      ¬ reserved name ∧ (∀ receiver arguments, (body receiver arguments).Spares reserved) ∧
        ∀ function, (next function).Spares reserved
  | enqueueTask body next => body.Spares reserved ∧ next.Spares reserved
  | enqueueMicrotask body next => body.Spares reserved ∧ next.Spares reserved

/-- None of the programs that an embedder left with a machine sets any of these globals. -/
structure Machine.Spares
    (reserved : String -> Prop)
    (machine : Machine σ) : Prop where
  hosts : ∀ body ∈ machine.hosts, ∀ receiver arguments,
    (body receiver arguments).Spares reserved
  tasks : ∀ task ∈ machine.jobs.tasks.jobs, task.Spares reserved
  microtasks : ∀ body, Job.host body ∈ machine.jobs.microtasks.jobs -> body.Spares reserved

namespace HostProgram

/-- Programs that reserve nothing spare everything. -/
theorem spares_of_forall
    {reserved : String -> Prop}
    (free : ∀ name, ¬ reserved name)
    (program : HostProgram σ) :
    program.Spares reserved := by
  induction program with
  | finish outcome => trivial
  | read next step => exact step
  | write world next step => exact step
  | request asked next step => exact ⟨fun name _ _ => free name, step⟩
  | register name arity body next bodies step => exact ⟨free name, bodies, step⟩
  | enqueueTask body next task step => exact ⟨task, step⟩
  | enqueueMicrotask body next microtask step => exact ⟨microtask, step⟩

end HostProgram

/-! ## Requests that are avoided -/

/-- A host program asks for nothing that is refused, and neither do the programs that it
leaves behind. -/
def HostProgram.Avoids (refused : Request -> Prop) : HostProgram σ -> Prop
  | finish _ => True
  | read next => ∀ world, (next world).Avoids refused
  | write _ next => next.Avoids refused
  | request asked next => ¬ refused asked ∧ ∀ answer, (next answer).Avoids refused
  | register _ _ body next =>
      (∀ receiver arguments, (body receiver arguments).Avoids refused) ∧
        ∀ function, (next function).Avoids refused
  | enqueueTask body next => body.Avoids refused ∧ next.Avoids refused
  | enqueueMicrotask body next => body.Avoids refused ∧ next.Avoids refused

/-- None of the programs that an embedder left with a machine asks for anything that is
refused. -/
structure Machine.Avoids
    (refused : Request -> Prop)
    (machine : Machine σ) : Prop where
  hosts : ∀ body ∈ machine.hosts, ∀ receiver arguments,
    (body receiver arguments).Avoids refused
  tasks : ∀ task ∈ machine.jobs.tasks.jobs, task.Avoids refused
  microtasks : ∀ body, Job.host body ∈ machine.jobs.microtasks.jobs -> body.Avoids refused

namespace HostProgram

/-- Where nothing is refused all is avoided. -/
theorem avoids_of_forall
    {refused : Request -> Prop}
    (free : ∀ request, ¬ refused request)
    (program : HostProgram σ) :
    program.Avoids refused := by
  induction program with
  | finish outcome => trivial
  | read next step => exact step
  | write world next step => exact step
  | request asked next step => exact ⟨free asked, step⟩
  | register name arity body next bodies step => exact ⟨bodies, step⟩
  | enqueueTask body next task step => exact ⟨task, step⟩
  | enqueueMicrotask body next microtask step => exact ⟨microtask, step⟩

end HostProgram

theorem Machine.avoids_of_forall
    {refused : Request -> Prop}
    (free : ∀ request, ¬ refused request)
    (machine : Machine σ) :
    machine.Avoids refused where
  hosts _ _ _ _ := HostProgram.avoids_of_forall free _
  tasks _ _ := HostProgram.avoids_of_forall free _
  microtasks _ _ := HostProgram.avoids_of_forall free _

/-! ## Disciplines of embedders -/

/-- A program of an embedder that the discipline is content with. -/
structure Discipline.Permits
    (discipline : Discipline σ)
    (program : HostProgram σ) : Prop where
  spares : program.Spares discipline.reserved
  avoids : program.Avoids discipline.refuses

/-- A discipline that allows what an embedder does. -/
class Discipline.Hosting (discipline : Discipline σ) : Prop extends discipline.Resuming where
  spares {machine : Machine σ} :
    discipline.knows machine -> machine.Spares discipline.reserved
  avoids {machine : Machine σ} :
    discipline.knows machine -> machine.Avoids discipline.refuses
  setWorld (machine : Machine σ) (world : σ) :
    discipline.passes machine { machine with world }
  pushHost (machine : Machine σ) (body : HostFunction σ) :
    (∀ receiver arguments, discipline.Permits (body receiver arguments)) ->
    discipline.passes machine { machine with hosts := machine.hosts.push body }
  enqueueTask (machine : Machine σ) {task : HostProgram σ} : discipline.Permits task ->
    discipline.passes machine { machine with jobs := machine.jobs.enqueueTask task }
  enqueueMicrotask (machine : Machine σ) {body : HostProgram σ} : discipline.Permits body ->
    discipline.passes machine (machine.submitJob (.host body))
  /-- Tasks may leave their queue, and checkpoints may begin and end. -/
  reschedule (machine : Machine σ) (jobs : EventLoop (Job σ) (HostProgram σ)) :
    jobs.tasks.jobs ⊆ machine.jobs.tasks.jobs -> jobs.microtasks = machine.jobs.microtasks ->
    discipline.passes machine { machine with jobs }
  /-- A checkpoint emptied the queue of microtasks. -/
  finish (env : Env σ) (machine : Machine σ) : machine.jobs.microtasks.jobs = [] ->
    discipline.passes machine ((Machine.scheduler env).checkpointFinished machine)
  /-- A program of the embedder leaves the queue of microtasks to be run. -/
  takeMicrotask (machine : Machine σ) {body : HostProgram σ}
    {jobs : EventLoop (Job σ) (HostProgram σ)} :
    machine.jobs.nextMicrotask? = some (.host body, jobs) ->
    discipline.passes machine ({ machine with jobs }.note (.started (.host body)))
  /-- A job of the machine itself is taken and run. -/
  works {machine : Machine σ} {job : Job σ} {jobs : EventLoop (Job σ) (HostProgram σ)}
    {env : Env σ} :
    discipline.knows machine -> machine.jobs.nextMicrotask? = some (job, jobs) ->
    (∀ body, job ≠ .host body) -> discipline.Sound env ->
    discipline.keeps machine ((do
      Exec.note (.started job)
      Exec.runJob job : Exec σ Unit) env { machine with jobs })
  /-- A native function that settles a promise is called. -/
  settlers {machine : Machine σ} {id : ObjectId} {function : NativeFunction}
    {promise : ObjectId} {env : Env σ} (receiver : Value) (arguments : List Value) :
    discipline.knows machine -> machine.kind? id = some (.native function) ->
    function.behavior.settles? = some promise -> discipline.Sound env ->
    discipline.keeps machine
      (Exec.withNativeDepth (Exec.runNative function.behavior receiver arguments) env machine)
  setGlobal (machine : Machine σ) {name : String} (value : Value) :
    ¬ discipline.reserved name -> discipline.passes machine (machine.setGlobal name value)
  resolves {promise value : Value} {id : ObjectId} :
    ¬ discipline.refuses (.resolvePromise promise value) -> promise.objectId? = some id ->
    discipline.settles id
  rejects {promise reason : Value} {id : ObjectId} :
    ¬ discipline.refuses (.rejectPromise promise reason) -> promise.objectId? = some id ->
    discipline.settles id
  discards (machine : Machine σ) : ¬ discipline.refuses .discardJobs ->
    discipline.passes machine { machine with jobs := machine.jobs.discard.2 }
  collects (kept : List Value) : ¬ discipline.refuses (.collectGarbage kept) ->
    discipline.obeys (Exec.change fun machine => machine.collectGarbage kept)

variable {discipline : Discipline σ} [hosting : discipline.Hosting]

open Discipline

/-! ## Requests -/

namespace Exec

instance obeys_runBuiltin (builtin : Builtin) (receiver : Value) (arguments : List Value) :
    Obeys discipline (Builtins.run builtin receiver arguments) := by
  unfold Builtins.run
  cases builtin <;> infer_instance

theorem obeys_promiseOperandThen
    {value : Value}
    {next : ObjectId -> Exec σ α}
    (later : ∀ promise, value.objectId? = some promise -> Obeys discipline (next promise)) :
    Obeys discipline (promiseOperand value >>= next) := by
  refine ⟨fun env sound machine => ?_⟩
  unfold promiseOperand
  rw [bind_assoc, ask_bind]
  cases found : machine.promiseId? value with
  | none =>
      refine keeps_bind ((obeys_typeError _).obeys env sound machine) fun promise middle ran => ?_
      cases (show EStateM.Result.error _ machine = .ok promise middle from ran)
  | some promise =>
      have named : value.objectId? = some promise := (Option.filter_eq_some_iff.1 found).1
      exact (later promise named).obeys env sound machine

theorem obeys_answer
    (request : Request)
    (spares : ∀ name value, request = .setGlobal name value -> ¬ discipline.reserved name)
    (avoids : ¬ discipline.refuses request) :
    Obeys discipline (answer request) := by
  cases request with
  | setGlobal name value =>
      exact .update _ fun machine => hosting.setGlobal machine value (spares name value rfl)
  | resolvePromise promise value =>
      have resolves : Obeys discipline
          (promiseOperand promise >>= fun id => resolvePromise id value) :=
        obeys_promiseOperandThen fun id named =>
          have settling : discipline.Settling id := ⟨hosting.resolves avoids named⟩
          inferInstance
      exact obeys_attempt _
  | rejectPromise promise reason =>
      have rejects : Obeys discipline
          (promiseOperand promise >>= fun id => settlePromise id .rejected reason) :=
        obeys_promiseOperandThen fun id named =>
          have settling : discipline.Settling id := ⟨hosting.rejects avoids named⟩
          inferInstance
      exact obeys_attempt _
  | discardJobs =>
      unfold answer
      exact .change _ fun machine => hosting.discards machine avoids
  | collectGarbage kept => exact ⟨hosting.collects kept avoids⟩
  | _ => unfold answer; infer_instance

/-! ## Host programs -/

/-- A program that the discipline permits obeys. -/
theorem obeys_runProgram (program : HostProgram σ) (permits : discipline.Permits program) :
    Obeys discipline (runProgram program) := by
  induction program with
  | finish outcome =>
      unfold runProgram
      infer_instance
  | read next step =>
      unfold runProgram
      exact .bind inferInstance fun world =>
        step world ⟨permits.spares world, permits.avoids world⟩
  | write world next step =>
      unfold runProgram
      exact .bind (.update _ fun machine => hosting.setWorld machine world) fun _ =>
        step ⟨permits.spares, permits.avoids⟩
  | request request next step =>
      unfold runProgram
      exact .bind (obeys_answer request permits.spares.1 permits.avoids.1) fun answer =>
        step answer ⟨permits.spares.2 answer, permits.avoids.2 answer⟩
  | register name arity body next _ step =>
      obtain ⟨free, bodies, later⟩ := permits.spares
      obtain ⟨others, rest⟩ := permits.avoids
      unfold runProgram
      refine .bind (.change _ fun machine => ?_) fun function =>
        step function ⟨later function, rest function⟩
      exact hosting.trans (hosting.pushHost machine body fun receiver arguments =>
          ⟨bodies receiver arguments, others receiver arguments⟩)
        (hosting.trans (passes_createNative _ rfl arity) (hosting.setGlobal _ _ free))
  | enqueueTask body next _ step =>
      unfold runProgram
      exact .bind (.update _ fun machine =>
          hosting.enqueueTask machine ⟨permits.spares.1, permits.avoids.1⟩) fun _ =>
        step ⟨permits.spares.2, permits.avoids.2⟩
  | enqueueMicrotask body next _ step =>
      unfold runProgram
      exact .bind (.update _ fun machine =>
          hosting.enqueueMicrotask machine ⟨permits.spares.1, permits.avoids.1⟩) fun _ =>
        step ⟨permits.spares.2, permits.avoids.2⟩

/-! ## Functions -/

/-- The functions of the embedder are among the programs that it left behind. -/
instance (id : HostId) (receiver : Value) (arguments : List Value) :
    Obeys discipline (runHost id receiver arguments) := by
  refine ⟨fun env sound machine => hosting.relevant fun known => ?_⟩
  unfold runHost
  rw [ask_bind]
  cases found : machine.hosts[id.index]? with
  | none => exact (obeys_raise _).obeys env sound machine
  | some body =>
      have member := Array.mem_of_getElem? found
      exact (obeys_runProgram _ ⟨(hosting.spares known).hosts body member receiver arguments,
        (hosting.avoids known).hosts body member receiver arguments⟩).obeys env sound machine

theorem obeys_runNative
    {behavior : NativeBehavior}
    (harmless : behavior.settles? = none)
    (receiver : Value)
    (arguments : List Value) :
    Obeys discipline (runNative behavior receiver arguments) := by
  unfold runNative
  cases behavior with
  | resolving | combinatorElement => cases harmless
  | _ => infer_instance

/-- What a function that settles a promise does is up to the discipline. -/
instance (callee receiver : Value) (arguments : List Value) :
    Obeys discipline (callValue callee receiver arguments) := by
  refine ⟨fun env sound machine => hosting.relevant fun known => ?_⟩
  unfold callValue
  split
  · next id =>
      rw [ask_bind]
      cases present : machine.kind? id with
      | none => exact (obeys_notCallable _).obeys env sound machine
      | some kind =>
          cases kind with
          | native function =>
              dsimp only
              cases settles : function.behavior.settles? with
              | some promise =>
                  exact hosting.settlers receiver arguments known present settles sound
              | none =>
                  have runs : Obeys discipline
                      (runNative function.behavior receiver arguments : Exec σ Value) :=
                    obeys_runNative settles receiver arguments
                  exact (obeys_withNativeDepth _).obeys env sound machine
          | function closure =>
              exact (obeys_callClosure id closure receiver arguments).obeys env sound machine
          | bound target bound leading =>
              exact (obeys_withNativeDepth
                (call target bound (leading ++ arguments))).obeys env sound machine
          | proxy target handler =>
              exact (obeys_callProxy target handler receiver arguments).obeys env sound machine
          | _ => exact (obeys_notCallable _).obeys env sound machine
  · exact (obeys_notCallable _).obeys env sound machine

instance (callee : Value) (arguments : List Value) (newTarget : Value) :
    Obeys discipline (constructValue callee arguments newTarget) := by
  unfold constructValue
  split
  · infer_instance
  · refine .bind inferInstance fun kind => ?_
    split
    · infer_instance
    · split <;> infer_instance
    all_goals infer_instance

/-! ## Jobs -/

theorem obeys_runJob
    (job : Job σ)
    (permits : ∀ body, job = .host body -> discipline.Permits body)
    (settles : ∀ promise, job.settles? = some promise -> discipline.settles promise)
    (resumes : ∀ coroutine capability settlement argument,
      job = .reaction (.asyncResume coroutine) capability settlement argument ->
      Obeys discipline (resumeAsync coroutine settlement argument)) :
    Obeys discipline (runJob job) := by
  cases job with
  | host body =>
      have runs := obeys_runProgram body (permits body rfl)
      unfold runJob
      infer_instance
  | resolveThenable | reaction =>
      refine obeys_runJob_of_inner ?_ settles resumes
      rintro _ ⟨⟩

end Exec

namespace Discipline

instance (priority := low) queued_of_hosting : discipline.Queued where
  reschedule := hosting.reschedule
  finish := hosting.finish
  microtask {machine job jobs env} known taken sound := by
    cases job with
    | host body =>
        have member : Job.host body ∈ machine.jobs.microtasks.jobs :=
          (EventLoop.nextMicrotask?_spec taken).2 ▸ .head _
        refine keeps_microtask (hosting.takeMicrotask machine taken)
          (Exec.obeys_runJob (.host body) ?_ nofun nofun) sound
        rintro _ ⟨⟩
        exact ⟨(hosting.spares known).microtasks body member,
          (hosting.avoids known).microtasks body member⟩
    | resolveThenable | reaction => exact hosting.works known taken nofun sound
  task {_ task} known member :=
    (Exec.obeys_runProgram task ⟨(hosting.spares known).tasks task member,
      (hosting.avoids known).tasks task member⟩).obeys

/-- Every environment whose watch is as asked for performs invocations as the discipline
demands. -/
theorem sound_hosting
    {watch : Sight σ -> Bool}
    (watches : discipline.watches watch)
    (fuel : Nat) :
    discipline.Sound (Env.watched fuel watch) := by
  refine sound_watched (fun invocation notCheckpoint notIdle => ?_) watches fuel
  suffices obedient : Exec.Obeys discipline (Exec.operation invocation) from obedient.obeys
  cases invocation with
  | checkpoint => exact absurd rfl notCheckpoint
  | untilIdle => exact absurd rfl notIdle
  | _ => unfold Exec.operation; infer_instance

end Discipline
end ScriptVM

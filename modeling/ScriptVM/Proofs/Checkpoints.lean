import Mathlib.Data.List.Basic
import ScriptVM.Proofs.EventLoops

/-!
# Checkpoints and host tasks

Microtasks run in checkpoints, host tasks between them. Both run in the order in which they were
queued, and a job that fails leaves the rest in its place.
-/

/-!
## Checkpoints

A checkpoint takes the microtasks one at a time from the front of their queue, while more of them
may join at the end. So the jobs run in the order in which they were queued. When a job fails the
checkpoint ends with it and the rest stays where it is. Checkpoints that are asked for while
another one is under way run nothing.
-/

namespace ScriptVM

variable {W J T E : Type}

/-! ## Journals -/

namespace Note

/-- The microtasks that entries tell to be queued. -/
def jobs (notes : List (Note J T E)) : List J :=
  notes.filterMap fun
    | .enqueued job => some job
    | _ => none

/-- An entry that a job can make while a checkpoint runs it. No microtask begins or ends and no
checkpoint finishes, and a checkpoint that is asked for answers that it ran nothing. -/
def Nested : Note J T E -> Prop
  | .started _ | .ended _ | .finished => False
  | .answered answer => answer = .ok 0
  | _ => True

@[simp] theorem jobs_append (first second : List (Note J T E)) :
    jobs (first ++ second) = jobs first ++ jobs second :=
  List.filterMap_append

end Note

namespace Context

variable {before middle after context : Context W J T E}

@[simp] theorem note_world (entry : Note J T E) : (context.note entry).world = context.world := rfl

@[simp] theorem note_loop (entry : Note J T E) : (context.note entry).loop = context.loop := rfl

@[simp] theorem note_journal (entry : Note J T E) :
    (context.note entry).journal = context.journal ++ [entry] := rfl

/-- These entries are made while a checkpoint runs a job. -/
structure Records (before after : Context W J T E) (notes : List (Note J T E)) : Prop where
  journal : after.journal = before.journal ++ notes
  draining : after.draining = true
  microtasks : after.microtasks = before.microtasks ++ Note.jobs notes
  counted : after.loop.stats.microtasks = before.loop.stats.microtasks
  nested : ∀ note ∈ notes, note.Nested

/-- The queue stays as it is, and at most one entry is made. -/
theorem Records.aside
    {notes : List (Note J T E)}
    (draining : before.draining = true)
    (journal : after.journal = before.journal ++ notes)
    (opened : after.loop.inCheckpoint = before.loop.inCheckpoint)
    (microtasks : after.loop.microtasks = before.loop.microtasks)
    (counted : after.loop.stats.microtasks = before.loop.stats.microtasks)
    (still : Note.jobs notes = [])
    (nested : ∀ note ∈ notes, note.Nested) :
    before.Records after notes where
  journal := journal
  draining := opened.trans draining
  microtasks := by
    rw [still, List.append_nil]
    exact congrArg JobQueue.jobs microtasks
  counted := counted
  nested := nested

theorem Records.trans
    {earlier later : List (Note J T E)}
    (first : before.Records middle earlier)
    (second : middle.Records after later) :
    before.Records after (earlier ++ later) where
  journal := by rw [second.journal, first.journal, List.append_assoc]
  draining := second.draining
  microtasks := by
    rw [second.microtasks, first.microtasks, Note.jobs_append, List.append_assoc]
  counted := second.counted.trans first.counted
  nested note member := (List.mem_append.1 member).elim (first.nested note) (second.nested note)

/-- While a checkpoint runs a job, the job only makes such entries. -/
def attending : Habit W J T E where
  leads before after := before.draining = true -> ∃ notes, before.Records after notes
  refl context draining :=
    ⟨[], .aside draining (List.append_nil _).symm rfl rfl rfl rfl nofun⟩
  trans earlier later draining := by
    obtain ⟨first, records⟩ := earlier draining
    obtain ⟨second, goesOn⟩ := later records.draining
    exact ⟨first ++ second, records.trans goesOn⟩
  write context world draining :=
    ⟨[], .aside draining (List.append_nil _).symm rfl rfl rfl rfl nofun⟩
  enqueueMicrotask context job draining :=
    ⟨[.enqueued job], rfl, draining, rfl, rfl, fun note member => by
      rw [List.mem_singleton.1 member]
      trivial⟩
  enqueueTask context task draining :=
    ⟨[.enqueuedTask task], .aside draining rfl rfl rfl rfl rfl fun note member => by
      rw [List.mem_singleton.1 member]
      trivial⟩

/-- An entry that may be nested, and that queues nothing, is made. -/
theorem attending_note
    (context : Context W J T E)
    {entry : Note J T E}
    (nested : entry.Nested)
    (still : Note.jobs [entry] = []) :
    attending.leads context (context.note entry) :=
  fun draining => ⟨[entry], .aside draining rfl rfl rfl rfl still fun note member => by
    rw [List.mem_singleton.1 member]
    exact nested⟩

end Context

/-! ## Nested checkpoints -/

namespace Ensemble

open Context

variable {ensemble : Ensemble W J T E}
  {run : Activity W J T E -> Course W J T E Unit} {context : Context W J T E}

/-- A checkpoint that is asked for during another one runs nothing. -/
theorem checkpoint_of_draining (draining : context.draining = true) (fuel : Nat) :
    (ensemble.schedulerOf run).checkpoint fuel context = .ok 0 context :=
  if_pos draining

/-- The loop leaves a context that is not draining to itself. -/
theorem attending_of_not {after : Context W J T E} (idle : ¬context.draining = true) :
    attending.leads context after :=
  fun draining => absurd draining idle

theorem attending_checkpoint (fuel : Nat) (context : Context W J T E) :
    attending.Kept context ((ensemble.schedulerOf run).checkpoint fuel context) := by
  by_cases draining : context.draining = true
  · rw [checkpoint_of_draining draining]
    exact attending.refl context
  · cases (ensemble.schedulerOf run).checkpoint fuel context <;> exact attending_of_not draining

section

variable (kept : ∀ activity before, attending.Kept before (run activity before))
include kept

/-- A host task that a job runs attends to the checkpoint like the job. -/
theorem attending_runTask
    {task : T}
    {loop : EventLoop J T}
    (taken : context.loop.nextTask? = some (task, loop)) :
    attending.Kept context
      ((ensemble.schedulerOf run).runTask task { context with loop }) := by
  have begun : attending.leads context { context with loop } := by
    rw [(EventLoop.nextTask?_eq_some taken).2]
    exact fun draining =>
      ⟨[], .aside draining (List.append_nil _).symm rfl rfl rfl rfl nofun⟩
  have started : attending.leads { context with loop }
      (note { context with loop } (.startedTask task loop.microtasks.jobs loop.inCheckpoint)) :=
    attending_note _ trivial rfl
  exact .since (attending.trans begun started)
    (Course.kept_noting
      (fun after outcome => show attending.leads after (after.note (.endedTask outcome)) from
        attending_note after trivial rfl)
      (kept _ _))

/-- Jobs that attend to the checkpoint let the jobs that they run attend to it. -/
theorem attending_allows
    (fuel : Nat) :
    attending.Allows (ensemble.schedulerOf run) fuel where
  checkpoint before := by
    by_cases draining : before.draining = true
    · rw [checkpoint_of_draining draining]
      exact attending_note before rfl rfl
    · split <;> exact attending_of_not draining
  runUntilIdle := Habit.kept_runUntilIdle (attending_checkpoint fuel) fun _ _ middle _ =>
    Habit.kept_runTasks (fun _ => True) (fun _ _ _ _ taken => attending_runTask kept taken)
      (attending_checkpoint fuel) (fun _ _ _ _ => trivial) fuel middle trivial

end

/-- On every level jobs attend to the checkpoint that runs them. -/
theorem attending_perform
    (level : Nat)
    (activity : Activity W J T E)
    (before : Context W J T E) :
    attending.Kept before (ensemble.perform level activity before) := by
  induction level generalizing activity before with
  | zero => exact attending.refl before
  | succ level lower => exact Habit.kept_run (attending_allows lower level) activity before

/-! ## Draining the queue -/

end Ensemble

/-- A job that a checkpoint ran. -/
structure JobRun (J T E : Type) where
  job : J
  /-- What the journal says between its beginning and its end. -/
  deeds : List (Note J T E)
  outcome : Except E Unit

namespace JobRun

/-- What the journal says about the job. -/
def notes (run : JobRun J T E) : List (Note J T E) :=
  .started run.job :: run.deeds ++ [.ended run.outcome]

/-- The microtasks that the job queued. -/
def enqueued (run : JobRun J T E) : List J :=
  Note.jobs run.deeds

end JobRun

/-- From one context to another these jobs were run, one after the other. Of the microtasks that
waited before, followed by those that the jobs queued, the jobs are the oldest, and the others
still wait. -/
structure Drained (before : Context W J T E) (runs : List (JobRun J T E))
    (after : Context W J T E) : Prop where
  journal : after.journal = before.journal ++ runs.flatMap JobRun.notes
  queue : before.microtasks ++ runs.flatMap JobRun.enqueued =
    runs.map JobRun.job ++ after.microtasks
  counted : after.loop.stats.microtasks = before.loop.stats.microtasks + runs.length
  nested : ∀ run ∈ runs, ∀ note ∈ run.deeds, note.Nested

namespace Drained

variable {before middle after : Context W J T E} {run : JobRun J T E}
  {runs : List (JobRun J T E)}

theorem refl (context : Context W J T E) : Drained context [] context where
  journal := (List.append_nil _).symm
  queue := List.append_nil _
  counted := rfl
  nested := nofun

/-- The first job is run, and then the others. -/
theorem cons (first : Drained before [run] middle) (others : Drained middle runs after) :
    Drained before (run :: runs) after where
  journal := by
    rw [others.journal, first.journal]
    simp
  queue := by
    have taken := first.queue
    have later := others.queue
    simp only [List.flatMap_cons, List.flatMap_nil, List.append_nil, List.map_cons,
      List.map_nil] at taken ⊢
    rw [<- List.append_assoc, taken, List.append_assoc, later]
    simp
  counted := by
    rw [others.counted, first.counted]
    simp
    omega
  nested other member := by
    cases List.mem_cons.1 member with
    | inl same => exact first.nested other (List.mem_singleton.2 same)
    | inr later => exact others.nested other later

/-- One job is run. -/
theorem single
    {job : J}
    {loop : EventLoop J T}
    {deeds : List (Note J T E)}
    {outcome : Except E Unit}
    (taken : before.loop.nextMicrotask? = some (job, loop))
    (records : Context.Records
      (Context.note { before with loop } (.started job)) middle deeds) :
    Drained before [{ job, deeds, outcome }] (middle.note (.ended outcome)) where
  journal := by
    rw [Context.note_journal, records.journal]
    simp [JobRun.notes]
  queue := by
    have waiting : middle.microtasks = loop.microtasks.jobs ++ Note.jobs deeds :=
      records.microtasks
    have oldest : before.microtasks = job :: loop.microtasks.jobs :=
      (EventLoop.nextMicrotask?_eq_some taken).1
    show before.microtasks ++ _ = _ ++ middle.microtasks
    rw [waiting, oldest]
    simp [JobRun.enqueued]
  counted := by
    have counted : middle.loop.stats.microtasks = loop.stats.microtasks := records.counted
    show middle.loop.stats.microtasks = _
    rw [counted, (EventLoop.nextMicrotask?_eq_some taken).2]
    rfl
  nested other member := by
    rw [List.mem_singleton.1 member]
    exact records.nested

/-- Only the queue, the journal and the count matter. -/
theorem of_loops
    {start stop : Context W J T E}
    (drained : Drained before runs after)
    (journal : before.journal = start.journal ∧ after.journal = stop.journal)
    (microtasks : before.microtasks = start.microtasks ∧ after.microtasks = stop.microtasks)
    (counted : before.loop.stats.microtasks = start.loop.stats.microtasks ∧
      after.loop.stats.microtasks = stop.loop.stats.microtasks) :
    Drained start runs stop where
  journal := by rw [<- journal.1, <- journal.2, drained.journal]
  queue := by rw [<- microtasks.1, <- microtasks.2, drained.queue]
  counted := by rw [<- counted.1, <- counted.2, drained.counted]
  nested := drained.nested

/-- A drain between the beginning and the end of a checkpoint. -/
theorem closed
    (drained : Drained { before with loop := before.loop.openCheckpoint } runs after)
    (counted : Bool) :
    Drained before runs { after with loop := after.loop.closeCheckpoint counted } :=
  drained.of_loops ⟨rfl, rfl⟩ ⟨rfl, rfl⟩ ⟨rfl, rfl⟩

end Drained

namespace Ensemble

variable {before : Context W J T E}

open Context

variable {ensemble : Ensemble W J T E}
  {run : Activity W J T E -> Course W J T E Unit}

/-- What a drain of the queue did. The job that failed, if one did, was the last. -/
def Drains (before : Context W J T E) (ran : Nat) :
    EStateM.Result (Halt E) (Context W J T E) Nat -> Prop
  | .ok total after => ∃ runs : List (JobRun J T E),
      Drained before runs after ∧ after.draining = true ∧ after.microtasks = [] ∧
        (∀ run ∈ runs, run.outcome = .ok ()) ∧ total = ran + runs.length
  | .error (.failed error) after => ∃ (runs : List (JobRun J T E)) (last : JobRun J T E),
      Drained before (runs ++ [last]) after ∧
        (∀ run ∈ runs, run.outcome = .ok ()) ∧ last.outcome = .error error
  | .error .outOfFuel _ => True

theorem Drains.cons
    {before middle : Context W J T E}
    {first : JobRun J T E}
    {ran : Nat}
    {result : EStateM.Result (Halt E) (Context W J T E) Nat}
    (drained : Drained before [first] middle)
    (succeeded : first.outcome = .ok ())
    (rest : Drains middle (ran + 1) result) :
    Drains before ran result := by
  match result, rest with
  | .ok total after, ⟨runs, others, open_, empty, succeed, counted⟩ =>
      refine ⟨first :: runs, drained.cons others, open_, empty, ?_, ?_⟩
      · exact List.forall_mem_cons.2 ⟨succeeded, succeed⟩
      · rw [counted, List.length_cons]
        omega
  | .error (.failed error) after, ⟨runs, last, others, succeed, failed⟩ =>
      exact ⟨first :: runs, last, drained.cons others,
        List.forall_mem_cons.2 ⟨succeeded, succeed⟩, failed⟩
  | .error .outOfFuel after, _ => trivial

/-- A job that a checkpoint runs is the oldest. -/
theorem runMicrotask_drains
    (ensemble : Ensemble W J T E)
    (kept : ∀ activity before, attending.Kept before (run activity before))
    {job : J}
    {loop : EventLoop J T}
    (draining : before.draining = true)
    (taken : before.loop.nextMicrotask? = some (job, loop)) :
    match (ensemble.schedulerOf run).runMicrotask job { before with loop } with
    | .ok () after => ∃ deeds,
        Drained before [{ job, deeds, outcome := .ok () }] after ∧ after.draining = true
    | .error (.failed error) after => ∃ deeds,
        Drained before [{ job, deeds, outcome := .error error }] after
    | .error .outOfFuel _ => True := by
  have begun : (note { before with loop } (.started job)).draining = true := by
    show loop.inCheckpoint = true
    rw [(EventLoop.nextMicrotask?_eq_some taken).2]
    exact draining
  have attends := kept (ensemble.microtask job) (note { before with loop } (.started job))
  dsimp only [schedulerOf, Course.noting]
  cases ended : run (ensemble.microtask job) (note { before with loop } (.started job)) with
  | ok _ after =>
      rw [ended] at attends
      obtain ⟨deeds, records⟩ := attends begun
      exact ⟨deeds, .single taken records, records.draining⟩
  | error halt after =>
      rw [ended] at attends
      obtain ⟨deeds, records⟩ := attends begun
      cases halt with
      | failed error => exact ⟨deeds, .single taken records⟩
      | outOfFuel => trivial

/-- A drain takes jobs from the front of the queue until it is empty or one of them fails. -/
theorem drain_drains
    (kept : ∀ activity before, attending.Kept before (run activity before))
    (fuel ran : Nat)
    (draining : before.draining = true) :
    Drains before ran ((ensemble.schedulerOf run).drain fuel ran before) := by
  induction fuel generalizing ran before with
  | zero => trivial
  | succ fuel step =>
      unfold Scheduler.drain
      split
      · next empty =>
          exact ⟨[], .refl before, draining, EventLoop.nextMicrotask?_eq_none empty, nofun, rfl⟩
      · next job loop taken =>
          have drains := runMicrotask_drains ensemble kept draining taken
          split
          · next after ended =>
              rw [show (ensemble.schedulerOf run).runMicrotask job { before with loop } = _
                from ended] at drains
              obtain ⟨deeds, drained, opened⟩ := drains
              exact .cons drained rfl (step (ran + 1) opened)
          · next halt after ended =>
              rw [show (ensemble.schedulerOf run).runMicrotask job { before with loop } = _
                from ended] at drains
              cases halt with
              | failed error =>
                  obtain ⟨deeds, drained⟩ := drains
                  exact ⟨[], _, drained, nofun, rfl⟩
              | outOfFuel => trivial

/-! ## Checkpoints -/

theorem foldl_enqueueMicrotask (jobs : List J) (context : Context W J T E) :
    jobs.foldl Context.enqueueMicrotask context = {
      context with
      loop := { context.loop with microtasks := { jobs := context.microtasks ++ jobs } }
      journal := context.journal ++ jobs.map .enqueued } := by
  induction jobs generalizing context with
  | nil => simp [Context.microtasks]
  | cons job jobs step =>
      rw [List.foldl_cons, step]
      simp [Context.enqueueMicrotask, EventLoop.enqueueMicrotask, JobQueue.enqueue,
        Context.microtasks]

theorem foldl_enqueueTask (tasks : List T) (context : Context W J T E) :
    tasks.foldl Context.enqueueTask context = {
      context with
      loop := { context.loop with tasks := { jobs := context.tasks ++ tasks } }
      journal := context.journal ++ tasks.map .enqueuedTask } := by
  induction tasks generalizing context with
  | nil => simp [Context.tasks]
  | cons task tasks step =>
      rw [List.foldl_cons, step]
      simp [Context.enqueueTask, EventLoop.enqueueTask, JobQueue.enqueue, Context.tasks]

/-- What the hook of a context does. -/
theorem finish_eq (ensemble : Ensemble W J T E) (context : Context W J T E) :
    ensemble.finish context =
      let (world, jobs, tasks) := ensemble.finished context.world
      { world
        loop := { context.loop with
          microtasks := { jobs := context.microtasks ++ jobs }
          tasks := { jobs := context.tasks ++ tasks } }
        journal := context.journal ++
          .finished :: (jobs.map .enqueued ++ tasks.map .enqueuedTask) } := by
  dsimp only [finish]
  rw [foldl_enqueueMicrotask, foldl_enqueueTask]
  simp [Context.microtasks, Context.tasks]

/-- A checkpoint that is not asked for during another one runs microtasks in the order in which
they were queued. If it succeeds it has emptied the queue. If a job fails it is the last that was
run, and the later ones still wait. A checkpoint that is asked for during another one runs
nothing. -/
theorem checkpoint_runs_in_order
    (ensemble : Ensemble W J T E)
    (level fuel : Nat)
    (before : Context W J T E) :
    if before.draining then
      (ensemble.scheduler level).checkpoint fuel before = .ok 0 before
    else
      match (ensemble.scheduler level).checkpoint fuel before with
      | .ok ran after => ∃ (runs : List (JobRun J T E)) (drained : Context W J T E),
          Drained before runs drained ∧ (∀ run ∈ runs, run.outcome = .ok ()) ∧
            ran = runs.length ∧ drained.microtasks = [] ∧ after = ensemble.finish drained ∧
            after.draining = false ∧
            after.loop.stats.microtasks = before.loop.stats.microtasks + ran
      | .error (.failed error) after => ∃ (runs : List (JobRun J T E)) (last : JobRun J T E),
          Drained before (runs ++ [last]) after ∧ (∀ run ∈ runs, run.outcome = .ok ()) ∧
            last.outcome = .error error ∧ after.draining = false
      | .error .outOfFuel _ => True := by
  by_cases draining : before.draining = true
  · rw [if_pos draining]
    exact checkpoint_of_draining draining fuel
  · rw [if_neg draining]
    have opened : Drains { before with loop := before.loop.openCheckpoint } 0
        ((ensemble.scheduler level).drain fuel 0
          { before with loop := before.loop.openCheckpoint }) :=
      drain_drains (attending_perform level) fuel 0 rfl
    have outermost : before.loop.inCheckpoint = false := Bool.eq_false_iff.2 draining
    cases stopped : (ensemble.scheduler level).drain fuel 0
        { before with loop := before.loop.openCheckpoint } with
    | ok ran after =>
        rw [Scheduler.checkpoint_of_drained outermost stopped]
        rw [stopped] at opened
        obtain ⟨runs, drained, -, empty, succeed, counted⟩ := opened
        have closed := drained.closed (!before.loop.microtasks.isEmpty)
        have finished := ensemble.finish_eq
          { after with loop := after.loop.closeCheckpoint (!before.loop.microtasks.isEmpty) }
        refine ⟨runs, _, closed, succeed, ?_, empty, rfl, ?_, ?_⟩
        · rw [counted, Nat.zero_add]
        · exact congrArg Context.draining finished
        · exact (congrArg (Context.loop · |>.stats.microtasks) finished).trans
            (closed.counted.trans (by rw [counted, Nat.zero_add]))
    | error halt after =>
        rw [Scheduler.checkpoint_of_stopped outermost stopped]
        rw [stopped] at opened
        cases halt with
        | failed error =>
            obtain ⟨runs, last, drained, succeed, failed⟩ := opened
            exact ⟨runs, last, drained.closed _, succeed, failed, rfl⟩
        | outOfFuel => trivial

/-- Each of two jobs queues a third one that fails and asks for a checkpoint, which runs nothing.
So the first of the failing jobs is run last and the other still waits. -/
example :
    let ensemble : Ensemble Unit Bool Empty Unit := {
      microtask := fun first =>
        if first then .enqueueMicrotask false (.checkpoint fun _ => .finish (.ok ()))
        else .finish (.error ())
      task := nofun }
    (match (ensemble.scheduler 2).checkpoint 5
        (Context.enqueueMicrotask (Context.enqueueMicrotask { world := () } true) true) with
      | .error _ after => (after.microtasks, after.loop.stats.microtasks)
      | .ok _ _ => ([], 0)) = ([false], 3) := by
  decide +kernel

end Ensemble
/-!
## Host tasks

Host tasks begin in the order in which they are queued. As long as no checkpoint is under way, a
task begins only when no microtask waits but for those that the context queued itself after the
last checkpoint. A run of the loop that a microtask asks for is different: the microtasks are left
to the checkpoint that runs it, and so the tasks overtake them.
-/

namespace Note

/-- The host tasks that entries tell to be queued. -/
def tasks (notes : List (Note J T E)) : List T :=
  notes.filterMap fun
    | .enqueuedTask task => some task
    | _ => none

/-- The host tasks that entries tell to begin. -/
def startedTasks (notes : List (Note J T E)) : List T :=
  notes.filterMap fun
    | .startedTask task _ _ => some task
    | _ => none

@[simp] theorem tasks_append (first second : List (Note J T E)) :
    tasks (first ++ second) = tasks first ++ tasks second :=
  List.filterMap_append

@[simp] theorem startedTasks_append (first second : List (Note J T E)) :
    startedTasks (first ++ second) = startedTasks first ++ startedTasks second :=
  List.filterMap_append

end Note

/-! ## Runs of the loop -/

namespace Ensemble

variable {loop : EventLoop J T}

open Context

variable {ensemble : Ensemble W J T E} {before middle after : Context W J T E}
  {notes : List (Note J T E)} {run : Activity W J T E -> Course W J T E Unit}

/-- Microtasks wait only if a checkpoint is under way or the context queued them after the last
one. -/
def Calm (ensemble : Ensemble W J T E) (waiting : List J) (draining : Bool) : Prop :=
  draining = true ∨ ∃ world, waiting = (ensemble.finished world).2.1

theorem Calm.empty
    {waiting : List J}
    (calm : ensemble.Calm waiting false)
    (restful : ensemble.Restful) :
    waiting = [] := by
  obtain draining | ⟨world, rfl⟩ := calm
  · cases draining
  · exact restful world

/-- Host tasks begin in calm moments. -/
def Patient (ensemble : Ensemble W J T E) : Note J T E -> Prop
  | .startedTask _ waiting draining => ensemble.Calm waiting draining
  | _ => True

/-- What happened to the host tasks from one context to another. -/
structure Conducts (ensemble : Ensemble W J T E) (before after : Context W J T E)
    (notes : List (Note J T E)) : Prop where
  journal : after.journal = before.journal ++ notes
  mode : after.draining = before.draining
  /-- The tasks that began are the oldest of those that waited or were queued. -/
  queue : before.tasks ++ Note.tasks notes = Note.startedTasks notes ++ after.tasks
  patient : ∀ note ∈ notes, ensemble.Patient note

namespace Conducts

theorem trans
    {earlier later : List (Note J T E)}
    (first : ensemble.Conducts before middle earlier)
    (second : ensemble.Conducts middle after later) :
    ensemble.Conducts before after (earlier ++ later) where
  journal := by rw [second.journal, first.journal, List.append_assoc]
  mode := second.mode.trans first.mode
  queue := by
    rw [Note.tasks_append, Note.startedTasks_append, <- List.append_assoc, first.queue,
      List.append_assoc, second.queue, List.append_assoc]
  patient note member :=
    (List.mem_append.1 member).elim (first.patient note) (second.patient note)

/-- The tasks stay as they are. -/
theorem aside
    (journal : after.journal = before.journal ++ notes)
    (mode : after.draining = before.draining)
    (tasks : after.tasks = before.tasks)
    (still : Note.tasks notes = [] ∧ Note.startedTasks notes = [])
    (patient : ∀ note ∈ notes, ensemble.Patient note) :
    ensemble.Conducts before after notes where
  journal := journal
  mode := mode
  queue := by rw [still.1, still.2, tasks, List.append_nil, List.nil_append]
  patient := patient

end Conducts

/-- How host tasks are run. -/
def conducting (ensemble : Ensemble W J T E) : Habit W J T E where
  leads before after := ∃ notes, ensemble.Conducts before after notes
  refl _ := ⟨[], .aside (List.append_nil _).symm rfl rfl ⟨rfl, rfl⟩ nofun⟩
  trans := fun ⟨_, first⟩ ⟨_, second⟩ => ⟨_, first.trans second⟩
  write _ _ := ⟨[], .aside (List.append_nil _).symm rfl rfl ⟨rfl, rfl⟩ nofun⟩
  enqueueMicrotask _ job := ⟨[.enqueued job], .aside rfl rfl rfl ⟨rfl, rfl⟩ fun note member => by
    rw [List.mem_singleton.1 member]
    trivial⟩
  enqueueTask _ task := ⟨[.enqueuedTask task], rfl, rfl, rfl, fun note member => by
    rw [List.mem_singleton.1 member]
    trivial⟩

/-- An entry that is not about tasks is made. -/
theorem conducting_note
    (context : Context W J T E)
    {entry : Note J T E}
    (still : Note.tasks [entry] = [] ∧ Note.startedTasks [entry] = [])
    (patient : ensemble.Patient entry) :
    ensemble.conducting.leads context (context.note entry) :=
  ⟨[entry], .aside rfl rfl rfl still fun note member => by
    rw [List.mem_singleton.1 member]
    exact patient⟩

/-- The loop changes without its tasks. -/
theorem conducting_withLoop
    (mode : loop.inCheckpoint = before.draining)
    (tasks : loop.tasks = before.loop.tasks) :
    ensemble.conducting.leads before { before with loop } :=
  ⟨[], .aside (List.append_nil _).symm mode (congrArg JobQueue.jobs tasks) ⟨rfl, rfl⟩ nofun⟩

/-- The hook of a context conducts. -/
theorem conducting_finish (ensemble : Ensemble W J T E) (context : Context W J T E) :
    ensemble.conducting.leads context (ensemble.finish context) := by
  have begun : ensemble.conducting.leads context
      { context.note .finished with world := (ensemble.finished context.world).1 } :=
    ensemble.conducting.trans
      (show ensemble.conducting.leads context (context.note .finished) from
        conducting_note context ⟨rfl, rfl⟩ trivial)
      (ensemble.conducting.write _ _)
  have queued := List.foldlRecOn (motive := ensemble.conducting.leads context)
    (ensemble.finished context.world).2.1 Context.enqueueMicrotask begun
    fun middle leads job _ => ensemble.conducting.trans leads
      (ensemble.conducting.enqueueMicrotask middle job)
  exact List.foldlRecOn (motive := ensemble.conducting.leads context)
    (ensemble.finished context.world).2.2 Context.enqueueTask queued
    fun middle leads task _ => ensemble.conducting.trans leads
      (ensemble.conducting.enqueueTask middle task)

/-- What waits after the hook of a context if nothing did before. -/
theorem microtasks_finish
    (ensemble : Ensemble W J T E)
    {context : Context W J T E}
    (empty : context.microtasks = []) :
    (ensemble.finish context).microtasks = (ensemble.finished context.world).2.1 := by
  rw [finish_eq]
  exact congrArg (· ++ (ensemble.finished context.world).2.1) empty

/-! ## Jobs and checkpoints -/

section

variable (kept : ∀ activity before, ensemble.conducting.Kept before (run activity before))
include kept

theorem conducting_runMicrotask
    {job : J}
    (taken : before.loop.nextMicrotask? = some (job, loop)) :
    ensemble.conducting.Kept before
      ((ensemble.schedulerOf run).runMicrotask job { before with loop }) := by
  have same := (EventLoop.nextMicrotask?_eq_some taken).2
  have leaves : ensemble.conducting.leads before { before with loop } :=
    conducting_withLoop (by rw [same]; rfl) (by rw [same])
  have starts : ensemble.conducting.leads { before with loop }
      (note { before with loop } (.started job)) :=
    conducting_note _ ⟨rfl, rfl⟩ trivial
  exact .since (ensemble.conducting.trans leaves starts)
    (Course.kept_noting
      (fun after outcome => show ensemble.conducting.leads after (after.note (.ended outcome)) from
        conducting_note after ⟨rfl, rfl⟩ trivial)
      (kept _ _))

/-- A host task is taken in a calm moment and run. -/
theorem conducting_runTask
    {task : T}
    (calm : ensemble.Calm before.microtasks before.draining)
    (taken : before.loop.nextTask? = some (task, loop)) :
    ensemble.conducting.Kept before
      ((ensemble.schedulerOf run).runTask task { before with loop }) := by
  obtain ⟨oldest, same⟩ := EventLoop.nextTask?_eq_some taken
  have starts : ensemble.conducting.leads before
      (note { before with loop } (.startedTask task loop.microtasks.jobs loop.inCheckpoint)) := by
    refine ⟨[.startedTask task loop.microtasks.jobs loop.inCheckpoint], rfl, ?_,
      (List.append_nil _).trans oldest, fun note member => ?_⟩
    · show loop.inCheckpoint = before.loop.inCheckpoint
      rw [same]
    · rw [List.mem_singleton.1 member, same]
      exact calm
  exact .since starts
    (Course.kept_noting
      (fun after outcome =>
        show ensemble.conducting.leads after (after.note (.endedTask outcome)) from
          conducting_note after ⟨rfl, rfl⟩ trivial)
      (kept _ _))

/-- A checkpoint leaves the host tasks in their order. -/
theorem conducting_checkpoint
    (fuel : Nat)
    (before : Context W J T E) :
    ensemble.conducting.Kept before ((ensemble.schedulerOf run).checkpoint fuel before) := by
  by_cases draining : before.draining = true
  · rw [checkpoint_of_draining draining]
    exact ensemble.conducting.refl before
  · have outermost : before.loop.inCheckpoint = false := Bool.eq_false_iff.2 draining
    have drains : ensemble.conducting.Kept { before with loop := before.loop.openCheckpoint }
        ((ensemble.schedulerOf run).drain fuel 0
          { before with loop := before.loop.openCheckpoint }) :=
      Habit.kept_drain (fun _ _ _ taken => conducting_runMicrotask kept taken) fuel 0 _
    -- The mode changes twice, and at the end it is what it was.
    have closes {after : Context W J T E} (counted : Bool)
        (leads : ensemble.conducting.leads
          { before with loop := before.loop.openCheckpoint } after) :
        ensemble.conducting.leads before
          { after with loop := after.loop.closeCheckpoint counted } := by
      obtain ⟨notes, conducts⟩ := leads
      exact ⟨notes, conducts.journal, outermost.symm, conducts.queue, conducts.patient⟩
    cases stopped : (ensemble.schedulerOf run).drain fuel 0
        { before with loop := before.loop.openCheckpoint } with
    | ok ran after =>
        rw [Scheduler.checkpoint_of_drained outermost stopped]
        rw [stopped] at drains
        exact ensemble.conducting.trans (closes _ drains) (ensemble.conducting_finish _)
    | error halt after =>
        rw [Scheduler.checkpoint_of_stopped outermost stopped]
        rw [stopped] at drains
        exact closes _ drains

end

/-- After a checkpoint that succeeds it is calm. -/
theorem calm_of_checkpoint
    {fuel ran : Nat}
    (settled : (ensemble.schedulerOf run).checkpoint fuel before = .ok ran after) :
    ensemble.Calm after.microtasks after.draining := by
  by_cases draining : before.draining = true
  · rw [checkpoint_of_draining draining] at settled
    cases settled
    exact .inl draining
  · have outermost : before.loop.inCheckpoint = false := Bool.eq_false_iff.2 draining
    cases stopped : (ensemble.schedulerOf run).drain fuel 0
        { before with loop := before.loop.openCheckpoint } with
    | ok ran middle =>
        rw [Scheduler.checkpoint_of_drained outermost stopped] at settled
        cases settled
        exact .inr ⟨_, ensemble.microtasks_finish (Scheduler.empty_of_drained stopped)⟩
    | error halt middle =>
        rw [Scheduler.checkpoint_of_stopped outermost stopped] at settled
        cases settled

/-- So the loop conducts if what it runs does. -/
theorem conducting_runUntilIdle
    (kept : ∀ activity before, ensemble.conducting.Kept before (run activity before))
    (fuel : Nat)
    (before : Context W J T E) :
    ensemble.conducting.Kept before ((ensemble.schedulerOf run).runUntilIdle fuel before) :=
  Habit.kept_runUntilIdle (conducting_checkpoint kept fuel)
    (fun _ _ middle settled =>
      Habit.kept_runTasks (fun context => ensemble.Calm context.microtasks context.draining)
        (fun _ _ _ calm taken => conducting_runTask kept calm taken)
        (conducting_checkpoint kept fuel) (fun _ _ _ => calm_of_checkpoint) fuel middle
        (calm_of_checkpoint settled))
    before

/-- On every level activities conduct. -/
theorem conducting_perform
    (level : Nat)
    (activity : Activity W J T E)
    (before : Context W J T E) :
    ensemble.conducting.Kept before (ensemble.perform level activity before) := by
  induction level generalizing activity before with
  | zero => exact ensemble.conducting.refl before
  | succ level lower =>
      refine Habit.kept_run ⟨fun before => ?_, conducting_runUntilIdle lower level⟩ activity before
      have answers : ∀ (context : Context W J T E) answer,
          ensemble.conducting.leads context (context.note (.answered answer)) :=
        fun context answer => conducting_note context ⟨rfl, rfl⟩ trivial
      have kept := conducting_checkpoint lower level before
      split
      · next stopped =>
          rw [stopped] at kept
          exact ensemble.conducting.trans kept (answers _ _)
      · next stopped =>
          rw [stopped] at kept
          exact ensemble.conducting.trans kept (answers _ _)
      · next stopped =>
          rw [stopped] at kept
          exact kept

/-! ## The order of host tasks -/

/-- A run of the loop that succeeds leaves no task, and it ends in a calm moment. -/
theorem calm_of_idle
    {fuel : Nat}
    {stats : LoopStats}
    (idle : (ensemble.schedulerOf run).runUntilIdle fuel before = .ok stats after) :
    after.tasks = [] ∧ ensemble.Calm after.microtasks after.draining := by
  rw [Scheduler.runUntilIdle_eq] at idle
  split at idle
  · cases idle
  · next settled =>
      split at idle
      · cases idle
      · next ended =>
          cases idle
          exact ⟨Scheduler.empty_of_ranTasks ended, Scheduler.settled_of_ranTasks
            (fun context => ensemble.Calm context.microtasks context.draining)
            (fun _ _ _ => calm_of_checkpoint) (calm_of_checkpoint settled) ended⟩

/-- In a run of the loop, host tasks begin in the order in which they were queued, and, unless a
checkpoint is under way, only when no microtasks wait but those that the context queued after the
last checkpoint. When the run succeeds no task is left. Unless it was asked for by a microtask, no
microtask is left either, as long as the context queues none itself. -/
theorem host_tasks_in_order
    (ensemble : Ensemble W J T E)
    (level fuel : Nat)
    (before : Context W J T E) :
    match (ensemble.scheduler level).runUntilIdle fuel before with
    | .ok _ after =>
        (∃ notes, ensemble.Conducts before after notes) ∧ after.tasks = [] ∧
          (before.draining = false -> ensemble.Restful -> after.microtasks = [])
    | .error _ after => ∃ notes, ensemble.Conducts before after notes := by
  have kept := conducting_runUntilIdle (ensemble.conducting_perform level) fuel before
  unfold scheduler
  split
  · next stats after idle =>
      rw [idle] at kept
      obtain ⟨notes, conducts⟩ := kept
      obtain ⟨done, calm⟩ := calm_of_idle idle
      refine ⟨⟨notes, conducts⟩, done, fun outermost restful => ?_⟩
      rw [conducts.mode, outermost] at calm
      exact calm.empty restful
  · next stopped =>
      rw [stopped] at kept
      exact kept

/-- A microtask runs the loop while another one waits. -/
def hasty : Ensemble Unit Bool Unit Unit where
  microtask := fun first =>
    if first then .runUntilIdle fun _ => .finish (.ok ()) else .finish (.ok ())
  task := fun _ => .finish (.ok ())

/-- The host task overtakes the microtask that waits. -/
theorem task_overtakes_microtask :
    hasty.Restful ∧
      (match (hasty.scheduler 3).runUntilIdle 5 {
          world := ()
          loop := { tasks := { jobs := [()] }, microtasks := { jobs := [true, false] } } } with
      | .ok _ after => after.journal.any fun
          | .startedTask _ waiting _ => waiting == [false]
          | _ => false
      | .error _ _ => false) = true :=
  ⟨fun _ => rfl, by decide +kernel⟩

end Ensemble
end ScriptVM

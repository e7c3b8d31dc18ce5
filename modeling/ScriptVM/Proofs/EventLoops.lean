import ScriptVM.Schedule.EventLoop

/-!
# Event loops and ensembles

The queues of an event loop hand out the oldest job. What a checkpoint does depends on whether
one is under way, and a run of the loop is a checkpoint and then one host task after the other.

An event loop is driven on behalf of a context that knows what its jobs do. In an ensemble every
microtask and every host task has an activity: it looks at the context, changes it, queues more
work, asks for checkpoints and for whole runs of the loop, and in the end succeeds or fails. The
context keeps a journal of all this, which a run only ever continues.

Activities can ask for the loop that runs them. So the scheduler of an ensemble has levels, and
an activity that is run on one level finds the loop on the level below.
-/

namespace ScriptVM

variable {J T E : Type}

/-! ## Taking jobs -/

namespace EventLoop

variable {loop rest : EventLoop J T}

theorem nextMicrotask?_eq_some {job : J} (taken : loop.nextMicrotask? = some (job, rest)) :
    loop.microtasks.jobs = job :: rest.microtasks.jobs ∧
      rest = { loop with
        microtasks := rest.microtasks
        stats := { loop.stats with microtasks := loop.stats.microtasks + 1 } } := by
  unfold nextMicrotask? JobQueue.dequeue? at taken
  cases queued : loop.microtasks.jobs with
  | nil => simp [queued] at taken
  | cons first others =>
      rw [queued] at taken
      cases taken
      exact ⟨rfl, rfl⟩

theorem nextMicrotask?_eq_none (empty : loop.nextMicrotask? = none) :
    loop.microtasks.jobs = [] := by
  unfold nextMicrotask? JobQueue.dequeue? at empty
  cases queued : loop.microtasks.jobs with
  | nil => rfl
  | cons first others => simp [queued] at empty

theorem nextTask?_eq_some {task : T} (taken : loop.nextTask? = some (task, rest)) :
    loop.tasks.jobs = task :: rest.tasks.jobs ∧
      rest = { loop with
        tasks := rest.tasks
        stats := { loop.stats with tasks := loop.stats.tasks + 1 } } := by
  unfold nextTask? JobQueue.dequeue? at taken
  cases queued : loop.tasks.jobs with
  | nil => simp [queued] at taken
  | cons first others =>
      rw [queued] at taken
      cases taken
      exact ⟨rfl, rfl⟩

theorem nextTask?_eq_none (empty : loop.nextTask? = none) : loop.tasks.jobs = [] := by
  unfold nextTask? JobQueue.dequeue? at empty
  cases queued : loop.tasks.jobs with
  | nil => rfl
  | cons first others => simp [queued] at empty

end EventLoop

namespace Scheduler

variable {rounds : Nat}

variable {S : Type} {scheduler : Scheduler S J T E} {state after : S}
  {fuel ran total : Nat} {error : E}

/-- A checkpoint that is not asked for during another one drains the queue and tells the
context. -/
theorem checkpoint_of_drained
    (outermost : (scheduler.loop state).inCheckpoint = false)
    (drained : scheduler.drain fuel 0
      (scheduler.withLoop (scheduler.loop state).openCheckpoint state) = .ok ran after) :
    scheduler.checkpoint fuel state = .ok ran (scheduler.checkpointFinished
      (scheduler.withLoop ((scheduler.loop after).closeCheckpoint
        (!(scheduler.loop state).microtasks.isEmpty)) after)) := by
  simp [checkpoint, outermost, drained]

/-- When a job fails the checkpoint ends with it. -/
theorem checkpoint_of_stopped
    (outermost : (scheduler.loop state).inCheckpoint = false)
    (stopped : scheduler.drain fuel 0
      (scheduler.withLoop (scheduler.loop state).openCheckpoint state) = .error error after) :
    scheduler.checkpoint fuel state = .error error
      (scheduler.withLoop ((scheduler.loop after).closeCheckpoint
        (!(scheduler.loop state).microtasks.isEmpty)) after) := by
  simp [checkpoint, outermost, stopped]

/-- A drain that succeeds has emptied the queue. -/
theorem empty_of_drained (drained : scheduler.drain fuel ran state = .ok total after) :
    (scheduler.loop after).microtasks.jobs = [] := by
  induction fuel generalizing ran state with
  | zero => cases drained
  | succ fuel step =>
      unfold drain at drained
      split at drained
      · next empty =>
          cases drained
          exact EventLoop.nextMicrotask?_eq_none empty
      · split at drained
        · exact step drained
        · cases drained

/-- A run of host tasks that succeeds has emptied their queue. -/
theorem empty_of_ranTasks
    (idle : scheduler.runTasks fuel rounds state = .ok () after) :
    (scheduler.loop after).tasks.jobs = [] := by
  induction rounds generalizing state with
  | zero => cases idle
  | succ rounds step =>
      unfold runTasks at idle
      split at idle
      · next empty =>
          cases idle
          exact EventLoop.nextTask?_eq_none empty
      · split at idle
        · cases idle
        · split at idle
          · cases idle
          · exact step idle

/-- After a run of host tasks that succeeds, what each checkpoint ensures still holds. -/
theorem settled_of_ranTasks
    (may : S -> Prop)
    (settles : ∀ before ran after, scheduler.checkpoint fuel before = .ok ran after -> may after)
    (settled : may state)
    (idle : scheduler.runTasks fuel rounds state = .ok () after) :
    may after := by
  induction rounds generalizing state with
  | zero => cases idle
  | succ rounds step =>
      unfold runTasks at idle
      split at idle
      · cases idle
        exact settled
      · split at idle
        · cases idle
        · split at idle
          · cases idle
          · next drained => exact step (settles _ _ _ drained) idle

/-- A run of the loop is a checkpoint and then one task after the other. -/
theorem runUntilIdle_eq (scheduler : Scheduler S J T E) (fuel : Nat) (state : S) :
    scheduler.runUntilIdle fuel state =
      match scheduler.checkpoint fuel state with
      | .error error after => .error error after
      | .ok _ middle =>
          match scheduler.runTasks fuel fuel middle with
          | .error error after => .error error after
          | .ok () after =>
              .ok {
                tasks := (scheduler.loop after).stats.tasks - (scheduler.loop state).stats.tasks
                microtasks := (scheduler.loop after).stats.microtasks -
                  (scheduler.loop state).stats.microtasks
                checkpoints := (scheduler.loop after).stats.checkpoints -
                  (scheduler.loop state).stats.checkpoints } after := by
  have reads : (EStateM.get : EStateM E S S) state = .ok state state := rfl
  simp only [Scheduler.runUntilIdle, bind, EStateM.bind, get, getThe, MonadStateOf.get, reads,
    pure, EStateM.pure]
  cases scheduler.checkpoint fuel state with
  | error halt after => rfl
  | ok ran middle =>
      dsimp only
      cases scheduler.runTasks fuel fuel middle <;> rfl

end Scheduler

variable {W : Type}

/-- What a job does to a context with a state of type `W`, microtasks of type `J`, host tasks of
type `T` and errors of type `E`. -/
inductive Activity (W J T E : Type)
  | finish (outcome : Except E Unit)
  /-- Look at the state and at the queues of the context. -/
  | inspect (next : W -> EventLoop J T -> Activity W J T E)
  | write (world : W) (next : Activity W J T E)
  | enqueueMicrotask (job : J) (next : Activity W J T E)
  | enqueueTask (task : T) (next : Activity W J T E)
  /-- Ask for a checkpoint and go on with its answer. -/
  | checkpoint (next : Except E Nat -> Activity W J T E)
  /-- Ask for a run of the loop and go on with its answer. -/
  | runUntilIdle (next : Except E LoopStats -> Activity W J T E)

/-- An entry of a journal. -/
inductive Note (J T E : Type)
  | enqueued (job : J)
  | enqueuedTask (task : T)
  /-- A microtask begins. -/
  | started (job : J)
  | ended (outcome : Except E Unit)
  /-- A host task begins while these microtasks wait, inside a checkpoint or not. -/
  | startedTask (task : T) (waiting : List J) (draining : Bool)
  | endedTask (outcome : Except E Unit)
  /-- A job asked for a checkpoint and got this answer. -/
  | answered (answer : Except E Nat)
  /-- A checkpoint emptied the queue of microtasks. -/
  | finished

/-- The state of an ensemble with its event loop and its journal. -/
structure Context (W J T E : Type) where
  world : W
  loop : EventLoop J T := {}
  /-- What happened, oldest first. -/
  journal : List (Note J T E) := []

/-- Why a run of an ensemble stopped early. -/
inductive Halt (E : Type)
  | failed (error : E)
  | outOfFuel

namespace Context

/-- Add an entry to the journal. -/
def note (context : Context W J T E) (entry : Note J T E) : Context W J T E :=
  { context with journal := context.journal ++ [entry] }

/-- Queue a microtask. -/
def enqueueMicrotask (context : Context W J T E) (job : J) : Context W J T E :=
  { context.note (.enqueued job) with loop := context.loop.enqueueMicrotask job }

/-- Queue a host task. -/
def enqueueTask (context : Context W J T E) (task : T) : Context W J T E :=
  { context.note (.enqueuedTask task) with loop := context.loop.enqueueTask task }

/-- The microtasks that wait, oldest first. -/
def microtasks (context : Context W J T E) : List J :=
  context.loop.microtasks.jobs

/-- The host tasks that wait, oldest first. -/
def tasks (context : Context W J T E) : List T :=
  context.loop.tasks.jobs

/-- A checkpoint is under way. -/
def draining (context : Context W J T E) : Bool :=
  context.loop.inCheckpoint

end Context

/-- A computation of an ensemble. -/
abbrev Course (W J T E α : Type) := EStateM (Halt E) (Context W J T E) α

/-- Run a computation and note how it ended. -/
def Course.noting (computation : Course W J T E Unit)
    (entry : Except E Unit -> Note J T E) : Course W J T E Unit :=
  fun context =>
    match computation context with
    | .ok () context => .ok () (context.note (entry (.ok ())))
    | .error (.failed error) context =>
        .error (.failed error) (context.note (entry (.error error)))
    | .error .outOfFuel context => .error .outOfFuel context

/-- Run an activity; the loop that it asks for is that of a given scheduler. -/
def Activity.run (inner : Scheduler (Context W J T E) J T (Halt E)) (fuel : Nat) :
    Activity W J T E -> Course W J T E Unit
  | finish (.ok ()) => fun context => .ok () context
  | finish (.error error) => fun context => .error (.failed error) context
  | inspect next => fun context => (next context.world context.loop).run inner fuel context
  | write world next => fun context => next.run inner fuel { context with world }
  | enqueueMicrotask job next => fun context =>
      next.run inner fuel (context.enqueueMicrotask job)
  | enqueueTask task next => fun context => next.run inner fuel (context.enqueueTask task)
  | checkpoint next => fun context =>
      match inner.checkpoint fuel context with
      | .ok ran context =>
          (next (.ok ran)).run inner fuel (context.note (.answered (.ok ran)))
      | .error (.failed error) context =>
          (next (.error error)).run inner fuel (context.note (.answered (.error error)))
      | .error .outOfFuel context => .error .outOfFuel context
  | runUntilIdle next => fun context =>
      match inner.runUntilIdle fuel context with
      | .ok stats context => (next (.ok stats)).run inner fuel context
      | .error (.failed error) context => (next (.error error)).run inner fuel context
      | .error .outOfFuel context => .error .outOfFuel context

/-- What the jobs of a context do, and what the context does after each checkpoint that emptied
the queue: it goes to another state and queues more work. -/
structure Ensemble (W J T E : Type) where
  microtask : J -> Activity W J T E
  task : T -> Activity W J T E
  finished : W -> W × List J × List T := fun world => (world, [], [])

namespace Ensemble

/-- After a checkpoint no microtask is queued. -/
def Restful (ensemble : Ensemble W J T E) : Prop :=
  ∀ world, (ensemble.finished world).2.1 = []

/-- What the context does after a checkpoint. -/
def finish (ensemble : Ensemble W J T E) (context : Context W J T E) : Context W J T E :=
  let (world, jobs, tasks) := ensemble.finished context.world
  let context := { context.note .finished with world }
  tasks.foldl Context.enqueueTask (jobs.foldl Context.enqueueMicrotask context)

/-- The scheduler that runs activities in a given way. -/
def schedulerOf (ensemble : Ensemble W J T E)
    (run : Activity W J T E -> Course W J T E Unit) :
    Scheduler (Context W J T E) J T (Halt E) where
  loop := Context.loop
  withLoop := fun loop context => { context with loop }
  runMicrotask := fun job context =>
    Course.noting (run (ensemble.microtask job)) .ended (context.note (.started job))
  runTask := fun task context =>
    Course.noting (run (ensemble.task task)) .endedTask
      (context.note (.startedTask task context.microtasks context.draining))
  checkpointFinished := ensemble.finish
  outOfFuel := .outOfFuel

/-- How activities are run on some level. -/
def perform (ensemble : Ensemble W J T E) : Nat -> Activity W J T E -> Course W J T E Unit
  | 0 => fun _ context => .error .outOfFuel context
  | level + 1 => Activity.run (ensemble.schedulerOf (ensemble.perform level)) level

/-- The scheduler of an ensemble on some level. -/
def scheduler (ensemble : Ensemble W J T E) (level : Nat) :
    Scheduler (Context W J T E) J T (Halt E) :=
  ensemble.schedulerOf (ensemble.perform level)

end Ensemble
/-!
## Habits of activities

What activities have in common is a relation between the contexts before and after. If each thing
that an activity can do keeps to it, and the loop that it asks for, then so do whole activities,
and so does the loop that runs them.
-/

variable {α : Type}

/-- How activities lead from context to context. -/
structure Habit (W J T E : Type) where
  leads : Context W J T E -> Context W J T E -> Prop
  refl (context : Context W J T E) : leads context context
  trans {first second third : Context W J T E} :
    leads first second -> leads second third -> leads first third
  write (context : Context W J T E) (world : W) : leads context { context with world }
  enqueueMicrotask (context : Context W J T E) (job : J) :
    leads context (context.enqueueMicrotask job)
  enqueueTask (context : Context W J T E) (task : T) :
    leads context (context.enqueueTask task)

namespace Habit

variable {habit : Habit W J T E} {before middle after : Context W J T E}
  {inner : Scheduler (Context W J T E) J T (Halt E)} {fuel : Nat}
  {scheduler : Scheduler (Context W J T E) J T (Halt E)}

/-- The habit leads to where a computation ends. -/
def Kept
    (habit : Habit W J T E)
    (before : Context W J T E) :
    EStateM.Result (Halt E) (Context W J T E) α -> Prop
  | .ok _ after | .error _ after => habit.leads before after

theorem Kept.since
    {result : EStateM.Result (Halt E) (Context W J T E) α}
    (earlier : habit.leads before middle)
    (kept : habit.Kept middle result) :
    habit.Kept before result := by
  cases result with
  | ok answer after => exact habit.trans earlier kept
  | error halt after => exact habit.trans earlier kept

/-- The habit is kept by the loop that activities ask for. -/
structure Allows
    (habit : Habit W J T E)
    (inner : Scheduler (Context W J T E) J T (Halt E))
    (fuel : Nat) : Prop where
  checkpoint : ∀ before,
    match inner.checkpoint fuel before with
    | .ok ran after => habit.leads before (after.note (.answered (.ok ran)))
    | .error (.failed error) after => habit.leads before (after.note (.answered (.error error)))
    | .error .outOfFuel after => habit.leads before after
  runUntilIdle : ∀ before, habit.Kept before (inner.runUntilIdle fuel before)

/-- Then it is kept by the activities. -/
theorem kept_run
    (allows : habit.Allows inner fuel)
    (activity : Activity W J T E)
    (before : Context W J T E) :
    habit.Kept before (activity.run inner fuel before) := by
  induction activity generalizing before with
  | finish outcome =>
      cases outcome with
      | ok _ => exact habit.refl before
      | error _ => exact habit.refl before
  | inspect next step => exact step before.world before.loop before
  | write world next step => exact .since (habit.write before world) (step _)
  | enqueueMicrotask job next step =>
      exact .since (habit.enqueueMicrotask before job) (step _)
  | enqueueTask task next step => exact .since (habit.enqueueTask before task) (step _)
  | checkpoint next step =>
      have asked := allows.checkpoint before
      unfold Activity.run
      split
      · next ran after answered =>
          rw [answered] at asked
          exact .since asked (step (.ok ran) _)
      · next error after answered =>
          rw [answered] at asked
          exact .since asked (step (.error error) _)
      · next after answered =>
          rw [answered] at asked
          exact asked
  | runUntilIdle next step =>
      have asked := allows.runUntilIdle before
      unfold Activity.run
      split
      · next stats after answered =>
          rw [answered] at asked
          exact .since asked (step (.ok stats) _)
      · next error after answered =>
          rw [answered] at asked
          exact .since asked (step (.error error) _)
      · next after answered =>
          rw [answered] at asked
          exact asked

/-- The habit is kept while the queue of microtasks is drained if it is kept by each of them. -/
theorem kept_drain
    (runs : ∀ before job loop, (scheduler.loop before).nextMicrotask? = some (job, loop) ->
      habit.Kept before (scheduler.runMicrotask job (scheduler.withLoop loop before)))
    (fuel ran : Nat)
    (before : Context W J T E) :
    habit.Kept before (scheduler.drain fuel ran before) := by
  induction fuel generalizing ran before with
  | zero => exact habit.refl before
  | succ fuel step =>
      unfold Scheduler.drain
      split
      · exact habit.refl before
      · next job loop taken =>
          have ran := runs before job loop taken
          split
          · next middle ended =>
              rw [ended] at ran
              exact .since ran (step _ middle)
          · next halt after ended =>
              rw [ended] at ran
              exact ran

/-- The habit is kept while host tasks run if it is kept by each task and by each checkpoint,
from where a task may be taken. -/
theorem kept_runTasks
    (may : Context W J T E -> Prop)
    (runs : ∀ before task loop, may before ->
      (scheduler.loop before).nextTask? = some (task, loop) ->
      habit.Kept before (scheduler.runTask task (scheduler.withLoop loop before)))
    (drains : ∀ before, habit.Kept before (scheduler.checkpoint fuel before))
    (settles : ∀ before ran after, scheduler.checkpoint fuel before = .ok ran after -> may after)
    (rounds : Nat)
    (before : Context W J T E)
    (allowed : may before) :
    habit.Kept before (scheduler.runTasks fuel rounds before) := by
  induction rounds generalizing before with
  | zero => exact habit.refl before
  | succ rounds step =>
      unfold Scheduler.runTasks
      split
      · exact habit.refl before
      · next task loop taken =>
          have ran := runs before task loop allowed taken
          split
          · next halt after ended =>
              rw [ended] at ran
              exact ran
          · next middle ended =>
              rw [ended] at ran
              have drained := drains middle
              split
              · next halt after stopped =>
                  rw [stopped] at drained
                  exact habit.trans ran drained
              · next count after settled =>
                  rw [settled] at drained
                  exact .since (habit.trans ran drained)
                    (step after (settles middle count after settled))

/-- So it is kept by a run of the whole loop. -/
theorem kept_runUntilIdle
    (drains : ∀ before, habit.Kept before (scheduler.checkpoint fuel before))
    (tasks : ∀ before ran after, scheduler.checkpoint fuel before = .ok ran after ->
      habit.Kept after (scheduler.runTasks fuel fuel after))
    (before : Context W J T E) :
    habit.Kept before (scheduler.runUntilIdle fuel before) := by
  have drained := drains before
  rw [Scheduler.runUntilIdle_eq]
  split
  · next halt after stopped =>
      rw [stopped] at drained
      exact drained
  · next ran middle settled =>
      rw [settled] at drained
      have rest := tasks before ran middle settled
      split
      · next halt after stopped =>
          rw [stopped] at rest
          exact habit.trans drained rest
      · next after idle =>
          rw [idle] at rest
          exact habit.trans drained rest

end Habit

/-- A computation whose end is noted keeps a habit that allows the note. -/
theorem Course.kept_noting
    {habit : Habit W J T E}
    {before : Context W J T E}
    {computation : Course W J T E Unit}
    {entry : Except E Unit -> Note J T E}
    (noted : ∀ context outcome, habit.leads context (context.note (entry outcome)))
    (kept : habit.Kept before (computation before)) :
    habit.Kept before (computation.noting entry before) := by
  unfold Course.noting
  split
  · next after ended =>
      rw [ended] at kept
      exact habit.trans kept (noted after _)
  · next error after ended =>
      rw [ended] at kept
      exact habit.trans kept (noted after _)
  · next after ended =>
      rw [ended] at kept
      exact kept

end ScriptVM

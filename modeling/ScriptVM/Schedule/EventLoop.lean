import ScriptVM.Schedule.JobQueue

/-!
# The event loop

Host tasks run one at a time, and after each the microtask queue is drained in a
checkpoint, including what the microtasks themselves enqueue. A checkpoint asked
for while another one drains does nothing, since the outer one picks up the work.
An error stops the loop and leaves the rest of the work queued.

The loop is generic in the scheduler, which says how jobs run and where the
queues live. Draining need not end, so it is bounded by fuel.
-/

namespace ScriptVM

/-- Counters over the lifetime of an event loop. -/
structure LoopStats where
  tasks : Nat := 0
  microtasks : Nat := 0
  /-- Checkpoints that ran at least one microtask. -/
  checkpoints : Nat := 0
  deriving DecidableEq, Repr

/-- Queues of microtasks of type `J` and host tasks of type `T`. -/
structure EventLoop (J T : Type) where
  tasks : JobQueue T := {}
  microtasks : JobQueue J := {}
  /-- A checkpoint is draining the microtask queue. -/
  inCheckpoint : Bool := false
  stats : LoopStats := {}

namespace EventLoop

variable {J T : Type}

/-- Add a host task. -/
def enqueueTask (loop : EventLoop J T) (task : T) : EventLoop J T :=
  { loop with tasks := loop.tasks.enqueue task }

/-- Add a microtask. -/
def enqueueMicrotask (loop : EventLoop J T) (job : J) : EventLoop J T :=
  { loop with microtasks := loop.microtasks.enqueue job }

/-- There is no queued work at all. -/
def isIdle (loop : EventLoop J T) : Bool :=
  loop.tasks.isEmpty && loop.microtasks.isEmpty

/-- Drop all queued work and count the tasks and microtasks dropped. -/
def discard (loop : EventLoop J T) : (Nat × Nat) × EventLoop J T :=
  ((loop.tasks.size, loop.microtasks.size), { loop with tasks := {}, microtasks := {} })

/-- Take the oldest microtask and count it. -/
def nextMicrotask? (loop : EventLoop J T) : Option (J × EventLoop J T) :=
  match loop.microtasks.dequeue? with
  | none => none
  | some (job, microtasks) =>
      some (job, { loop with
        microtasks
        stats := { loop.stats with microtasks := loop.stats.microtasks + 1 } })

/-- Take the oldest host task and count it. -/
def nextTask? (loop : EventLoop J T) : Option (T × EventLoop J T) :=
  match loop.tasks.dequeue? with
  | none => none
  | some (task, tasks) =>
      some (task, { loop with
        tasks
        stats := { loop.stats with tasks := loop.stats.tasks + 1 } })

/-- Open a checkpoint. -/
def openCheckpoint (loop : EventLoop J T) : EventLoop J T :=
  { loop with inCheckpoint := true }

/-- Close a checkpoint and count it if it had anything to run. -/
def closeCheckpoint (counted : Bool) (loop : EventLoop J T) : EventLoop J T :=
  { loop with
    inCheckpoint := false
    stats := { loop.stats with
      checkpoints := loop.stats.checkpoints + counted.toNat } }

end EventLoop

/-- A context of type `S` that holds an event loop and can run its jobs. -/
structure Scheduler (S J T E : Type) where
  /-- The event loop of the context. -/
  loop : S -> EventLoop J T
  /-- Replace the event loop of the context. -/
  withLoop : EventLoop J T -> S -> S
  /-- Run one microtask to completion. -/
  runMicrotask : J -> EStateM E S Unit
  /-- Run one host task to completion. -/
  runTask : T -> EStateM E S Unit
  /-- Called after each checkpoint that emptied the queue. -/
  checkpointFinished : S -> S
  /-- The error of a loop whose fuel ran out. -/
  outOfFuel : E

namespace Scheduler

variable {S J T E : Type}

/-- Run microtasks until none is left and count them. -/
def drain (scheduler : Scheduler S J T E) : Nat -> Nat -> EStateM E S Nat
  | 0, _ => fun state => .error scheduler.outOfFuel state
  | fuel + 1, ran => fun state =>
      match (scheduler.loop state).nextMicrotask? with
      | none => .ok ran state
      | some (job, loop) =>
          match scheduler.runMicrotask job (scheduler.withLoop loop state) with
          | .ok () state => scheduler.drain fuel (ran + 1) state
          | .error error state => .error error state

/-- Drain the microtask queue unless a checkpoint is draining it already; count
the microtasks run. -/
def checkpoint (scheduler : Scheduler S J T E) (fuel : Nat) : EStateM E S Nat :=
  fun state =>
    let loop := scheduler.loop state
    if loop.inCheckpoint then .ok 0 state
    else
      let counted := !loop.microtasks.isEmpty
      let close := fun state =>
        scheduler.withLoop ((scheduler.loop state).closeCheckpoint counted) state
      match scheduler.drain fuel 0 (scheduler.withLoop loop.openCheckpoint state) with
      | .ok ran state => .ok ran (scheduler.checkpointFinished (close state))
      | .error error state => .error error (close state)

/-- Run host tasks until none is left, with a checkpoint after each. -/
def runTasks (scheduler : Scheduler S J T E) (fuel : Nat) : Nat -> EStateM E S Unit
  | 0 => fun state => .error scheduler.outOfFuel state
  | rounds + 1 => fun state =>
      match (scheduler.loop state).nextTask? with
      | none => .ok () state
      | some (task, loop) =>
          match scheduler.runTask task (scheduler.withLoop loop state) with
          | .error error state => .error error state
          | .ok () state =>
              match scheduler.checkpoint fuel state with
              | .error error state => .error error state
              | .ok _ state => scheduler.runTasks fuel rounds state

/-- Run until both queues are empty and count what was done on the way. -/
def runUntilIdle (scheduler : Scheduler S J T E) (fuel : Nat) : EStateM E S LoopStats := do
  let before := (scheduler.loop (<- get)).stats
  let _ <- scheduler.checkpoint fuel
  scheduler.runTasks fuel fuel
  let after := (scheduler.loop (<- get)).stats
  return {
    tasks := after.tasks - before.tasks
    microtasks := after.microtasks - before.microtasks
    checkpoints := after.checkpoints - before.checkpoints }

end Scheduler
end ScriptVM

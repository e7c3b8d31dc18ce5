/-!
# Job queues

A queue hands out jobs in the order in which they were added.
-/

namespace ScriptVM

/-- Jobs of type `J`, oldest first. -/
structure JobQueue (J : Type) where
  jobs : List J := []
  deriving Repr

namespace JobQueue

variable {J : Type}

/-- Add a job at the end. -/
def enqueue (queue : JobQueue J) (job : J) : JobQueue J :=
  { jobs := queue.jobs ++ [job] }

/-- Remove the oldest job. -/
def dequeue? (queue : JobQueue J) : Option (J × JobQueue J) :=
  match queue.jobs with
  | [] => none
  | job :: jobs => some (job, { jobs })

/-- The queue holds no job. -/
def isEmpty (queue : JobQueue J) : Bool :=
  queue.jobs.isEmpty

/-- Number of queued jobs. -/
def size (queue : JobQueue J) : Nat :=
  queue.jobs.length

end JobQueue
end ScriptVM

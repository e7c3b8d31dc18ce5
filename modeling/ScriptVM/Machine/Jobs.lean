import ScriptVM.Machine.Calls

/-!
# Jobs

What each queued microtask does, and the scheduler that drains the queues of a
machine.
-/

namespace ScriptVM
namespace Exec

variable {σ : Type}

/-- Run the handler of a reaction; resuming an async function gives no outcome. -/
def runHandler (handler : Handler) (settlement : Settlement) (argument : Value) :
    Exec σ (Option (Except Exception Value)) := do
  match handler with
  | .identity => return some (.ok argument)
  | .thrower => return some (.error (.value argument))
  | .callable function => return some (<- attempt (call function .undefined [argument]))
  | .asyncResume coroutine =>
      resumeAsync coroutine settlement argument
      return none

/-- Run a microtask. -/
def runJob : Job σ -> Exec σ Unit
  | .host body => do let _ <- runProgram body
  | .resolveThenable promise thenable thenMethod =>
      withResolvingFunctions promise fun resolve reject => do
        let _ <- call thenMethod thenable [resolve, reject]
  | .reaction handler capability settlement argument => do
      match <- runHandler handler settlement argument, capability with
      | none, _ | _, none => return ()
      | some (.ok value), some derived => resolvePromise derived value
      | some (.error exception), some derived => rejectWith derived exception

end Exec

/-- How a machine schedules its jobs. -/
def Machine.scheduler {σ : Type} (env : Env σ) :
    Scheduler (Machine σ) (Job σ) (HostProgram σ) (Stop σ) where
  loop := Machine.jobs
  withLoop := fun jobs machine => { machine with jobs }
  runMicrotask := fun job =>
    (do
      Exec.note (.started job)
      Exec.runJob job : Exec σ Unit) env
  runTask := fun task =>
    (do
      Exec.observe
      let _ <- Exec.runProgram task : Exec σ Unit) env
  checkpointFinished := fun machine =>
    let machine :=
      if machine.config.trackUnhandledRejections then machine.reportRejections else machine
    machine.note .finished
  outOfFuel := .outOfFuel

end ScriptVM

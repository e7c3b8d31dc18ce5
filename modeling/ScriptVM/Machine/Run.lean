import ScriptVM.Machine.Jobs

/-!
# Running a machine

Every invocation is performed by the operation that it names, which in turn gets an
environment with one unit of fuel less. So a machine is defined by recursion on
fuel, and an answer that it gives does not depend on how much there was.
-/

namespace ScriptVM
namespace Exec

variable {σ : Type}

/-- The operation that an invocation names. -/
def operation : (invocation : Invocation) -> Exec σ invocation.Answer
  | .call callee receiver arguments => callValue callee receiver arguments
  | .construct callee arguments newTarget => constructValue callee arguments newTarget
  | .get id key receiver => getWithReceiver id key receiver
  | .set id key value receiver => setWithReceiver id key value receiver
  | .has id key => hasProperty id key
  | .delete target key => deleteProperty target key false
  | .prototypeOf id => getPrototypeOf id
  | .instanceOf value target => instanceOf value target
  | .checkpoint => fun env => (Machine.scheduler env).checkpoint env.fuel
  | .untilIdle => fun env => (Machine.scheduler env).runUntilIdle env.fuel

end Exec

/-- Perform an invocation with a given amount of fuel, under a watch. -/
def performWithin {σ : Type} (watch : Sight σ -> Bool) :
    Nat -> (invocation : Invocation) -> Step σ invocation.Answer
  | 0, _ => fun machine => .error .outOfFuel machine
  | fuel + 1, invocation =>
      Exec.operation invocation { fuel, watch, perform := performWithin watch fuel }

namespace Env

variable {σ : Type}

/-- The environment of a run with a given amount of fuel, under a watch. -/
def watched (fuel : Nat) (watch : Sight σ -> Bool) : Env σ :=
  { fuel, watch, perform := performWithin watch fuel }

/-- The environment of a run with a given amount of fuel that nobody watches. -/
def ofFuel (fuel : Nat) : Env σ :=
  watched fuel fun _ => false

end Env

/-- Run a host program on a machine with a given amount of fuel. -/
def Machine.runWithin {σ : Type} (machine : Machine σ) (fuel : Nat)
    (program : HostProgram σ) : EStateM.Result (Stop σ) (Machine σ) Value :=
  Exec.runProgram program (Env.ofFuel fuel) machine

/-- More fuel than any run that ends can use up. -/
def ampleFuel : Nat := 4611686018427387904

/-- Run a host program on a machine. -/
def Machine.run {σ : Type} (machine : Machine σ) (program : HostProgram σ) :
    EStateM.Result (Stop σ) (Machine σ) Value :=
  machine.runWithin ampleFuel program

end ScriptVM

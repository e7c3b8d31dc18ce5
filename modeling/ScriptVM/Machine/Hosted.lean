import ScriptVM.Machine.Reply

/-!
# Host computations

Host programs in direct style: a computation gives an answer, and what follows it
is a computation again.
-/

namespace ScriptVM

/-- A computation of an embedder with state `σ`, which ends up in a host program. -/
def Hosted (σ α : Type) : Type :=
  (α -> HostProgram σ) -> HostProgram σ

namespace Hosted

variable {σ : Type}

instance : Monad (Hosted σ) where
  pure answer := fun next => next answer
  bind computation continuation := fun next =>
    computation fun answer => continuation answer next

/-- Ask for an operation. -/
def ask (request : Request) : Hosted σ request.Response :=
  fun next => .request request next

/-- Ask for an operation and take its reply. -/
def reply (request : Request) : Hosted σ Reply :=
  fun next => .request request fun answer => next (request.reply answer)

/-- The state of the embedder. -/
def world : Hosted σ σ :=
  fun next => .read next

/-- Change the state of the embedder. -/
def changeWorld (change : σ -> σ) : Hosted σ Unit :=
  fun next => .read fun world => .write (change world) (next ())

/-- Install a function as a global. -/
def register (name : String) (arity : Nat) (body : HostFunction σ) : Hosted σ Value :=
  fun next => .register name arity body next

/-- Queue a program as a host task. -/
def enqueueTask (body : HostProgram σ) : Hosted σ Unit :=
  fun next => .enqueueTask body (next ())

/-- Queue a program as a microtask. -/
def enqueueMicrotask (body : HostProgram σ) : Hosted σ Unit :=
  fun next => .enqueueMicrotask body (next ())

/-- The program of a computation with an outcome. -/
def program (computation : Hosted σ (Except Exception Value)) : HostProgram σ :=
  computation .finish

end Hosted
end ScriptVM

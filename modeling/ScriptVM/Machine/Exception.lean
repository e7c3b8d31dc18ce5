import ScriptVM.Bytecode.Verifier
import ScriptVM.Value

/-!
# Exceptions

What travels through the unwinder, and what an embedder gets to see when nothing
handled it.
-/

namespace ScriptVM

/-- A thrown completion. -/
inductive Exception
  | value (value : Value)
  /-- A fault that has not been turned into an error object. -/
  | fault (fault : Fault)
  deriving DecidableEq, Inhabited

namespace Exception

/-- A fault about an operand of the wrong type. -/
def typeError (message : String) : Exception :=
  fault (.typeError message)

/-- A fault about a binding. -/
def referenceError (message : String) : Exception :=
  fault (.referenceError message)

/-- A fault about a bound. -/
def rangeError (message : String) : Exception :=
  fault (.rangeError message)

/-- A fault of the engine or of malformed bytecode. -/
def internalError (message : String) : Exception :=
  fault (.internalError message)

/-- Too many frames or native calls. -/
def stackOverflow : Exception :=
  rangeError "Maximum call stack size exceeded"

/-- Too many prototype links. -/
def chainOverflow : Exception :=
  rangeError "Maximum prototype chain length exceeded"

/-- The value of `this` is needed before a parent constructor gave it. -/
def thisBeforeSuper : Exception :=
  referenceError
    "Must call super constructor in derived class before accessing 'this' or returning from derived constructor"

end Exception

/-- Why the execution of a chunk failed. -/
inductive Failure
  /-- An exception escaped; the description renders its value. -/
  | uncaught (description : String) (value : Value)
  | invalid (refusal : Refusal)

/-- The text of a failure. -/
def Failure.text : Failure -> String
  | uncaught description _ => "Uncaught " ++ description
  | invalid refusal => "invalid bytecode: " ++ refusal.text

end ScriptVM

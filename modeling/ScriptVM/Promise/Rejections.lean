/-!
# Unhandled rejections

Promises that were rejected while nobody listened. A handler that is attached
before the next report removes the entry again; what is left is reported once.
-/

namespace ScriptVM

/-- Rejected promises without a handler, oldest first and without repetition. -/
structure Rejections (K : Type) where
  pending : List K := []
  deriving DecidableEq, Repr

namespace Rejections

variable {K : Type} [DecidableEq K]

/-- Record a rejection that had no handler. -/
def rejected (rejections : Rejections K) (promise : K) : Rejections K :=
  if promise ∈ rejections.pending then rejections
  else { pending := rejections.pending ++ [promise] }

/-- Record that a handler was attached. -/
def handled (rejections : Rejections K) (promise : K) : Rejections K :=
  { pending := rejections.pending.filter (· != promise) }

/-- Hand out every rejection that is still unhandled. -/
def take (rejections : Rejections K) : List K × Rejections K :=
  (rejections.pending, {})

/-- Nothing awaits a report. -/
def isEmpty (rejections : Rejections K) : Bool :=
  rejections.pending.isEmpty

end Rejections
end ScriptVM

/-!
# Aggregates

A combinator waits for several inputs and hands out one list of their entries.
It counts what is outstanding: each input that has not reported, and the
iteration over the inputs while it is open. The list is handed out when the count
reaches zero, once.
-/

namespace ScriptVM

/-- The combinators that collect entries. -/
inductive CombinatorKind
  /-- Collects fulfilment values. -/
  | all
  /-- Collects status records. -/
  | allSettled
  /-- Collects rejection reasons. -/
  | any
  deriving DecidableEq, Repr

namespace CombinatorKind

/-- The name of the static method. -/
def name : CombinatorKind -> String
  | all => "Promise.all"
  | allSettled => "Promise.allSettled"
  | any => "Promise.any"

end CombinatorKind

/-- The entries collected so far by one combinator call. -/
structure Aggregate (V : Type) where
  kind : CombinatorKind
  /-- The entry of each reserved input, if it has reported. -/
  entries : Array (Option V) := #[]
  /-- Inputs that have not reported, plus one while the iteration is open. -/
  remaining : Nat := 1
  deriving DecidableEq, Repr

namespace Aggregate

variable {V : Type}

/-- Number of inputs reserved. -/
def size (aggregate : Aggregate V) : Nat :=
  aggregate.entries.size

/-- The list was handed out. -/
def isComplete (aggregate : Aggregate V) : Bool :=
  aggregate.remaining == 0

/-- Reserve the entry of the next input and give its index. -/
def reserve (aggregate : Aggregate V) : Nat × Aggregate V :=
  (aggregate.entries.size,
    { aggregate with
      entries := aggregate.entries.push none
      remaining := aggregate.remaining + 1 })

/-- Count one outstanding report as done; the last one hands out the list. -/
def release (aggregate : Aggregate V) : Option (List V) × Aggregate V :=
  match aggregate.remaining with
  | 0 => (none, aggregate)
  | 1 =>
      (some (aggregate.entries.toList.filterMap id),
        { aggregate with entries := #[], remaining := 0 })
  | remaining + 2 => (none, { aggregate with remaining := remaining + 1 })

/-- Record the entry of an input. A second report of an input, and one for an
input that was never reserved, is ignored. -/
def record (aggregate : Aggregate V) (index : Nat) (value : V) :
    Option (List V) × Aggregate V :=
  match aggregate.entries[index]? with
  | some none =>
      release { aggregate with
        entries := aggregate.entries.setIfInBounds index (some value) }
  | _ => (none, aggregate)

/-- Close the iteration over the inputs. -/
def finishIteration (aggregate : Aggregate V) : Option (List V) × Aggregate V :=
  aggregate.release

end Aggregate
end ScriptVM

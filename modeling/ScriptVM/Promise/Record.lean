/-!
# Promise records

A promise settles at most once. Reactions registered before that wait on the
promise and are handed out, in order, by the settlement; a reaction registered
later comes straight back to be scheduled.
-/

namespace ScriptVM

/-- The state of a promise with values of type `V`. -/
inductive PromiseState (V : Type)
  | pending
  | fulfilled (value : V)
  | rejected (reason : V)
  deriving DecidableEq, Repr

/-- The two ways a promise can settle. -/
inductive Settlement
  | fulfilled
  | rejected
  deriving DecidableEq, Repr

/-- The word for a settlement. -/
def Settlement.text : Settlement -> String
  | fulfilled => "fulfilled"
  | rejected => "rejected"

/-- What became of a reaction. -/
inductive Registration (V R : Type)
  /-- It waits on the promise. -/
  | queued
  /-- The promise is settled already, so the reaction can be scheduled. -/
  | ready (reaction : R) (settlement : Settlement) (value : V)
  deriving DecidableEq, Repr

/-- A promise with values of type `V` and reactions of type `R`. -/
structure PromiseRecord (V R : Type) where
  state : PromiseState V := .pending
  /-- The reactions that wait, in registration order. -/
  reactions : List R := []
  /-- A reaction was registered, or the promise was marked as handled. -/
  handled : Bool := false
  deriving DecidableEq, Repr

namespace PromiseRecord

variable {V R : Type}

/-- The promise has not settled. -/
def isPending (record : PromiseRecord V R) : Bool :=
  match record.state with
  | .pending => true
  | _ => false

/-- Move a pending promise to a settled state and hand out its reactions; a
settled promise stays as it is. -/
def settle (record : PromiseRecord V R) (state : PromiseState V) :
    Option (List R) × PromiseRecord V R :=
  match record.state with
  | .pending => (some record.reactions, { record with state, reactions := [] })
  | _ => (none, record)

/-- Fulfil the promise. -/
def fulfill (record : PromiseRecord V R) (value : V) :
    Option (List R) × PromiseRecord V R :=
  record.settle (.fulfilled value)

/-- Reject the promise. -/
def reject (record : PromiseRecord V R) (reason : V) :
    Option (List R) × PromiseRecord V R :=
  record.settle (.rejected reason)

/-- Mark the promise as handled. -/
def markHandled (record : PromiseRecord V R) : PromiseRecord V R :=
  { record with handled := true }

/-- Register a reaction, which also marks the promise as handled. -/
def register (record : PromiseRecord V R) (reaction : R) :
    Registration V R × PromiseRecord V R :=
  let record := record.markHandled
  match record.state with
  | .pending => (.queued, { record with reactions := record.reactions ++ [reaction] })
  | .fulfilled value => (.ready reaction .fulfilled value, record)
  | .rejected reason => (.ready reaction .rejected reason, record)

end PromiseRecord
end ScriptVM

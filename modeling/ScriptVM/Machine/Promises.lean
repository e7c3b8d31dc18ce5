import ScriptVM.Machine.Iteration

/-!
# Promises of the machine

Settling a promise queues one job for each reaction that waits on it; a reaction
registered later is queued at once. A promise that is resolved with another
thenable adopts its state through a job of its own.
-/

namespace ScriptVM
namespace Machine

variable {σ : Type}

/-- The record of a promise. -/
def promise? (machine : Machine σ) (id : ObjectId) :
    Option (PromiseRecord Value Reaction) :=
  match machine.kind? id with
  | some (.promise record) => some record
  | _ => none

/-- The promise that a value is. -/
def promiseId? (machine : Machine σ) (value : Value) : Option ObjectId :=
  value.objectId?.filter fun id => (machine.promise? id).isSome

/-- Replace the record of a promise. -/
def setPromise (machine : Machine σ) (id : ObjectId)
    (record : PromiseRecord Value Reaction) : Machine σ :=
  machine.modifyHeap fun heap => heap.setPayload id (.promise record)

/-- The job of a reaction to a settlement. -/
def reactionJob (reaction : Reaction) (settlement : Settlement) (value : Value) : Job σ :=
  .reaction (reaction.handler settlement) reaction.capability settlement value

/-- Settle a promise and queue its reactions. A promise that is settled already stays
as it is. -/
def settlePromise (machine : Machine σ) (promise : ObjectId) (settlement : Settlement)
    (value : Value) : Except Exception Unit × Machine σ :=
  match machine.promise? promise with
  | none => (.error (.internalError "settling a non-promise"), machine)
  | some record =>
      let settled :=
        match settlement with
        | .fulfilled => record.fulfill value
        | .rejected => record.reject value
      match settled with
      | (none, _) => (.ok (), machine)
      | (some reactions, record) =>
          let machine := machine.setPromise promise record
          let machine := machine.note (.settled promise settlement value)
          let machine :=
            if settlement == .rejected && machine.config.trackUnhandledRejections &&
                !record.handled then
              { machine with rejections := machine.rejections.rejected promise }
            else machine
          (.ok (), reactions.foldl (fun machine reaction =>
            machine.enqueueJob (reactionJob reaction settlement value)) machine)

/-- Register a reaction on a promise; if the promise is settled the reaction is
queued. -/
def registerReaction (machine : Machine σ) (promise : ObjectId) (reaction : Reaction) :
    Except Exception Unit × Machine σ :=
  match machine.promise? promise with
  | none => (.error (.internalError "then on a non-promise"), machine)
  | some record =>
      let (registration, record) := record.register reaction
      let machine := machine.setPromise promise record
      let machine := machine.note (.registered promise reaction)
      let machine := { machine with rejections := machine.rejections.handled promise }
      match registration with
      | .queued => (.ok (), machine)
      | .ready reaction settlement value =>
          (.ok (), machine.enqueueJob (reactionJob reaction settlement value))

/-- Make the pair of functions that resolve and reject a promise. Only the first
call of either has an effect. -/
def createResolvingFunctions (machine : Machine σ) (promise : ObjectId) :
    (Value × Value) × Machine σ :=
  let (latch, cells) := machine.cells.addLatch
  let machine := { machine with cells }
  let half := fun (reject : Bool) =>
    { name := "", behavior := .resolving promise latch reject : NativeFunction }
  let (resolve, machine) := machine.createNative (half false) 1
  let (reject, machine) := machine.createNative (half true) 1
  ((resolve, reject), machine)

/-- Allocate a pending promise with the usual prototype. -/
def newPromise (machine : Machine σ) : ObjectId × Machine σ :=
  machine.allocatePromise machine.intrinsics.promisePrototype

end Machine

namespace Exec

variable {σ : Type}

/-- Settle a promise. -/
def settlePromise (promise : ObjectId) (settlement : Settlement) (value : Value) :
    Exec σ Unit :=
  changeOrRaise fun machine => machine.settlePromise promise settlement value

/-- Reject a promise with the value of an exception. -/
def rejectWith (promise : ObjectId) (exception : Exception) : Exec σ Unit := do
  settlePromise promise .rejected (<- exceptionValue exception)

/-- Register a reaction on a promise. -/
def registerReaction (promise : ObjectId) (reaction : Reaction) : Exec σ Unit :=
  changeOrRaise fun machine => machine.registerReaction promise reaction

/-- Allocate a pending promise. -/
def newPromise : Exec σ ObjectId :=
  change Machine.newPromise

/-- Make the pair of functions that resolve and reject a promise. -/
def createResolvingFunctions (promise : ObjectId) : Exec σ (Value × Value) :=
  change fun machine => machine.createResolvingFunctions promise

/-- Resolve a promise. A thenable is adopted through a job, the promise itself is an
error, and anything else fulfils the promise. -/
def resolvePromise (promise : ObjectId) (resolution : Value) : Exec σ Unit := do
  if resolution.objectId? == some promise then
    let error <- change fun machine =>
      machine.createError .typeError "Chaining cycle detected for promise #<Promise>"
    settlePromise promise .rejected error
  else if !resolution.isObject then settlePromise promise .fulfilled resolution
  else
    match <- attempt (getProperty resolution "then") with
    | .error exception => rejectWith promise exception
    | .ok thenMethod =>
        if thenMethod.isCallable then
          update fun machine =>
            machine.submitJob (.resolveThenable promise resolution thenMethod)
        else settlePromise promise .fulfilled resolution

/-- The promise of a value: a promise is its own, anything else resolves a new one. -/
def promiseOf (value : Value) : Exec σ ObjectId := do
  match <- ask fun machine => machine.promiseId? value with
  | some id => return id
  | none =>
      let promise <- newPromise
      resolvePromise promise value
      return promise

/-- Call the functions of a computation with the pair that settles a promise; what it
throws goes to the rejecting one. -/
def withResolvingFunctions (promise : ObjectId) (body : Value -> Value -> Exec σ Unit) :
    Exec σ Unit := do
  let (resolve, reject) <- createResolvingFunctions promise
  match <- attempt (body resolve reject) with
  | .ok () => return ()
  | .error exception =>
      let _ <- call reject .undefined [<- exceptionValue exception]

/-- Apply an operation to an aggregate. -/
def updateAggregate {α : Type} (id : AggregateId) (fallback : α)
    (operation : Aggregate Value -> α × Aggregate Value) : Exec σ α :=
  change fun machine =>
    let (answer, cells) := machine.cells.updateAggregate id fallback operation
    (answer, { machine with cells })

/-- Settle the promise of a combinator with the complete list of its entries. -/
def finishCombinator (kind : CombinatorKind) (capability : ObjectId)
    (entries : List Value) : Exec σ Unit := do
  let list <- createArray entries
  match kind with
  | .all | .allSettled => resolvePromise capability list
  | .any =>
      let error <- change fun machine =>
        machine.createError .aggregateError "All promises were rejected"
      match error.objectId? with
      | some id => defineRaw id "errors" (.hidden list)
      | none => pure ()
      settlePromise capability .rejected error

/-- Allocate the function through which one input reports to a combinator. -/
def combinatorElement (index : Nat) (aggregate : AggregateId) (capability : ObjectId)
    (settlement : Settlement) : Exec σ Value :=
  change fun machine =>
    machine.createNative
      { name := "",
        behavior := .combinatorElement index aggregate capability settlement } 1

/-- The handlers that a combinator registers on one input. -/
def combinatorHandlers (kind : CombinatorKind) (resolve reject : Value) (index : Nat)
    (aggregate : AggregateId) (capability : ObjectId) : Exec σ (Value × Value) := do
  let element := combinatorElement index aggregate capability
  match kind with
  | .all => return (<- element .fulfilled, reject)
  | .allSettled =>
      let onFulfilled <- element .fulfilled
      return (onFulfilled, <- element .rejected)
  | .any => return (resolve, <- element .rejected)

/-- Subscribe to the promise of a value without a derived promise. -/
def subscribe (promise : ObjectId) (onFulfilled onRejected : Value) : Exec σ Unit :=
  registerReaction promise
    { capability := none
      onFulfilled := .callable onFulfilled
      onRejected := .callable onRejected }

/-- Subscribe a combinator to its next input. -/
def subscribeInput (kind : CombinatorKind) (capability : ObjectId)
    (resolve reject : Value) (aggregate : AggregateId) (input : Value) :
    Exec σ Unit := do
  let index <- updateAggregate aggregate 0 Aggregate.reserve
  let promise <- promiseOf input
  let (onFulfilled, onRejected) <-
    combinatorHandlers kind resolve reject index aggregate capability
  subscribe promise onFulfilled onRejected

/-- Subscribe a combinator to all inputs that an iterable yields. -/
def subscribeCombinator (kind : CombinatorKind) (capability : ObjectId)
    (iterable : Value) : Exec σ Unit := do
  let inputs <- iterateToList iterable
  let (resolve, reject) <- createResolvingFunctions capability
  let aggregate <- change fun machine =>
    let (id, cells) := machine.cells.addAggregate kind
    (id, { machine with cells })
  inputs.forM (subscribeInput kind capability resolve reject aggregate)
  match <- updateAggregate aggregate none Aggregate.finishIteration with
  | some entries => finishCombinator kind capability entries
  | none => return ()

/-- The promise of a combinator over an iterable. -/
def combine (kind : CombinatorKind) (iterable : Value) : Exec σ Value := do
  let capability <- newPromise
  match <- attempt (subscribeCombinator kind capability iterable) with
  | .ok () => pure ()
  | .error exception => rejectWith capability exception
  return .object capability

/-- The promise that settles like the first input to settle. -/
def race (iterable : Value) : Exec σ Value := do
  let capability <- newPromise
  let (resolve, reject) <- createResolvingFunctions capability
  let subscribed <- attempt do
    (<- iterateToList iterable).forM fun input => do
      subscribe (<- promiseOf input) resolve reject
  match subscribed with
  | .ok () => pure ()
  | .error exception => rejectWith capability exception
  return .object capability

/-- Resolve or reject a promise on behalf of a resolving function, unless its pair
was used before. -/
def callResolving (promise : ObjectId) (latch : LatchId) (reject : Bool)
    (value : Value) : Exec σ Unit := do
  let used <- change fun machine =>
    let (used, cells) := machine.cells.setLatch latch
    (used, { machine with cells })
  if used then return ()
  else if reject then settlePromise promise .rejected value
  else resolvePromise promise value

/-- The entry that an input contributes: its value, or a record of how it settled. -/
def combinatorEntry (kind : CombinatorKind) (settlement : Settlement) (value : Value) :
    Exec σ Value := do
  match kind with
  | .all | .any => return value
  | .allSettled =>
      let record <- change Machine.allocateOrdinary
      let field :=
        match settlement with
        | .fulfilled => "value"
        | .rejected => "reason"
      defineRaw record "status" (.plain (.string settlement.text))
      defineRaw record field (.plain value)
      return .object record

/-- Report an input to its combinator. -/
def reportToCombinator (index : Nat) (aggregate : AggregateId) (capability : ObjectId)
    (settlement : Settlement) (value : Value) : Exec σ Unit := do
  match <- ask fun machine => machine.cells.aggregates[aggregate.index]? with
  | none => raise (.internalError "combinator element without state")
  | some present =>
      let entry <- combinatorEntry present.kind settlement value
      match <- updateAggregate aggregate none fun collected =>
          collected.record index entry with
      | some entries => finishCombinator present.kind capability entries
      | none => return ()

end Exec
end ScriptVM

import ScriptVM.Builtins.Arrays
import ScriptVM.Builtins.Errors
import ScriptVM.Builtins.Functions
import ScriptVM.Builtins.Objects
import ScriptVM.Builtins.Promises
import ScriptVM.Builtins.Symbols
import ScriptVM.Proofs.Soundness.Properties

/-!
# Sound built-ins

Promises and the functions that the machine comes with, apart from those that resume
coroutines.
-/

namespace ScriptVM

variable {σ α : Type} {collects : Bool} {machine : Machine σ}
  [consistent : machine.Consistent collects]
variable (receiver value target iterable newTarget properties onFinally : Value)
  (arguments : List Value) (settlement : Settlement) (promise capability : ObjectId) (index : Nat)
  (kind : CombinatorKind) (aggregate : AggregateId) (key : PropertyKey) (method : String)

open Machine Exec

namespace Exec

/-! ## Promises -/

omit consistent in
instance {after : Machine σ} :
    after.Vouches (machine.settlePromise promise settlement value).1 := by
  unfold Machine.settlePromise
  split
  · exact vouches_error_of (Exception.internalError _)
  · dsimp only
    split
    · exact vouches_ok_of ()
    · exact vouches_ok_of ()

instance [machine.Vouches value] :
    Sound collects machine (settlePromise promise settlement value) := by
  unfold settlePromise
  infer_instance

instance sound_rejectWith
    (promise : ObjectId)
    (exception : Exception)
    [machine.Vouches exception] :
    Sound collects machine (rejectWith promise exception) := by
  unfold rejectWith
  infer_instance

omit consistent in
instance vouches_registerReaction
    {after : Machine σ}
    (promise : ObjectId)
    (reaction : Reaction) :
    after.Vouches (machine.registerReaction promise reaction).1 := by
  unfold Machine.registerReaction
  split
  · exact vouches_error_of (Exception.internalError _)
  · dsimp only
    split
    · exact vouches_ok_of ()
    · exact vouches_ok_of ()

instance (reaction : Reaction) [reaction.Plain] [machine.Vouches reaction] :
    Sound collects machine (registerReaction promise reaction) := by
  unfold registerReaction
  infer_instance

instance promises_newPromise : Promises collects machine (newPromise : Exec σ ObjectId) := by
  unfold newPromise
  infer_instance

instance [machine.Vouches (PromiseHandle.mk promise)] :
    Sound collects machine (createResolvingFunctions promise) := by
  unfold createResolvingFunctions
  infer_instance

instance sound_resolvePromise
    (promise : ObjectId)
    (resolution : Value)
    [machine.Vouches (PromiseHandle.mk promise)]
    [machine.Vouches resolution] :
    Sound collects machine (resolvePromise promise resolution) := by
  unfold resolvePromise
  infer_instance

instance promises_promiseOf
    (value : Value)
    [machine.Vouches value] :
    Promises collects machine (promiseOf value : Exec σ ObjectId) := by
  unfold promiseOf
  refine ⟨.ask ?_⟩
  split
  · next id found => exact .pure id (vouches_of_promiseId? found)
  · refine .bind promises_newPromise.ensures fun id after _ goes vouched => ?_
    have := goes trivial
    have resolves : Sound collects after (resolvePromise id value : Exec σ Unit) := inferInstance
    refine .bind resolves.ensures fun _ last _ goes _ => .pure id ?_
    exact (goes trivial).vouches vouched

instance
    (body : Value -> Value -> Exec σ Unit)
    [machine.Vouches (PromiseHandle.mk promise)]
    [sound : ∀ outcome : Outcome collects machine (Value × Value),
      Sound collects outcome.after (body outcome.answer.1 outcome.answer.2)] :
    Sound collects machine (withResolvingFunctions promise body) := by
  unfold withResolvingFunctions
  infer_instance

instance (id : AggregateId) : Sound collects machine (updateAggregate id 0 Aggregate.reserve) :=
  ⟨.change _ (sustains_reserve id) inferInstance⟩

instance (id : AggregateId) [machine.Vouches id] :
    Sound collects machine (updateAggregate id none Aggregate.finishIteration) :=
  ⟨.change _ (sustains_finishIteration id)
    ((sustains_finishIteration id).later.vouches (vouches_finishIteration id))⟩

instance (id : AggregateId) (entry : Value) [machine.Vouches id] [machine.Vouches entry] :
    Sound collects machine
      (updateAggregate id none fun collected => collected.record index entry :
        Exec σ (Option (List Value))) :=
  ⟨.change _ (sustains_record id index entry)
    ((sustains_record id index entry).later.vouches (vouches_recorded id index entry))⟩

instance (entries : List Value) [machine.Vouches (PromiseHandle.mk capability)]
    [machine.Vouches entries] :
    Sound collects machine (finishCombinator kind capability entries) := by
  unfold finishCombinator
  refine .bind inferInstance fun list after _ _ _ => ?_
  cases kind with
  | all => infer_instance
  | allSettled => infer_instance
  | any =>
      refine .bind inferInstance fun error after _ _ _ => ?_
      split <;> infer_instance

instance [machine.Vouches aggregate] [machine.Vouches (PromiseHandle.mk capability)] :
    Sound collects machine (combinatorElement index aggregate capability settlement) := by
  unfold combinatorElement
  infer_instance

instance (resolve reject : Value) [machine.Vouches resolve] [machine.Vouches reject]
    [machine.Vouches aggregate] [machine.Vouches (PromiseHandle.mk capability)] :
    Sound collects machine
      (combinatorHandlers kind resolve reject index aggregate capability :
        Exec σ (Value × Value)) := by
  unfold combinatorHandlers
  cases kind <;> infer_instance

instance (onFulfilled onRejected : Value) [machine.Vouches onFulfilled]
    [machine.Vouches onRejected] :
    Sound collects machine (subscribe promise onFulfilled onRejected) := by
  unfold subscribe
  infer_instance

instance (resolve reject : Value) (input : Value) [machine.Vouches (PromiseHandle.mk capability)]
    [machine.Vouches resolve] [machine.Vouches reject] [machine.Vouches aggregate]
    [machine.Vouches input] :
    Sound collects machine (subscribeInput kind capability resolve reject aggregate input) := by
  unfold subscribeInput
  infer_instance

instance [machine.Vouches (PromiseHandle.mk capability)] [machine.Vouches iterable] :
    Sound collects machine (subscribeCombinator kind capability iterable) := by
  unfold subscribeCombinator
  refine .bind inferInstance fun inputs after _ _ _ => ?_
  refine .bind inferInstance fun functions after _ _ _ => ?_
  refine .bind ⟨.change _ (sustains_addAggregate kind) (vouches_addAggregate kind)⟩
    fun aggregate after _ _ _ => ?_
  infer_instance

instance [machine.Vouches iterable] : Sound collects machine (combine kind iterable) := by
  unfold combine
  infer_instance

instance [machine.Vouches iterable] : Sound collects machine (race iterable) := by
  unfold race
  refine .bindEnsures promises_newPromise.ensures fun capability after _ _ _ => ?_
  infer_instance

instance (latch : LatchId) (reject : Bool) [machine.Vouches (PromiseHandle.mk promise)]
    [machine.Vouches value] :
    Sound collects machine (callResolving promise latch reject value) := by
  unfold callResolving
  infer_instance

instance [machine.Vouches value] :
    Sound collects machine (combinatorEntry kind settlement value) := by
  unfold combinatorEntry
  cases kind with
  | all => infer_instance
  | any => infer_instance
  | allSettled =>
      dsimp only
      infer_instance

instance [machine.Vouches aggregate] [machine.Vouches (PromiseHandle.mk capability)]
    [machine.Vouches value] :
    Sound collects machine (reportToCombinator index aggregate capability settlement value) := by
  unfold reportToCombinator
  refine .ask ?_
  split
  · infer_instance
  · infer_instance

end Exec

namespace Builtins

omit consistent in
instance [vouched : machine.Vouches arguments] : machine.Vouches (argument arguments index) := by
  unfold argument
  cases present : arguments[index]? with
  | none => exact vouches_undefined
  | some value => exact vouches_list.1 vouched value (List.mem_of_getElem? present)

omit consistent in
instance (keys : List PropertyKey) : machine.Vouches (keys.map PropertyKey.toValue) :=
  vouches_list.2 fun value member => by
    obtain ⟨key, _, rfl⟩ := List.mem_map.1 member
    infer_instance

/-! ## Objects -/

instance [machine.Vouches arguments] [machine.Vouches newTarget] :
    Sound collects machine (constructObject arguments newTarget) := by
  unfold constructObject
  dsimp only
  infer_instance

instance : Sound collects machine (requireCoercible value) := by
  unfold requireCoercible
  infer_instance

instance : Sound collects machine (ownKeysOf value) := by
  unfold ownKeysOf
  refine .bind inferInstance fun _ after _ _ _ => ?_
  split <;> infer_instance

instance : Sound collects machine (keys target) := by
  unfold keys
  infer_instance

instance : Sound collects machine (getOwnPropertyNames target) := by
  unfold getOwnPropertyNames
  infer_instance

instance : Sound collects machine (prototypeOf target) := by
  unfold prototypeOf
  refine .bind inferInstance fun _ after _ _ _ => ?_
  split
  · infer_instance
  · infer_instance

instance [machine.Vouches value] : Sound collects machine (prototypeArgument value) := by
  unfold prototypeArgument
  split <;> infer_instance

instance (prototype : Value) [machine.Vouches target] [machine.Vouches prototype] :
    Sound collects machine (setPrototype target prototype) := by
  unfold setPrototype
  refine .bind inferInstance fun _ after _ _ _ => ?_
  refine .bind inferInstance fun prototype after _ _ _ => ?_
  split <;> infer_instance

instance (id : ObjectId) [machine.Vouches value] :
    Sound collects machine (descriptorField id value key) := by
  unfold descriptorField
  infer_instance

instance (name : String) (accessor : Option Value) :
    Sound collects machine (requireAccessor name accessor) := by
  unfold requireAccessor
  split <;> infer_instance

instance [machine.Vouches value] : Sound collects machine (toDescriptor value) := by
  unfold toDescriptor
  split
  · infer_instance
  · -- No case split on which of the fields are there.
    refine .bind inferInstance fun enumerable after _ _ _ => ?_
    refine .bind inferInstance fun configurable after _ _ _ => ?_
    refine .bind inferInstance fun content after _ _ _ => ?_
    refine .bind inferInstance fun writable after _ _ _ => ?_
    refine .bind inferInstance fun getter after _ _ _ => ?_
    refine .bind inferInstance fun setter after _ _ _ => ?_
    infer_instance

instance (descriptor : Descriptor) [vouched : machine.Vouches descriptor] :
    Sound collects machine (ofDescriptor descriptor) := by
  obtain ⟨value, getter, setter⟩ := vouches_descriptor.1 vouched
  have flags : ∀ flag : Option Bool, machine.Vouches (flag.map Value.boolean) := by
    intro flag
    cases flag with
    | none => exact vouches_none
    | some flag => exact vouches_some_of (Value.boolean flag)
  have fields : machine.Vouches (descriptorFields descriptor) := by
    unfold descriptorFields
    infer_instance
  unfold ofDescriptor
  refine .bindEnsures (names_change Machine.allocateOrdinary).ensures fun id after _ _ _ => ?_
  refine .bindEnsures (.forM (fun entry last _ _ vouched => ?_) (descriptorFields descriptor))
    fun _ last _ _ _ => inferInstance
  obtain ⟨name, field⟩ := entry
  have : last.Vouches field := (vouches_pair.1 vouched).2
  cases field with
  | none => exact .pure () trivial
  | some value =>
      have := vouches_some.1 this
      exact (sound_defineRaw id name (.plain value)).ensures.imp fun _ _ _ => trivial

instance (id : ObjectId) (descriptor : Descriptor) [machine.Vouches descriptor] :
    Sound collects machine (defineOrThrow id key descriptor) := by
  unfold defineOrThrow
  infer_instance

instance (key descriptor : Value) [machine.Vouches target] [machine.Vouches key]
    [machine.Vouches descriptor] :
    Sound collects machine (defineProperty target key descriptor) := by
  unfold defineProperty
  split <;> infer_instance

instance (key : Value) [machine.Vouches key] :
    Sound collects machine (getOwnPropertyDescriptor target key) := by
  unfold getOwnPropertyDescriptor
  refine .bind inferInstance fun _ after _ _ _ => ?_
  refine .bind inferInstance fun key after _ _ _ => .ask ?_
  split
  · next property found =>
      obtain ⟨id, _, found⟩ := Option.bind_eq_some_iff.1 found
      have : after.Vouches property := .of_some found
      infer_instance
  · infer_instance

instance [machine.Vouches properties] :
    Sound collects machine (namedDescriptor? properties key) := by
  unfold namedDescriptor?
  infer_instance

omit consistent in
instance [Carrier α] (entries : List (Option α)) [vouched : machine.Vouches entries] :
    machine.Vouches (entries.filterMap id) :=
  vouches_list.2 fun entry member => by
    obtain ⟨_, present, rfl⟩ := List.mem_filterMap.1 member
    exact vouches_some.1 (vouches_list.1 vouched _ present)

instance (target : ObjectId) [machine.Vouches properties] :
    Sound collects machine (defineProperties target properties) := by
  unfold defineProperties
  infer_instance

instance (prototype : Value) [machine.Vouches prototype] [machine.Vouches properties] :
    Sound collects machine (createWith prototype properties) := by
  unfold createWith
  infer_instance

instance [machine.Vouches target] : Sound collects machine (freeze target) := by
  unfold freeze
  split <;> infer_instance

instance : Sound collects machine (isFrozen target) := by
  unfold isFrozen
  split <;> infer_instance

instance (key : Value) [machine.Vouches key] :
    Sound collects machine (hasOwnProperty receiver key) := by
  unfold hasOwnProperty
  refine .bind inferInstance fun key after _ _ _ => ?_
  refine .bind inferInstance fun _ after _ _ _ => ?_
  split <;> infer_instance

instance (key : Value) [machine.Vouches key] :
    Sound collects machine (propertyIsEnumerable receiver key) := by
  unfold propertyIsEnumerable
  refine .bind inferInstance fun key after _ _ _ => ?_
  refine .bind inferInstance fun _ after _ _ _ => ?_
  split <;> infer_instance

instance : Sound collects machine (isPrototypeOf receiver value) := by
  unfold isPrototypeOf
  split
  · infer_instance
  · refine .bind inferInstance fun _ after _ _ _ => ?_
    split <;> infer_instance

instance [machine.Vouches receiver] : Sound collects machine (objectToString receiver) := by
  unfold objectToString
  split <;> infer_instance

instance [machine.Vouches receiver] : Sound collects machine (objectValueOf receiver) := by
  unfold objectValueOf
  infer_instance

/-! ## Arrays -/

omit consistent in
instance [vouched : machine.Vouches arguments] : machine.Vouches (initialElements arguments) := by
  unfold initialElements
  split
  · dsimp only
    split
    · exact vouches_ok.2 (vouches_array.2 fun value member => by
        rw [Array.eq_of_mem_replicate member]
        infer_instance)
    · exact vouches_error_of invalidLength
  · exact vouches_ok.2 (vouches_array.2 fun value member =>
      vouches_list.1 vouched value (List.mem_toArray.1 member))

instance [machine.Vouches arguments] [machine.Vouches newTarget] :
    Sound collects machine (constructArray arguments newTarget) := by
  unfold constructArray
  infer_instance

instance (length : Nat) (values : List Value) [machine.Vouches receiver]
    [vouched : machine.Vouches values] :
    Sound collects machine (pushGeneric receiver length values) := by
  induction values generalizing machine length with
  | nil =>
      unfold pushGeneric
      infer_instance
  | cons value rest step =>
      obtain ⟨_, _⟩ := vouches_cons_iff.1 vouched
      unfold pushGeneric
      exact .bind inferInstance fun _ after _ _ _ => step _

instance [machine.Vouches receiver] [machine.Vouches arguments] :
    Sound collects machine (arrayPush receiver arguments) := by
  unfold arrayPush
  split <;> infer_instance

instance [machine.Vouches receiver] : Sound collects machine (joinedElement receiver index) := by
  unfold joinedElement
  infer_instance

instance (separator : Value) [machine.Vouches receiver] [machine.Vouches separator] :
    Sound collects machine (arrayJoin receiver separator) := by
  unfold arrayJoin
  infer_instance

instance [machine.Vouches receiver] : Sound collects machine (arrayToString receiver) := by
  unfold arrayToString
  infer_instance

instance [machine.Vouches receiver] : Sound collects machine (arrayValues receiver) := by
  unfold arrayValues
  infer_instance

/-! ## Errors -/

instance (error : ObjectId) (options : Value) [machine.Vouches options] :
    Sound collects machine (takeCause error options) := by
  unfold takeCause
  split <;> infer_instance

instance (error : ObjectId) [machine.Vouches iterable] :
    Sound collects machine (takeErrors error iterable) := by
  unfold takeErrors
  infer_instance

instance (kind : ErrorKind) [machine.Vouches arguments] [machine.Vouches newTarget] :
    Sound collects machine (constructError kind arguments newTarget) := by
  unfold constructError
  refine .ask ?_
  dsimp only
  refine .join inferInstance fun prototype after _ _ _ => ?_
  refine .bindEnsures (names_allocate (some prototype) .error).ensures fun id after _ _ _ => ?_
  refine .join inferInstance fun text after _ _ _ => ?_
  have : after.Vouches arguments := inferInstance
  cases text with
  | none =>
      dsimp only
      infer_instance
  | some text =>
      dsimp only
      refine .bind inferInstance fun _ after _ _ _ => ?_
      infer_instance

instance (fallback : String) [machine.Vouches target] :
    Sound collects machine (textOr target key fallback) := by
  unfold textOr
  infer_instance

instance [machine.Vouches receiver] : Sound collects machine (errorToString receiver) := by
  unfold errorToString
  infer_instance

/-! ## Functions -/

instance : Sound collects machine (requireCallable receiver method) := by
  unfold requireCallable
  infer_instance

instance [machine.Vouches arguments] : Sound collects machine (callMethod receiver arguments) := by
  unfold callMethod
  infer_instance

instance [machine.Vouches value] : Sound collects machine (listOfArrayLike value) := by
  unfold listOfArrayLike
  infer_instance

instance [machine.Vouches arguments] : Sound collects machine (applyMethod receiver arguments) := by
  unfold applyMethod
  infer_instance

instance [machine.Vouches receiver] [machine.Vouches arguments] :
    Sound collects machine (bindMethod receiver arguments) := by
  unfold bindMethod
  refine .bind inferInstance fun _ after _ _ _ => ?_
  split
  · infer_instance
  · refine .bind inferInstance fun prototype after _ _ _ => ?_
    refine .bind inferInstance fun length after _ _ _ => ?_
    refine .bind inferInstance fun name after _ _ _ => ?_
    have allocated : Ensures collects True after
        (Exec.allocate prototype
          (.bound receiver (argument arguments 0) (arguments.drop 1)) : Exec σ ObjectId)
        fun after id => after.Vouches (Value.function id) :=
      .change _ (sustains_allocate ..) (vouches_allocate_function _ _ rfl)
    exact .bindEnsures allocated fun id after _ _ _ => inferInstance

instance : Sound collects machine (functionToString receiver) := by
  unfold functionToString
  split
  · refine .ask ?_
    split <;> infer_instance
  · infer_instance

/-! ## Promises as objects -/

instance [machine.Vouches arguments] [machine.Vouches newTarget] :
    Sound collects machine (constructPromise arguments newTarget) := by
  unfold constructPromise
  infer_instance

instance : Promises collects machine (receiverPromise receiver method : Exec σ ObjectId) := by
  unfold receiverPromise
  refine ⟨.ask ?_⟩
  split
  · next id found => exact .pure id (vouches_of_promiseId? found)
  · exact .ask (.raise _)

omit consistent in
instance (passing : Handler) [machine.Vouches passing] [machine.Vouches value] :
    machine.Vouches (handlerOr passing value) := by
  unfold handlerOr
  split <;> infer_instance

instance (passing : Handler) [passing.Plain] : (handlerOr passing value).Plain := by
  unfold handlerOr
  split <;> infer_instance

instance [machine.Vouches receiver] [machine.Vouches arguments] :
    Sound collects machine (promiseThen receiver arguments) := by
  unfold promiseThen
  infer_instance

instance (onRejected : Value) [machine.Vouches receiver] [machine.Vouches onRejected] :
    Sound collects machine (promiseCatch receiver onRejected) := by
  unfold promiseCatch
  infer_instance

instance [machine.Vouches onFinally] :
    Sound collects machine (createFinallyStep onFinally settlement) := by
  unfold createFinallyStep
  infer_instance

instance [machine.Vouches receiver] [machine.Vouches onFinally] :
    Sound collects machine (promiseFinally receiver onFinally) := by
  unfold promiseFinally
  infer_instance

instance [machine.Vouches value] :
    Sound collects machine (runFinallyStep onFinally settlement value) := by
  unfold runFinallyStep
  infer_instance

instance [machine.Vouches value] : Sound collects machine (produceSettlement settlement value) := by
  unfold produceSettlement
  cases settlement <;> infer_instance

instance (reason : Value) [machine.Vouches reason] :
    Sound collects machine (rejectedPromise reason) := by
  unfold rejectedPromise
  infer_instance

/-! ## Symbols -/

instance (description : Value) [machine.Vouches description] :
    Sound collects machine (createSymbol description) := by
  unfold createSymbol
  dsimp only
  exact .join inferInstance fun text after _ _ _ => inferInstance

instance : Sound collects machine (receiverSymbol receiver method) := by
  unfold receiverSymbol
  split <;> infer_instance

instance : Sound collects machine (symbolToString receiver) := by
  unfold symbolToString
  infer_instance

instance : Sound collects machine (symbolValueOf receiver) := by
  unfold symbolValueOf
  infer_instance

end Builtins
end ScriptVM

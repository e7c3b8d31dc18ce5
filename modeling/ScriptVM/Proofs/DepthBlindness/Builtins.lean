import ScriptVM.Proofs.DepthBlindness.Properties

/-!
# Promises, classes and built-ins at different depths

What classes do on behalf of a running frame, what promises do, and every built-in that does
not resume a coroutine go on alike at different native depths.
-/

namespace ScriptVM

-- Long sequences make large instances.
set_option synthInstance.maxSize 512

variable {σ α : Type} {inside : Bool}
variable (receiver value target newTarget iterable properties onFinally : Value) (key : PropertyKey)
  (arguments : List Value) (promise capability id constructor : ObjectId) (settlement : Settlement)
  (kind : CombinatorKind) (index : Nat) (aggregate : AggregateId) (method : String)

open Machine

namespace Exec

/-! ## Classes -/

instance (parent : Value) :
    DepthBlind inside (heritageOf parent : Exec σ (Option ObjectId × ObjectId)) := by
  unfold heritageOf
  refine .bind inferInstance fun constructs => ?_
  split
  · refine .bind inferInstance fun prototype => ?_
    split <;> infer_instance
  · infer_instance

instance (heritage : Option Value) :
    DepthBlind inside (classPrototypes heritage : Exec σ (Option ObjectId × ObjectId)) := by
  unfold classPrototypes
  refine .bind inferInstance fun intrinsics => ?_
  split <;> infer_instance

instance (target : ObjectId) (method : Value) (kind : MethodKind) :
    DepthBlind inside (defineMethod target key method kind : Exec σ Unit) := by
  have home : ∀ id, DepthBlind inside (update fun machine => machine.modifyClosure id fun closure =>
      { closure with homeObject := some target } : Exec σ Unit) := fun id =>
    .update fun _ _ _ => rfl
  unfold defineMethod
  split <;> infer_instance

instance (initializer : ObjectId) :
    DepthBlind inside (setFieldInitializer constructor initializer : Exec σ Unit) :=
  .update fun _ _ _ => rfl

instance :
    DepthBlind inside (ask fun machine : Machine σ =>
      (machine.closure? constructor).bind Closure.fieldInitializer) :=
  .ask fun _ _ _ _ => rfl

instance (this : Value) :
    DepthBlind inside (runFieldInitializer constructor this : Exec σ Unit) := by
  unfold runFieldInitializer
  refine .bind inferInstance fun initializer => ?_
  split <;> infer_instance

instance : DepthBlind inside (currentScope : Exec σ Scope) := by
  unfold currentScope
  refine .bind inferInstance fun top => ?_
  split <;> infer_instance

instance (scope : Scope) :
    DepthBlind inside (ask fun machine : Machine σ => machine.cells.this? scope) :=
  .ask fun _ _ _ _ => rfl

instance : DepthBlind inside (currentThis : Exec σ Value) := by
  unfold currentThis
  refine .bind inferInstance fun scope => ?_
  refine .bind inferInstance fun this => ?_
  split <;> infer_instance

instance : DepthBlind inside (superGet key : Exec σ Value) := by
  unfold superGet
  refine .bind inferInstance fun scope => ?_
  split
  · infer_instance
  · refine .bind inferInstance fun this => ?_
    refine .bind inferInstance fun prototype => ?_
    split <;> infer_instance

/-! ## Promises -/

instance : DepthBlind inside (settlePromise promise settlement value : Exec σ Unit) :=
  .changeOrRaise (carries_settlePromise promise settlement value)

instance (exception : Exception) :
    DepthBlind inside (rejectWith promise exception : Exec σ Unit) := by
  unfold rejectWith
  infer_instance

instance blind_registerReaction (promise : ObjectId) (reaction : Reaction) :
    DepthBlind inside (registerReaction promise reaction : Exec σ Unit) :=
  .changeOrRaise (carries_registerReaction promise reaction)

instance : DepthBlind inside (newPromise : Exec σ ObjectId) :=
  .change fun _ _ _ => rfl

instance (prototype : ObjectId) :
    DepthBlind inside (change fun machine : Machine σ => machine.allocatePromise prototype) :=
  .change fun _ _ _ => rfl

instance : DepthBlind inside (createResolvingFunctions promise : Exec σ (Value × Value)) :=
  .change (carries_createResolvingFunctions promise)

instance (kind : ErrorKind) (message : String) :
    DepthBlind inside (change fun machine => machine.createError kind message : Exec σ Value) :=
  .change (carries_createError kind message)

instance (thenable thenMethod : Value) :
    DepthBlind inside (update fun machine =>
      machine.submitJob (.resolveThenable promise thenable thenMethod) : Exec σ Unit) :=
  .update fun _ _ _ => rfl

instance blind_createNative (native : NativeFunction) (arity : Nat) :
    DepthBlind inside (change fun machine => machine.createNative native arity : Exec σ Value) :=
  .change fun _ _ _ => rfl

instance (resolution : Value) :
    DepthBlind inside (resolvePromise promise resolution : Exec σ Unit) := by
  unfold resolvePromise
  split
  · infer_instance
  · split
    · infer_instance
    · refine .bind inferInstance fun found => ?_
      split <;> infer_instance

instance : DepthBlind inside (promiseOf value : Exec σ ObjectId) := by
  unfold promiseOf
  refine .bind inferInstance fun found => ?_
  split
  · infer_instance
  · infer_instance

instance (body : Value -> Value -> Exec σ Unit)
    [∀ resolve reject, DepthBlind inside (body resolve reject)] :
    DepthBlind inside (withResolvingFunctions promise body) := by
  unfold withResolvingFunctions
  refine .bind inferInstance fun functions => ?_
  refine .bind inferInstance fun outcome => ?_
  split <;> infer_instance

instance (id : AggregateId) (fallback : α) (operation : Aggregate Value -> α × Aggregate Value) :
    DepthBlind inside (updateAggregate id fallback operation : Exec σ α) :=
  .change fun _ _ _ => rfl

/-- The error of a combinator is a new object, which may get the list of all errors. -/
instance (entries : List Value) :
    DepthBlind inside (finishCombinator kind capability entries : Exec σ Unit) := by
  unfold finishCombinator
  refine .bind inferInstance fun list => ?_
  split
  · infer_instance
  · infer_instance
  · refine .bind inferInstance fun error => ?_
    dsimp only
    split <;> infer_instance

instance :
    DepthBlind inside (combinatorElement index aggregate capability settlement : Exec σ Value) :=
  .change fun _ _ _ => rfl

instance (resolve reject : Value) :
    DepthBlind inside (combinatorHandlers kind resolve reject index aggregate capability :
      Exec σ (Value × Value)) := by
  unfold combinatorHandlers
  cases kind <;> infer_instance

instance (onFulfilled onRejected : Value) :
    DepthBlind inside (subscribe promise onFulfilled onRejected : Exec σ Unit) :=
  blind_registerReaction ..

instance (resolve reject : Value) (input : Value) :
    DepthBlind inside (subscribeInput kind capability resolve reject aggregate input :
      Exec σ Unit) := by
  unfold subscribeInput
  infer_instance

instance : DepthBlind inside (subscribeCombinator kind capability iterable : Exec σ Unit) := by
  have aggregate : DepthBlind inside (change fun machine =>
      let (id, cells) := machine.cells.addAggregate kind
      (id, { machine with cells }) : Exec σ AggregateId) :=
    .change fun _ _ _ => rfl
  unfold subscribeCombinator
  refine .bind inferInstance fun inputs => ?_
  refine .bind inferInstance fun functions => ?_
  refine .bind inferInstance fun id => ?_
  refine .bind inferInstance fun _ => ?_
  refine .bind inferInstance fun finished => ?_
  split <;> infer_instance

instance : DepthBlind inside (combine kind iterable : Exec σ Value) := by
  unfold combine
  refine .bind inferInstance fun capability => ?_
  refine .bind inferInstance fun outcome => ?_
  split <;> infer_instance

instance : DepthBlind inside (race iterable : Exec σ Value) := by
  unfold race
  refine .bind inferInstance fun capability => ?_
  refine .bind inferInstance fun functions => ?_
  refine .bind inferInstance fun subscribed => ?_
  split <;> infer_instance

instance : DepthBlind inside (combinatorEntry kind settlement value : Exec σ Value) := by
  unfold combinatorEntry
  cases kind with
  | allSettled =>
      refine .bind inferInstance fun id => ?_
      cases settlement <;> infer_instance
  | _ => infer_instance

instance (id : AggregateId) :
    DepthBlind inside (ask fun machine : Machine σ => machine.cells.aggregates[id.index]?) :=
  .ask fun _ _ _ _ => rfl

instance :
    DepthBlind inside (reportToCombinator index aggregate capability settlement value :
      Exec σ Unit) := by
  unfold reportToCombinator
  refine .bind inferInstance fun present => ?_
  split
  · infer_instance
  · refine .bind inferInstance fun entry => ?_
    refine .bind inferInstance fun finished => ?_
    split <;> infer_instance

instance (latch : LatchId) (reject : Bool) :
    DepthBlind inside (callResolving promise latch reject value : Exec σ Unit) := by
  have used : DepthBlind inside (change fun machine =>
      let (used, cells) := machine.cells.setLatch latch
      (used, { machine with cells }) : Exec σ Bool) :=
    .change fun _ _ _ => rfl
  unfold callResolving
  infer_instance

end Exec

namespace Builtins

open Exec

/-! ## Objects -/

instance : DepthBlind inside (constructObject arguments newTarget : Exec σ Value) := by
  unfold constructObject
  infer_instance

instance : DepthBlind inside (requireCoercible value : Exec σ Unit) := by
  unfold requireCoercible
  infer_instance

instance : DepthBlind inside (ownKeysOf value : Exec σ (List PropertyKey)) := by
  unfold ownKeysOf
  refine .bind inferInstance fun _ => ?_
  split <;> infer_instance

theorem isEnumerable_atDepth (machine : Machine σ) (limit depth : Nat) (value : Value) :
    isEnumerable (machine.atDepth limit depth) value = isEnumerable machine value := by
  funext key
  unfold isEnumerable
  simp only [getOwnProperty?_atDepth]

instance : Unaware fun machine : Machine σ => isEnumerable machine value key :=
  .of_eq fun machine limit depth =>
    congrFun (isEnumerable_atDepth machine limit depth value) key

instance (names : List PropertyKey) :
    Unaware fun machine : Machine σ => names.filter (isEnumerable machine value) :=
  .of_eq fun machine limit depth =>
    congrArg names.filter (isEnumerable_atDepth machine limit depth value)

instance : Unaware fun machine : Machine σ => value.isObject && isEnumerable machine value key :=
  .of_eq fun machine limit depth => congrArg (value.isObject && ·)
    (congrFun (isEnumerable_atDepth machine limit depth value) key)

instance :
    Unaware fun machine : Machine σ =>
      value.objectId?.bind fun id => machine.getOwnProperty? id key :=
  .of_eq fun machine limit depth => by simp only [getOwnProperty?_atDepth]

instance : Unaware fun machine : Machine σ => (machine.getOwnProperty? id key).isSome :=
  .of_eq fun machine limit depth => by simp only [getOwnProperty?_atDepth]

instance :
    Unaware fun machine : Machine σ =>
      if machine.isExtensible id then "Cyclic __proto__ value"
      else machine.display target ++ " is not extensible" :=
  .of_eq fun machine limit depth => by simp only [isExtensible_atDepth, display_atDepth]

instance : Unaware fun machine : Machine σ => defaultTag machine value :=
  .of_eq fun machine limit depth => by
    unfold defaultTag
    simp only [isArray_atDepth]
    rfl

instance : DepthBlind inside (keys target : Exec σ Value) := by
  unfold keys
  infer_instance

instance : DepthBlind inside (getOwnPropertyNames target : Exec σ Value) := by
  unfold getOwnPropertyNames
  infer_instance

instance : DepthBlind inside (prototypeOf target : Exec σ Value) := by
  have show? : ∀ prototype : Option ObjectId, DepthBlind inside (match prototype with
      | some id => ask fun machine => machine.objectValue id
      | none => return .null : Exec σ Value) := by
    intro prototype
    split <;> infer_instance
  unfold prototypeOf
  refine .bind inferInstance fun _ => ?_
  dsimp only
  split
  · exact .bind inferInstance show?
  · exact .bind inferInstance show?

instance : DepthBlind inside (prototypeArgument value : Exec σ (Option ObjectId)) := by
  unfold prototypeArgument
  split <;> infer_instance

instance (prototype : Value) :
    DepthBlind inside (setPrototype target prototype : Exec σ Value) := by
  unfold setPrototype
  refine .bind inferInstance fun _ => ?_
  refine .bind inferInstance fun prototype => ?_
  split <;> infer_instance

instance : DepthBlind inside (descriptorField id value key : Exec σ (Option Value)) := by
  unfold descriptorField
  infer_instance

instance (name : String) (accessor : Option Value) :
    DepthBlind inside (requireAccessor name accessor : Exec σ Unit) := by
  unfold requireAccessor
  split <;> infer_instance

instance : DepthBlind inside (toDescriptor value : Exec σ Descriptor) := by
  unfold toDescriptor
  split <;> infer_instance

instance (descriptor : Descriptor) :
    DepthBlind inside (ofDescriptor descriptor : Exec σ Value) := by
  unfold ofDescriptor
  refine .bind inferInstance fun id => .bind ?_ fun _ => inferInstance
  have field : ∀ (name : String) (value : Option Value) [PropertyKey.Plain (.string name)],
      DepthBlind inside (match value with
        | some value => defineRaw id name (.plain value)
        | none => pure () : Exec σ PUnit) := by
    intro name value _
    split <;> infer_instance
  exact (field "value" _).bind fun _ => (field "writable" _).bind fun _ =>
    (field "get" _).bind fun _ => (field "set" _).bind fun _ =>
      (field "enumerable" _).bind fun _ => (field "configurable" _).bind fun _ =>
        blind_pure PUnit.unit

instance (descriptor : Descriptor) :
    DepthBlind inside (defineOrThrow id key descriptor : Exec σ Unit) := by
  unfold defineOrThrow
  infer_instance

instance (key descriptor : Value) :
    DepthBlind inside (defineProperty target key descriptor : Exec σ Value) := by
  unfold defineProperty
  split <;> infer_instance

instance (key : Value) :
    DepthBlind inside (getOwnPropertyDescriptor target key : Exec σ Value) := by
  unfold getOwnPropertyDescriptor
  refine .bind inferInstance fun _ => ?_
  refine .bind inferInstance fun key => ?_
  refine .bind inferInstance fun found => ?_
  split <;> infer_instance

instance :
    DepthBlind inside (namedDescriptor? properties key :
      Exec σ (Option (PropertyKey × Descriptor))) := by
  unfold namedDescriptor?
  infer_instance

instance (target : ObjectId) :
    DepthBlind inside (defineProperties target properties : Exec σ Unit) := by
  unfold defineProperties
  infer_instance

instance (prototype : Value) :
    DepthBlind inside (createWith prototype properties : Exec σ Value) := by
  unfold createWith
  infer_instance

instance : DepthBlind inside (freeze target : Exec σ Value) := by
  have fixed : ∀ id, DepthBlind inside (change fun machine => machine.freeze id : Exec σ Bool) :=
    fun id => .change (carries_freeze id)
  unfold freeze
  split <;> infer_instance

instance : DepthBlind inside (isFrozen target : Exec σ Value) := by
  unfold isFrozen
  split <;> infer_instance

instance (key : Value) : DepthBlind inside (hasOwnProperty receiver key : Exec σ Value) := by
  unfold hasOwnProperty
  refine .bind inferInstance fun key => ?_
  refine .bind inferInstance fun _ => ?_
  split <;> infer_instance

instance (key : Value) : DepthBlind inside (propertyIsEnumerable receiver key : Exec σ Value) := by
  unfold propertyIsEnumerable
  refine .bind inferInstance fun key => ?_
  refine .bind inferInstance fun _ => ?_
  split <;> infer_instance

instance : DepthBlind inside (isPrototypeOf receiver value : Exec σ Value) := by
  unfold isPrototypeOf
  split
  · infer_instance
  · refine .bind inferInstance fun _ => ?_
    split <;> infer_instance

instance : DepthBlind inside (objectToString receiver : Exec σ Value) := by
  unfold objectToString
  split <;> infer_instance

instance : DepthBlind inside (objectValueOf receiver : Exec σ Value) := by
  unfold objectValueOf
  infer_instance

/-! ## Functions -/

instance : DepthBlind inside (constructFunction : Exec σ Value) := by
  unfold constructFunction
  infer_instance

instance : DepthBlind inside (requireCallable receiver method : Exec σ Unit) := by
  unfold requireCallable
  infer_instance

instance : DepthBlind inside (callMethod receiver arguments : Exec σ Value) := by
  unfold callMethod
  infer_instance

instance : DepthBlind inside (listOfArrayLike value : Exec σ (List Value)) := by
  unfold listOfArrayLike
  infer_instance

instance : DepthBlind inside (applyMethod receiver arguments : Exec σ Value) := by
  unfold applyMethod
  infer_instance

instance : DepthBlind inside (bindMethod receiver arguments : Exec σ Value) := by
  unfold bindMethod
  refine .bind inferInstance fun _ => ?_
  split
  · infer_instance
  · dsimp only
    refine .bind inferInstance fun prototype => ?_
    refine .bind inferInstance fun length => ?_
    refine .bind inferInstance fun name => ?_
    infer_instance

instance : DepthBlind inside (functionToString receiver : Exec σ Value) := by
  unfold functionToString
  split
  · refine .bind inferInstance fun kind => ?_
    split <;> infer_instance
  · infer_instance

/-! ## Arrays -/

instance : DepthBlind inside (constructArray arguments newTarget : Exec σ Value) := by
  unfold constructArray
  infer_instance

instance (length : Nat) (values : List Value) :
    DepthBlind inside (pushGeneric receiver length values : Exec σ Nat) := by
  induction values generalizing length with
  | nil =>
      unfold pushGeneric
      infer_instance
  | cons value rest step =>
      unfold pushGeneric
      infer_instance

instance : DepthBlind inside (arrayPush receiver arguments : Exec σ Value) := by
  unfold arrayPush
  split <;> infer_instance

instance : DepthBlind inside (joinedElement receiver index : Exec σ String) := by
  unfold joinedElement
  infer_instance

instance (separator : Value) : DepthBlind inside (arrayJoin receiver separator : Exec σ Value) := by
  unfold arrayJoin
  infer_instance

instance : DepthBlind inside (arrayToString receiver : Exec σ Value) := by
  unfold arrayToString
  infer_instance

instance : DepthBlind inside (arrayValues receiver : Exec σ Value) := by
  unfold arrayValues
  infer_instance

/-! ## Symbols -/

instance (description : Option String) :
    DepthBlind inside (change fun machine => machine.newSymbol description : Exec σ Value) :=
  .change fun _ _ _ => rfl

instance (description : Value) : DepthBlind inside (createSymbol description : Exec σ Value) := by
  unfold createSymbol
  infer_instance

instance : DepthBlind inside (receiverSymbol receiver method : Exec σ SymbolId) := by
  unfold receiverSymbol
  split <;> infer_instance

instance (id : SymbolId) : Unaware fun machine : Machine σ => machine.symbolText id :=
  ⟨fun _ _ _ _ => rfl⟩

instance : DepthBlind inside (symbolToString receiver : Exec σ Value) := by
  unfold symbolToString
  infer_instance

instance : DepthBlind inside (symbolValueOf receiver : Exec σ Value) := by
  unfold symbolValueOf
  infer_instance

/-! ## Errors -/

instance (error : ObjectId) (options : Value) :
    DepthBlind inside (takeCause error options : Exec σ Unit) := by
  unfold takeCause
  split <;> infer_instance

instance (error : ObjectId) : DepthBlind inside (takeErrors error iterable : Exec σ Unit) := by
  unfold takeErrors
  infer_instance

instance (fault : Fault) :
    Unaware fun machine : Machine σ => (fault.withStack machine.captureStack).trace :=
  ⟨fun _ _ _ _ => rfl⟩

instance (kind : ErrorKind) :
    DepthBlind inside (constructError kind arguments newTarget : Exec σ Value) := by
  unfold constructError
  refine .bind inferInstance fun fallback => ?_
  dsimp only
  split <;>
  · refine .bind inferInstance fun prototype => ?_
    refine .bind inferInstance fun id => ?_
    split <;> split <;>
    · refine .bind inferInstance fun text => ?_
      split <;> infer_instance

instance (fallback : String) : DepthBlind inside (textOr target key fallback : Exec σ String) := by
  unfold textOr
  infer_instance

instance : DepthBlind inside (errorToString receiver : Exec σ Value) := by
  unfold errorToString
  infer_instance

/-! ## Promises -/

instance : DepthBlind inside (constructPromise arguments newTarget : Exec σ Value) := by
  unfold constructPromise
  have goesOn : DepthBlind inside (do
      let fallback <- ask fun machine => machine.intrinsics.promisePrototype
      let prototype <- prototypeFromConstructor newTarget fallback
      let promise <- change fun machine => machine.allocatePromise prototype
      withResolvingFunctions promise fun resolve reject => do
        let _ <- call (argument arguments 0) .undefined [resolve, reject]
      return .object promise : Exec σ Value) := by
    refine .bind inferInstance fun fallback => .bind inferInstance fun prototype => ?_
    infer_instance
  dsimp only
  split <;> infer_instance

instance : DepthBlind inside (receiverPromise receiver method : Exec σ ObjectId) := by
  unfold receiverPromise
  refine .bind inferInstance fun found => ?_
  split <;> infer_instance

instance : DepthBlind inside (promiseThen receiver arguments : Exec σ Value) := by
  unfold promiseThen
  infer_instance

instance (onRejected : Value) :
    DepthBlind inside (promiseCatch receiver onRejected : Exec σ Value) := by
  unfold promiseCatch
  infer_instance

instance : DepthBlind inside (createFinallyStep onFinally settlement : Exec σ Value) :=
  blind_createNative ..

instance : DepthBlind inside (promiseFinally receiver onFinally : Exec σ Value) := by
  unfold promiseFinally
  infer_instance

instance : DepthBlind inside (runFinallyStep onFinally settlement value : Exec σ Value) := by
  have thunk : DepthBlind inside (change fun machine => machine.createNative
      { name := "", behavior := .settled value settlement } 0 : Exec σ Value) :=
    blind_createNative ..
  unfold runFinallyStep
  infer_instance

instance : DepthBlind inside (produceSettlement settlement value : Exec σ Value) := by
  unfold produceSettlement
  cases settlement <;> infer_instance

instance (reason : Value) : DepthBlind inside (rejectedPromise reason : Exec σ Value) := by
  unfold rejectedPromise
  infer_instance

/-! ## Proxies -/

instance blind_constructProxy (arguments : List Value) :
    DepthBlind inside (constructProxy arguments : Exec σ Value) := by
  unfold constructProxy
  infer_instance

instance (constructor : BuiltinConstructor) :
    DepthBlind inside (construct constructor arguments newTarget : Exec σ Value) := by
  unfold construct
  cases constructor <;> infer_instance

end Builtins
end ScriptVM

import ScriptVM.Proofs.Discipline.Properties

/-!
# Promises, classes and built-ins under a discipline

What classes do on behalf of a running frame, what promises do, and every built-in that
does not resume a coroutine obeys every lawful discipline.
-/

namespace ScriptVM

-- Long sequences make large instances.
set_option synthInstance.maxSize 512

variable {σ α : Type} {discipline : Discipline σ} [lawful : discipline.Lawful]
variable (receiver value target newTarget iterable properties onFinally : Value)
  (arguments : List Value) (promise capability : ObjectId) (settlement : Settlement)
  (key : PropertyKey) (kind : CombinatorKind) (index : Nat) (aggregate : AggregateId)
  (method : String)

/-! ## Changes of a machine -/

namespace Discipline

theorem passes_modifyClosure
    (machine : Machine σ)
    (id : ObjectId)
    (change : Closure -> Closure)
    (keeps : ∀ closure, ∃ homeObject fieldInitializer,
      change closure = { closure with homeObject, fieldInitializer }) :
    discipline.passes machine (machine.modifyClosure id change) := by
  refine passes_modifyPayload machine id _ fun kind _ => ?_
  cases kind with
  | function closure =>
      obtain ⟨homeObject, fieldInitializer, changed⟩ := keeps closure
      dsimp only
      rw [changed]
      exact .closure closure homeObject fieldInitializer
  | _ => exact .same _

end Discipline

open Discipline

namespace Exec

/-! ## Classes -/

instance (parent : Value) : Obeys discipline (heritageOf parent) := by
  unfold heritageOf
  refine .bind inferInstance fun constructs => ?_
  split
  · refine .bind inferInstance fun prototype => ?_
    split <;> infer_instance
  · infer_instance

instance (heritage : Option Value) : Obeys discipline (classPrototypes heritage) := by
  unfold classPrototypes
  refine .bind inferInstance fun intrinsics => ?_
  split <;> infer_instance

instance (target : ObjectId) (method : Value) (kind : MethodKind) :
    Obeys discipline (defineMethod target key method kind) := by
  have home : ∀ id, Obeys discipline (update fun machine => machine.modifyClosure id fun closure =>
      { closure with homeObject := some target } : Exec σ Unit) := fun id =>
    .update _ fun machine => passes_modifyClosure machine id _ fun _ => ⟨_, _, rfl⟩
  unfold defineMethod
  split <;> infer_instance

instance (constructor initializer : ObjectId) :
    Obeys discipline (setFieldInitializer constructor initializer) :=
  .update _ fun machine =>
    lawful.trans (passes_modifyClosure machine initializer _ fun _ => ⟨_, _, rfl⟩)
      (passes_modifyClosure _ constructor _ fun _ => ⟨_, _, rfl⟩)

instance (constructor : ObjectId) (this : Value) :
    Obeys discipline (runFieldInitializer constructor this) := by
  unfold runFieldInitializer
  refine .bind inferInstance fun initializer => ?_
  split <;> infer_instance

instance : Obeys discipline currentScope := by
  unfold currentScope
  refine .bind inferInstance fun top => ?_
  split <;> infer_instance

instance : Obeys discipline currentThis := by
  unfold currentThis
  refine .bind inferInstance fun scope => ?_
  refine .bind inferInstance fun this => ?_
  split <;> infer_instance

instance : Obeys discipline (superGet key) := by
  unfold superGet
  refine .bind inferInstance fun scope => ?_
  split
  · infer_instance
  · refine .bind inferInstance fun this => ?_
    refine .bind inferInstance fun prototype => ?_
    split <;> infer_instance

/-! ## Promises -/

instance [settles : discipline.Settling promise] :
    Obeys discipline (settlePromise promise settlement value) :=
  obeys_changeOrRaise _ fun machine =>
    lawful.settlePromise machine settlement value settles.settling

instance (exception : Exception) [discipline.Settling promise] :
    Obeys discipline (rejectWith promise exception) := by
  unfold rejectWith
  infer_instance

theorem obeys_registerReaction
    (promise : ObjectId)
    {reaction : Reaction}
    (registers : discipline.registers reaction) :
    Obeys discipline (registerReaction promise reaction) :=
  obeys_changeOrRaise _ fun machine => lawful.registerReaction machine promise registers

instance : Obeys discipline newPromise :=
  .change _ fun machine => lawful.allocatePromise machine _

/-- What follows the allocation of a promise may settle it. -/
theorem Obeys.newPromiseThen
    {prototype : Machine σ -> ObjectId}
    {next : ObjectId -> Exec σ α}
    (later : ∀ promise, discipline.Settling promise -> Obeys discipline (next promise)) :
    Obeys discipline
      (Exec.change (fun machine => machine.allocatePromise (prototype machine)) >>= next) := by
  refine .changeThen _ discipline.settles (fun machine => lawful.allocatePromise machine _) ?_
    fun promise settles => later promise ⟨settles⟩
  intro machine known
  exact (machine.heap.allocate_fst _ _) ▸ lawful.fresh machine known

instance [settles : discipline.Settling promise] :
    Obeys discipline (createResolvingFunctions promise) :=
  .change _ fun machine => lawful.createResolvingFunctions machine settles.settling

instance (kind : ErrorKind) (message : String) :
    Obeys discipline (change fun machine => machine.createError kind message : Exec σ Value) :=
  .change _ fun machine => passes_errorObject machine _

instance (thenable thenMethod : Value) [settles : discipline.Settling promise] :
    Obeys discipline (update fun machine =>
      machine.submitJob (.resolveThenable promise thenable thenMethod) : Exec σ Unit) :=
  .update _ fun machine => lawful.adopt machine thenable thenMethod settles.settling

theorem obeys_createNative
    {native : NativeFunction}
    (harmless : native.behavior.settles? = none)
    (arity : Nat) :
    Obeys discipline (change fun machine => machine.createNative native arity : Exec σ Value) :=
  .change _ fun machine => passes_createNative machine harmless arity

instance (resolution : Value) [discipline.Settling promise] :
    Obeys discipline (resolvePromise promise resolution) := by
  unfold resolvePromise
  split
  · infer_instance
  · split
    · infer_instance
    · refine .bind inferInstance fun found => ?_
      split <;> infer_instance

instance : Obeys discipline (promiseOf value) := by
  unfold promiseOf
  refine .bind inferInstance fun found => ?_
  split
  · infer_instance
  · exact .newPromiseThen fun promise settles => inferInstance

instance (body : Value -> Value -> Exec σ Unit) [discipline.Settling promise]
    [∀ resolve reject, Obeys discipline (body resolve reject)] :
    Obeys discipline (withResolvingFunctions promise body) := by
  unfold withResolvingFunctions
  refine .bind inferInstance fun functions => ?_
  refine .bind inferInstance fun outcome => ?_
  split <;> infer_instance

instance (id : AggregateId) (fallback : α) (operation : Aggregate Value -> α × Aggregate Value) :
    Obeys discipline (updateAggregate id fallback operation : Exec σ α) :=
  .change _ fun machine => lawful.updateAggregate machine id fallback operation

/-- The error of a combinator is a new object, which may get the list of all errors. -/
instance (entries : List Value) [discipline.Settling capability] :
    Obeys discipline (finishCombinator kind capability entries) := by
  unfold finishCombinator
  refine .bind inferInstance fun list => ?_
  split
  · infer_instance
  · infer_instance
  · refine .changeThen _ (fun error => ∀ id, error.objectId? = some id ->
      discipline.unguarded id) (fun machine => passes_errorObject machine _) ?_ ?_
    · intro machine known id named
      cases named
      exact unguarded_allocate known _ _
    · intro error free
      dsimp only
      split
      · next id named =>
          have frees : discipline.Frees id := ⟨free id named⟩
          infer_instance
      · infer_instance

instance [settles : discipline.Settling capability] :
    Obeys discipline (combinatorElement index aggregate capability settlement) :=
  .change _ fun machine =>
    lawful.createElement machine index aggregate settlement settles.settling

instance (resolve reject : Value) [discipline.Settling capability] :
    Obeys discipline (combinatorHandlers kind resolve reject index aggregate capability :
      Exec σ (Value × Value)) := by
  unfold combinatorHandlers
  cases kind <;> infer_instance

instance (onFulfilled onRejected : Value) :
    Obeys discipline (subscribe promise onFulfilled onRejected) :=
  obeys_registerReaction promise (lawful.registers nofun
    fun settlement _ => by cases settlement <;> exact nofun)

instance (resolve reject : Value) (input : Value) [discipline.Settling capability] :
    Obeys discipline (subscribeInput kind capability resolve reject aggregate input :
      Exec σ Unit) := by
  unfold subscribeInput
  infer_instance

instance [discipline.Settling capability] :
    Obeys discipline (subscribeCombinator kind capability iterable) := by
  have aggregate : Obeys discipline (change fun machine =>
      let (id, cells) := machine.cells.addAggregate kind
      (id, { machine with cells }) : Exec σ AggregateId) :=
    .change _ fun machine => lawful.addAggregate machine kind
  unfold subscribeCombinator
  refine .bind inferInstance fun inputs => ?_
  refine .bind inferInstance fun functions => ?_
  refine .bind inferInstance fun id => ?_
  refine .bind inferInstance fun _ => ?_
  refine .bind inferInstance fun finished => ?_
  split <;> infer_instance

instance : Obeys discipline (combine kind iterable) := by
  unfold combine
  refine .newPromiseThen fun capability settles => ?_
  refine .bind inferInstance fun outcome => ?_
  split <;> infer_instance

instance : Obeys discipline (race iterable) := by
  unfold race
  refine .newPromiseThen fun capability settles => ?_
  refine .bind inferInstance fun functions => ?_
  refine .bind inferInstance fun subscribed => ?_
  split <;> infer_instance

instance : Obeys discipline (combinatorEntry kind settlement value) := by
  unfold combinatorEntry
  cases kind with
  | allSettled =>
      refine .allocateThen fun id frees => ?_
      cases settlement <;> infer_instance
  | _ => infer_instance

instance [discipline.Settling capability] :
    Obeys discipline (reportToCombinator index aggregate capability settlement value :
      Exec σ Unit) := by
  unfold reportToCombinator
  refine .bind inferInstance fun present => ?_
  split
  · infer_instance
  · refine .bind inferInstance fun entry => ?_
    refine .bind inferInstance fun finished => ?_
    split <;> infer_instance

/-- A resolving function obeys if its latch may be used up. -/
theorem obeys_callResolving
    {latch : LatchId}
    (uses : ∀ machine : Machine σ, discipline.passes machine
      { machine with cells := (machine.cells.setLatch latch).2 })
    (promise : ObjectId)
    (reject : Bool)
    (value : Value)
    [discipline.Settling promise] :
    Obeys discipline (callResolving promise latch reject value : Exec σ Unit) := by
  unfold callResolving
  refine .bind (.change _ uses) fun used => ?_
  infer_instance

end Exec

namespace Builtins

open Exec

/-! ## Objects -/

instance : Obeys discipline (constructObject arguments newTarget) := by
  unfold constructObject
  infer_instance

instance : Obeys discipline (requireCoercible value) := by
  unfold requireCoercible
  infer_instance

instance : Obeys discipline (ownKeysOf value) := by
  unfold ownKeysOf
  refine .bind inferInstance fun _ => ?_
  split <;> infer_instance

instance : Obeys discipline (keys target) := by
  unfold keys
  infer_instance

instance : Obeys discipline (getOwnPropertyNames target) := by
  unfold getOwnPropertyNames
  infer_instance

instance : Obeys discipline (prototypeOf target) := by
  have show? : ∀ prototype : Option ObjectId, Obeys discipline (match prototype with
      | some id => ask fun machine => machine.objectValue id
      | none => return .null : Exec σ Value) := by
    intro prototype
    split <;> infer_instance
  unfold prototypeOf
  refine .bind inferInstance fun _ => ?_
  dsimp only
  split
  · exact .bind inferInstance show?
  · exact .bind inferInstance show?

instance : Obeys discipline (prototypeArgument value) := by
  unfold prototypeArgument
  split <;> infer_instance

instance (prototype : Value) : Obeys discipline (setPrototype target prototype) := by
  unfold setPrototype
  refine .bind inferInstance fun _ => ?_
  refine .bind inferInstance fun prototype => ?_
  split <;> infer_instance

instance (id : ObjectId) : Obeys discipline (descriptorField id value key) := by
  unfold descriptorField
  infer_instance

instance (name : String) (accessor : Option Value) :
    Obeys discipline (requireAccessor name accessor) := by
  unfold requireAccessor
  split <;> infer_instance

instance : Obeys discipline (toDescriptor value) := by
  unfold toDescriptor
  split <;> infer_instance

instance (descriptor : Descriptor) : Obeys discipline (ofDescriptor descriptor) := by
  unfold ofDescriptor
  refine .allocateThen fun id frees => .bind ?_ fun _ => inferInstance
  have field : ∀ (name : String) (value : Option Value) [PropertyKey.Plain (.string name)],
      Obeys discipline (match value with
        | some value => defineRaw id name (.plain value)
        | none => pure () : Exec σ PUnit) := by
    intro name value _
    split <;> infer_instance
  exact (field "value" _).bind fun _ => (field "writable" _).bind fun _ =>
    (field "get" _).bind fun _ => (field "set" _).bind fun _ =>
      (field "enumerable" _).bind fun _ => (field "configurable" _).bind fun _ =>
        obeys_pure PUnit.unit

instance (id : ObjectId) (descriptor : Descriptor) :
    Obeys discipline (defineOrThrow id key descriptor) := by
  unfold defineOrThrow
  infer_instance

instance (key descriptor : Value) : Obeys discipline (defineProperty target key descriptor) := by
  unfold defineProperty
  split <;> infer_instance

instance (key : Value) : Obeys discipline (getOwnPropertyDescriptor target key) := by
  unfold getOwnPropertyDescriptor
  refine .bind inferInstance fun _ => ?_
  refine .bind inferInstance fun key => ?_
  refine .bind inferInstance fun found => ?_
  split <;> infer_instance

instance :
    Obeys discipline (namedDescriptor? properties key :
      Exec σ (Option (PropertyKey × Descriptor))) := by
  unfold namedDescriptor?
  infer_instance

instance (target : ObjectId) : Obeys discipline (defineProperties target properties) := by
  unfold defineProperties
  infer_instance

instance (prototype : Value) : Obeys discipline (createWith prototype properties) := by
  unfold createWith
  infer_instance

instance : Obeys discipline (freeze target) := by
  have fixed : ∀ id, Obeys discipline (change fun machine => machine.freeze id : Exec σ Bool) :=
    fun id => .change _ fun machine => passes_freeze machine id
  unfold freeze
  split <;> infer_instance

instance : Obeys discipline (isFrozen target) := by
  unfold isFrozen
  split <;> infer_instance

instance (key : Value) : Obeys discipline (hasOwnProperty receiver key) := by
  unfold hasOwnProperty
  refine .bind inferInstance fun key => ?_
  refine .bind inferInstance fun _ => ?_
  split <;> infer_instance

instance (key : Value) : Obeys discipline (propertyIsEnumerable receiver key) := by
  unfold propertyIsEnumerable
  refine .bind inferInstance fun key => ?_
  refine .bind inferInstance fun _ => ?_
  split <;> infer_instance

instance : Obeys discipline (isPrototypeOf receiver value) := by
  unfold isPrototypeOf
  split
  · infer_instance
  · refine .bind inferInstance fun _ => ?_
    split <;> infer_instance

instance : Obeys discipline (objectToString receiver) := by
  unfold objectToString
  split <;> infer_instance

instance : Obeys discipline (objectValueOf receiver) := by
  unfold objectValueOf
  infer_instance

/-! ## Functions -/

instance : Obeys discipline constructFunction := by
  unfold constructFunction
  infer_instance

instance : Obeys discipline (requireCallable receiver method) := by
  unfold requireCallable
  infer_instance

instance : Obeys discipline (callMethod receiver arguments) := by
  unfold callMethod
  infer_instance

instance : Obeys discipline (listOfArrayLike value) := by
  unfold listOfArrayLike
  infer_instance

instance : Obeys discipline (applyMethod receiver arguments) := by
  unfold applyMethod
  infer_instance

instance : Obeys discipline (bindMethod receiver arguments) := by
  unfold bindMethod
  refine .bind inferInstance fun _ => ?_
  split
  · infer_instance
  · dsimp only
    refine .bind inferInstance fun prototype => ?_
    refine .bind inferInstance fun length => ?_
    refine .bind inferInstance fun name => ?_
    exact .allocateDefining (fun _ => ObjectKind.noConfusion) fun id frees => inferInstance

instance : Obeys discipline (functionToString receiver) := by
  unfold functionToString
  split
  · refine .bind inferInstance fun kind => ?_
    split <;> infer_instance
  · infer_instance

/-! ## Arrays -/

instance : Obeys discipline (constructArray arguments newTarget) := by
  unfold constructArray
  infer_instance

instance (length : Nat) (values : List Value) :
    Obeys discipline (pushGeneric receiver length values) := by
  induction values generalizing length with
  | nil =>
      unfold pushGeneric
      infer_instance
  | cons value rest step =>
      unfold pushGeneric
      infer_instance

instance : Obeys discipline (arrayPush receiver arguments) := by
  unfold arrayPush
  split <;> infer_instance

instance : Obeys discipline (joinedElement receiver index) := by
  unfold joinedElement
  infer_instance

instance (separator : Value) : Obeys discipline (arrayJoin receiver separator) := by
  unfold arrayJoin
  infer_instance

instance : Obeys discipline (arrayToString receiver) := by
  unfold arrayToString
  infer_instance

instance : Obeys discipline (arrayValues receiver) := by
  unfold arrayValues
  infer_instance

/-! ## Symbols -/

instance (description : Option String) :
    Obeys discipline (change fun machine => machine.newSymbol description : Exec σ Value) :=
  .change _ fun machine => passes_newSymbol machine description

instance (description : Value) : Obeys discipline (createSymbol description) := by
  unfold createSymbol
  infer_instance

instance : Obeys discipline (receiverSymbol receiver method) := by
  unfold receiverSymbol
  split <;> infer_instance

instance : Obeys discipline (symbolToString receiver) := by
  unfold symbolToString
  infer_instance

instance : Obeys discipline (symbolValueOf receiver) := by
  unfold symbolValueOf
  infer_instance

/-! ## Errors -/

instance (error : ObjectId) (options : Value) [discipline.Frees error] :
    Obeys discipline (takeCause error options) := by
  unfold takeCause
  split <;> infer_instance

instance (error : ObjectId) [discipline.Frees error] :
    Obeys discipline (takeErrors error iterable) := by
  unfold takeErrors
  infer_instance

instance (kind : ErrorKind) : Obeys discipline (constructError kind arguments newTarget) := by
  unfold constructError
  refine .bind inferInstance fun fallback => ?_
  dsimp only
  split <;>
  · refine .bind inferInstance fun prototype => ?_
    refine .allocateThen fun id frees => ?_
    split <;> split <;>
    · refine .bind inferInstance fun text => ?_
      split <;> infer_instance

instance (fallback : String) : Obeys discipline (textOr target key fallback) := by
  unfold textOr
  infer_instance

instance : Obeys discipline (errorToString receiver) := by
  unfold errorToString
  infer_instance

/-! ## Promises -/

instance : Obeys discipline (constructPromise arguments newTarget) := by
  unfold constructPromise
  have goesOn : Obeys discipline (do
      let fallback <- ask fun machine => machine.intrinsics.promisePrototype
      let prototype <- prototypeFromConstructor newTarget fallback
      let promise <- change fun machine => machine.allocatePromise prototype
      withResolvingFunctions promise fun resolve reject => do
        let _ <- call (argument arguments 0) .undefined [resolve, reject]
      return .object promise : Exec σ Value) := by
    refine .bind inferInstance fun fallback => .bind inferInstance fun prototype => ?_
    exact .newPromiseThen fun promise settles => inferInstance
  dsimp only
  split <;> infer_instance

instance : Obeys discipline (receiverPromise receiver method) := by
  unfold receiverPromise
  refine .bind inferInstance fun found => ?_
  split <;> infer_instance

instance : Obeys discipline (promiseThen receiver arguments) := by
  have passing : ∀ (handler : Handler) (value : Value) (coroutine : ObjectId),
      (∀ other, handler ≠ .asyncResume other) -> handlerOr handler value ≠ .asyncResume coroutine := by
    intro handler value coroutine passes
    unfold handlerOr
    split
    · exact nofun
    · exact passes coroutine
  unfold promiseThen
  refine .bind inferInstance fun promise => .newPromiseThen fun derived settles => ?_
  refine .bind (obeys_registerReaction promise (lawful.registers ?_ ?_)) fun _ => inferInstance
  · rintro _ ⟨⟩
    exact settles.settling
  · intro settlement coroutine
    cases settlement with
    | fulfilled => exact passing _ _ coroutine nofun
    | rejected => exact passing _ _ coroutine nofun

instance (onRejected : Value) : Obeys discipline (promiseCatch receiver onRejected) := by
  unfold promiseCatch
  infer_instance

instance : Obeys discipline (createFinallyStep onFinally settlement) :=
  obeys_createNative rfl 1

instance : Obeys discipline (promiseFinally receiver onFinally) := by
  unfold promiseFinally
  infer_instance

instance : Obeys discipline (runFinallyStep onFinally settlement value) := by
  have thunk : Obeys discipline (change fun machine => machine.createNative
      { name := "", behavior := .settled value settlement } 0 : Exec σ Value) :=
    obeys_createNative rfl 0
  unfold runFinallyStep
  infer_instance

instance : Obeys discipline (produceSettlement settlement value) := by
  unfold produceSettlement
  cases settlement <;> infer_instance

instance (reason : Value) : Obeys discipline (rejectedPromise reason) := by
  unfold rejectedPromise
  exact .newPromiseThen fun promise settles => inferInstance

/-! ## Proxies -/

instance obeys_constructProxy (arguments : List Value) :
    Obeys discipline (constructProxy arguments) := by
  unfold constructProxy
  dsimp only
  split
  · change Obeys discipline (raise (.typeError _) : Exec σ Value)
    infer_instance
  · next objects =>
      rw [Bool.or_eq_true, not_or, Bool.not_eq_true', Bool.not_eq_false, Bool.not_eq_true',
        Bool.not_eq_false] at objects
      have := ObjectKind.inert_proxy objects
      infer_instance

/-- Constructing with a built-in is balanced. -/
instance (constructor : BuiltinConstructor) :
    Obeys discipline (construct constructor arguments newTarget) := by
  unfold construct
  cases constructor <;> infer_instance

end Builtins
end ScriptVM

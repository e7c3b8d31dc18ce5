import ScriptVM.Proofs.DepthBlindness

/-!
# Queries and changes at a depth

What operations ask of a machine does not depend on the native depth, and what they make of it
keeps the depth.
-/

namespace ScriptVM

variable {σ α : Type}

/-! ## Queries -/

namespace Machine

section

variable (machine : Machine σ) (limit depth : Nat)

@[simp] theorem heap_atDepth : (machine.atDepth limit depth).heap = machine.heap := rfl

@[simp] theorem intrinsics_atDepth :
    (machine.atDepth limit depth).intrinsics = machine.intrinsics := rfl

@[simp] theorem cells_atDepth : (machine.atDepth limit depth).cells = machine.cells := rfl

@[simp] theorem frames_atDepth : (machine.atDepth limit depth).frames = machine.frames := rfl

@[simp] theorem arrayStatus?_atDepth (id : ObjectId) :
    (machine.atDepth limit depth).arrayStatus? id = machine.arrayStatus? id := rfl

@[simp] theorem promise?_atDepth (id : ObjectId) :
    (machine.atDepth limit depth).promise? id = machine.promise? id := rfl

@[simp] theorem cache?_atDepth (template : TemplateId) (slot : Nat) :
    (machine.atDepth limit depth).cache? template slot = machine.cache? template slot := rfl

@[simp] theorem throughProxies_atDepth (fuel : Nat) (id : ObjectId) :
    (machine.atDepth limit depth).throughProxies fuel id = machine.throughProxies fuel id := by
  induction fuel generalizing id with
  | zero => rfl
  | succ fuel step =>
      rw [throughProxies, throughProxies, funext step]
      rfl

@[simp] theorem behindProxies?_atDepth (id : ObjectId) :
    (machine.atDepth limit depth).behindProxies? id = machine.behindProxies? id :=
  machine.throughProxies_atDepth ..

@[simp] theorem lookup_atDepth (key : PropertyKey) (fuel : Nat) (id : ObjectId) :
    (machine.atDepth limit depth).lookup key fuel id = machine.lookup key fuel id := by
  induction fuel generalizing id with
  | zero => rfl
  | succ fuel step =>
      rw [lookup, lookup, funext step]
      rfl

@[simp] theorem getOwnProperty?_atDepth (id : ObjectId) (key : PropertyKey) :
    (machine.atDepth limit depth).getOwnProperty? id key = machine.getOwnProperty? id key := by
  unfold getOwnProperty?
  rw [behindProxies?_atDepth]
  rfl

@[simp] theorem ownKeys_atDepth (id : ObjectId) :
    (machine.atDepth limit depth).ownKeys id = machine.ownKeys id := by
  unfold ownKeys
  rw [behindProxies?_atDepth]
  rfl

@[simp] theorem isExtensible_atDepth (id : ObjectId) :
    (machine.atDepth limit depth).isExtensible id = machine.isExtensible id := by
  unfold isExtensible
  rw [behindProxies?_atDepth]
  rfl

@[simp] theorem isFrozen_atDepth (id : ObjectId) :
    (machine.atDepth limit depth).isFrozen id = machine.isFrozen id := by
  unfold isFrozen
  simp only [isExtensible_atDepth, ownKeys_atDepth, getOwnProperty?_atDepth]

@[simp] theorem isArray_atDepth (value : Value) :
    (machine.atDepth limit depth).isArray value = machine.isArray value := by
  unfold isArray
  rw [funext (machine.behindProxies?_atDepth limit depth)]
  rfl

@[simp] theorem isConstructorWithin_atDepth (fuel : Nat) (value : Value) :
    (machine.atDepth limit depth).isConstructorWithin fuel value =
      machine.isConstructorWithin fuel value := by
  induction fuel generalizing value with
  | zero => rfl
  | succ fuel step =>
      rw [isConstructorWithin, isConstructorWithin, funext step]
      rfl

@[simp] theorem isConstructor_atDepth (value : Value) :
    (machine.atDepth limit depth).isConstructor value = machine.isConstructor value :=
  machine.isConstructorWithin_atDepth ..

@[simp] theorem mayLink_atDepth (id : ObjectId) (fuel : Nat) (ancestor : Option ObjectId) :
    (machine.atDepth limit depth).mayLink id fuel ancestor =
      machine.mayLink id fuel ancestor := by
  induction fuel generalizing ancestor with
  | zero => cases ancestor <;> rfl
  | succ fuel step =>
      cases ancestor with
      | none => rfl
      | some ancestor =>
          rw [mayLink, mayLink, funext step]
          rfl

theorem meetOwnKeys_atDepth (id : ObjectId) (found : FoundKeys) :
    (machine.atDepth limit depth).meetOwnKeys id found = machine.meetOwnKeys id found := by
  have meet : FoundKeys.meet (machine.atDepth limit depth) id = FoundKeys.meet machine id := by
    funext found key
    cases key with
    | symbol => rfl
    | string name =>
        unfold FoundKeys.meet ownsEnumerable
        rw [getOwnProperty?_atDepth]
  unfold meetOwnKeys
  rw [ownKeys_atDepth, meet]

/-! ## Texts -/

theorem lookupData?_atDepth (key : PropertyKey) (fuel : Nat) (id : ObjectId) :
    (machine.atDepth limit depth).lookupData? key fuel id = machine.lookupData? key fuel id := by
  induction fuel generalizing id with
  | zero => rfl
  | succ fuel step =>
      rw [lookupData?, lookupData?, funext step]
      rfl

theorem renderError_atDepth (id : ObjectId) :
    (machine.atDepth limit depth).renderError id = machine.renderError id := by
  have field : ∀ name, (machine.atDepth limit depth).renderedField? id name =
      machine.renderedField? id name := by
    intro name
    unfold renderedField?
    rw [lookupData?_atDepth]
    rfl
  unfold renderError
  simp only [field]

theorem render_atDepth (fuel : Nat) (visiting : List ObjectId) (value : Value) :
    (machine.atDepth limit depth).render fuel visiting value =
      machine.render fuel visiting value := by
  have error := machine.renderError_atDepth limit depth
  induction fuel generalizing visiting value with
  | zero =>
      unfold render
      simp only [error]
      rfl
  | succ fuel step =>
      unfold render
      simp only [error, step]
      rfl

@[simp] theorem display_atDepth (value : Value) :
    (machine.atDepth limit depth).display value = machine.display value :=
  machine.render_atDepth ..

end

/-! ## Unaware queries -/

variable (id : ObjectId) (value : Value) (key : PropertyKey) {limit depth : Nat} {condition : Prop}

/-- What is the same at every depth does not depend on the depth. -/
theorem Unaware.of_eq
    {query : Machine σ -> α}
    (same : ∀ (machine : Machine σ) (limit depth : Nat),
      query (machine.atDepth limit depth) = query machine) :
    Unaware query :=
  ⟨fun limit first second machine =>
    (same machine limit first).trans (same machine limit second).symm⟩

instance (answer : α) : Unaware fun _ : Machine σ => answer := ⟨fun _ _ _ _ => rfl⟩

instance (first second : Machine σ -> String) [left : Unaware first] [right : Unaware second] :
    Unaware fun machine => first machine ++ second machine :=
  ⟨fun limit deep shallow machine => congrArg₂ (· ++ ·)
    (left.same limit deep shallow machine) (right.same limit deep shallow machine)⟩

instance : Unaware fun machine : Machine σ => machine.intrinsics :=
  ⟨fun _ _ _ _ => rfl⟩

instance : Unaware fun machine : Machine σ => machine.intrinsics.global :=
  ⟨fun _ _ _ _ => rfl⟩

instance : Unaware fun machine : Machine σ => Value.object machine.intrinsics.global :=
  ⟨fun _ _ _ _ => rfl⟩

instance : Unaware fun machine : Machine σ => machine.intrinsics.objectPrototype :=
  ⟨fun _ _ _ _ => rfl⟩

instance : Unaware fun machine : Machine σ => machine.intrinsics.stringPrototype :=
  ⟨fun _ _ _ _ => rfl⟩

instance : Unaware fun machine : Machine σ => machine.intrinsics.arrayPrototype :=
  ⟨fun _ _ _ _ => rfl⟩

instance : Unaware fun machine : Machine σ => machine.intrinsics.arrayIteratorPrototype :=
  ⟨fun _ _ _ _ => rfl⟩

instance : Unaware fun machine : Machine σ => machine.intrinsics.generatorPrototype :=
  ⟨fun _ _ _ _ => rfl⟩

instance : Unaware fun machine : Machine σ => machine.intrinsics.promisePrototype :=
  ⟨fun _ _ _ _ => rfl⟩

instance (kind : ErrorKind) :
    Unaware fun machine : Machine σ => machine.intrinsics.errorPrototypeOf kind :=
  ⟨fun _ _ _ _ => rfl⟩

instance : Unaware fun machine : Machine σ => machine.primitivePrototype? value :=
  ⟨fun _ _ _ _ => rfl⟩

instance : Unaware fun machine : Machine σ => machine.config.maxPrototypeChain :=
  ⟨fun _ _ _ _ => rfl⟩

instance : Unaware fun machine : Machine σ => machine.kind? id :=
  ⟨fun _ _ _ _ => rfl⟩

instance : Unaware fun machine : Machine σ => machine.kindOf? value :=
  ⟨fun _ _ _ _ => rfl⟩

instance : Unaware fun machine : Machine σ => machine.heap.prototypeOf id :=
  ⟨fun _ _ _ _ => rfl⟩

instance : Unaware fun machine : Machine σ => machine.arrayStatus? id :=
  ⟨fun _ _ _ _ => rfl⟩

instance : Unaware fun machine : Machine σ => machine.objectValue id :=
  ⟨fun _ _ _ _ => rfl⟩

instance : Unaware fun machine : Machine σ => machine.promiseId? value :=
  ⟨fun _ _ _ _ => rfl⟩

instance : Unaware fun machine : Machine σ => machine.coroutine? id :=
  ⟨fun _ _ _ _ => rfl⟩

instance : Unaware fun machine : Machine σ => machine.frames.size :=
  ⟨fun _ _ _ _ => rfl⟩

instance : Unaware fun machine : Machine σ => machine.top? :=
  ⟨fun _ _ _ _ => rfl⟩

instance : Unaware fun machine : Machine σ => machine.inlineCallee? value :=
  ⟨fun _ _ _ _ => rfl⟩

instance : Unaware fun machine : Machine σ => machine.displayKey key :=
  ⟨fun _ _ _ _ => rfl⟩

instance : Unaware fun machine : Machine σ => machine.behindProxies? id :=
  .of_eq fun machine limit depth => machine.behindProxies?_atDepth limit depth id

instance : Unaware fun machine : Machine σ => machine.getOwnProperty? id key :=
  .of_eq fun machine limit depth => machine.getOwnProperty?_atDepth limit depth id key

instance : Unaware fun machine : Machine σ => machine.ownKeys id :=
  .of_eq fun machine limit depth => machine.ownKeys_atDepth limit depth id

instance : Unaware fun machine : Machine σ => machine.isExtensible id :=
  .of_eq fun machine limit depth => machine.isExtensible_atDepth limit depth id

instance : Unaware fun machine : Machine σ => machine.isFrozen id :=
  .of_eq fun machine limit depth => machine.isFrozen_atDepth limit depth id

instance : Unaware fun machine : Machine σ => machine.isArray value :=
  .of_eq fun machine limit depth => machine.isArray_atDepth limit depth value

instance : Unaware fun machine : Machine σ => machine.isConstructor value :=
  .of_eq fun machine limit depth => machine.isConstructor_atDepth limit depth value

instance : Unaware fun machine : Machine σ => machine.display value :=
  .of_eq fun machine limit depth => machine.display_atDepth limit depth value

instance :
    Unaware fun machine : Machine σ => machine.lookup key machine.config.maxPrototypeChain id :=
  .of_eq fun machine limit depth => machine.lookup_atDepth limit depth key _ id

section

variable (machine : Machine σ) (limit depth : Nat)

theorem allocate_atDepth (prototype : Option ObjectId) (kind : ObjectKind) :
    (machine.atDepth limit depth).allocate prototype kind =
      ((machine.allocate prototype kind).1,
        (machine.allocate prototype kind).2.atDepth limit depth) := rfl

theorem defineRaw_atDepth (id : ObjectId) (key : PropertyKey) (property : Property) :
    (machine.atDepth limit depth).defineRaw id key property =
      (machine.defineRaw id key property).atDepth limit depth := rfl

end

/-! ## Choices -/

/-- A choice between changes keeps the depth where both changes do. -/
theorem ite_carried
    {first second : Decidable condition}
    {left right left' right' : α × Machine σ}
    (holds : left' = (left.1, left.2.atDepth limit depth))
    (fails : right' = (right.1, right.2.atDepth limit depth)) :
    @ite _ condition first left' right' =
      ((@ite _ condition second left right).1,
        (@ite _ condition second left right).2.atDepth limit depth) := by
  by_cases chosen : condition
  · simpa only [if_pos chosen] using holds
  · simpa only [if_neg chosen] using fails

/-- A choice between changes without an answer keeps the depth where both changes do. -/
theorem ite_moved
    {first second : Decidable condition}
    {left right left' right' : Machine σ}
    (holds : left' = left.atDepth limit depth)
    (fails : right' = right.atDepth limit depth) :
    @ite _ condition first left' right' =
      (@ite _ condition second left right).atDepth limit depth := by
  by_cases chosen : condition
  · simpa only [if_pos chosen] using holds
  · simpa only [if_neg chosen] using fails

/-! ## Changes of objects -/

theorem carries_errorObject (fault : Fault) :
    CarriesDepth fun machine : Machine σ => machine.errorObject fault := by
  intro limit depth machine
  unfold errorObject
  dsimp only
  split <;> rfl

theorem carries_exceptionValue (exception : Exception) :
    CarriesDepth fun machine : Machine σ => machine.exceptionValue exception := by
  cases exception with
  | value => exact fun _ _ _ => rfl
  | fault fault => exact carries_errorObject fault

theorem carries_createError (kind : ErrorKind) (message : String) :
    CarriesDepth fun machine : Machine σ => machine.createError kind message :=
  fun limit depth machine => carries_errorObject _ limit depth machine

theorem carries_defineOrdinary (id : ObjectId) (key : PropertyKey) (descriptor : Descriptor) :
    CarriesDepth fun machine : Machine σ => machine.defineOrdinary id key descriptor := by
  intro limit depth machine
  simp only [defineOrdinary, heap_atDepth]
  cases machine.heap.getOwn? id key with
  | none => exact ite_carried rfl rfl
  | some current => exact ite_carried rfl rfl

theorem carries_setElement (id : ObjectId) (index : Nat) (value : Value) :
    CarriesDepth fun machine : Machine σ => machine.setElement id index value := by
  intro limit depth machine
  simp only [setElement, heap_atDepth, arrayStatus?_atDepth]
  cases machine.arrayStatus? id with
  | none => rfl
  | some status =>
      obtain ⟨size, frozen⟩ := status
      cases frozen with
      | true => rfl
      | false => exact ite_carried rfl (ite_carried rfl (ite_carried rfl rfl))

theorem carries_setLength (id : ObjectId) (length : Nat) :
    CarriesDepth fun machine : Machine σ => machine.setLength id length := by
  intro limit depth machine
  simp only [setLength, arrayStatus?_atDepth]
  split <;> rfl

theorem carries_pushElement (id : ObjectId) (value : Value) :
    CarriesDepth fun machine : Machine σ => machine.pushElement id value := by
  intro limit depth machine
  simp only [pushElement, arrayStatus?_atDepth]
  split <;> rfl

theorem carries_deleteElement (id : ObjectId) (index : Nat) :
    CarriesDepth fun machine : Machine σ => machine.deleteElement id index := by
  intro limit depth machine
  simp only [deleteElement, arrayStatus?_atDepth]
  split <;> rfl

theorem carries_deleteOrdinary (id : ObjectId) (key : PropertyKey) :
    CarriesDepth fun machine : Machine σ => machine.deleteOrdinary id key := by
  intro limit depth machine
  have delete := fun index => carries_deleteElement id index limit depth machine
  simp only [deleteOrdinary, heap_atDepth, arrayStatus?_atDepth]
  split
  · exact delete _
  · split
    · rfl
    · cases machine.heap.getOwn? id key with
      | none => rfl
      | some property => exact ite_carried rfl rfl

theorem carries_setPrototypeOf (id : ObjectId) (prototype : Option ObjectId) :
    CarriesDepth fun machine : Machine σ => machine.setPrototypeOf id prototype := by
  intro limit depth machine
  have bound : (machine.atDepth limit depth).config.maxPrototypeChain =
      machine.config.maxPrototypeChain := rfl
  simp only [setPrototypeOf, heap_atDepth, behindProxies?_atDepth, mayLink_atDepth, bound]
  split
  · rfl
  · split
    · rfl
    · split
      · rfl
      · split <;> rfl

theorem carries_preventExtensions (id : ObjectId) :
    CarriesDepth fun machine : Machine σ => machine.preventExtensions id := by
  intro limit depth machine
  simp only [preventExtensions, behindProxies?_atDepth]
  split <;> rfl

theorem carries_freeze (id : ObjectId) :
    CarriesDepth fun machine : Machine σ => machine.freeze id := by
  intro limit depth machine
  simp only [freeze, heap_atDepth, behindProxies?_atDepth]
  cases machine.behindProxies? id with
  | none => rfl
  | some id => exact ite_carried rfl rfl

theorem moves_defineArguments (id : ObjectId) (index : Nat) (arguments : List Value) :
    Moves fun machine : Machine σ => machine.defineArguments id index arguments := by
  intro limit depth machine
  induction arguments generalizing index machine with
  | nil => rfl
  | cons value rest step => exact step (index + 1) (machine.defineRaw id _ (.plain value))

theorem carries_createArguments (arguments : List Value) :
    CarriesDepth fun machine : Machine σ => machine.createArguments arguments := by
  intro limit depth machine
  have elements := moves_defineArguments
    (machine.allocate (some machine.intrinsics.objectPrototype) .arguments).1 0 arguments limit
    depth (machine.allocate (some machine.intrinsics.objectPrototype) .arguments).2
  exact congrArg (fun after : Machine σ => (_, after.defineRaw _ _ _)) elements

/-! ## Caches -/

theorem readThrough_atDepth
    (machine : Machine σ)
    (limit depth : Nat)
    (id : ObjectId)
    (shape : ShapeId)
    (key : PropertyKey)
    (cache : InlineCache) :
    (machine.atDepth limit depth).readThrough id shape key cache =
      machine.readThrough id shape key cache := rfl

theorem carries_cachedLookup
    (id : ObjectId) (key : PropertyKey) (template : TemplateId) (slot : Nat) :
    CarriesDepth fun machine : Machine σ => machine.cachedLookup id key template slot := by
  intro limit depth machine
  have plain : (machine.atDepth limit depth).isPlain id = machine.isPlain id := rfl
  simp only [cachedLookup, heap_atDepth, cache?_atDepth, readThrough_atDepth, plain]
  cases machine.isPlain id with
  | false => rfl
  | true =>
      cases machine.heap.shapeOf? id with
      | none => rfl
      | some shape =>
          cases machine.cache? template slot with
          | none => rfl
          | some cache =>
              dsimp only
              exact ite_carried rfl (ite_carried rfl rfl)

theorem carries_cachedStore (id : ObjectId) (value : Value) (template : TemplateId) (slot : Nat) :
    CarriesDepth fun machine : Machine σ => machine.cachedStore id value template slot := by
  intro limit depth machine
  simp only [cachedStore, heap_atDepth, cache?_atDepth]
  split
  · exact ite_carried rfl rfl
  · rfl

theorem moves_rememberOwn (id : ObjectId) (key : PropertyKey) (template : TemplateId) (slot : Nat) :
    Moves fun machine : Machine σ => machine.rememberOwn id key template slot := by
  intro limit depth machine
  simp only [rememberOwn, heap_atDepth, cache?_atDepth]
  split
  · exact ite_moved rfl rfl
  · rfl

/-! ## Frames -/

theorem moves_setRegister (register : Register) (value : Value) :
    Moves fun machine : Machine σ => machine.setRegister register value := by
  intro limit depth machine
  simp only [setRegister, frames_atDepth]
  split <;> rfl

theorem moves_popFrame : Moves (popFrame : Machine σ -> Machine σ) := by
  intro limit depth machine
  simp only [popFrame, frames_atDepth]
  split <;> rfl

theorem moves_detachFrom (first : Register) :
    Moves fun machine : Machine σ => machine.detachFrom first := by
  intro limit depth machine
  simp only [detachFrom, frames_atDepth]
  split <;> rfl

theorem carries_openFrame
    (function : ObjectId) (closure : Closure) (scope : Scope) (arguments : List Value)
    (returnTo : ReturnTo) :
    CarriesDepth fun machine : Machine σ =>
      machine.openFrame function closure scope arguments returnTo := by
  intro limit depth machine
  unfold openFrame
  dsimp only
  split <;> rfl

theorem callFrame_atDepth
    (machine : Machine σ) (limit depth : Nat) (function : ObjectId) (closure : Closure)
    (receiver : Value) (arguments : List Value) (returnTo : ReturnTo) :
    (machine.atDepth limit depth).callFrame function closure receiver arguments returnTo =
      ((machine.callFrame function closure receiver arguments returnTo).1,
        (machine.callFrame function closure receiver arguments returnTo).2.atDepth
          limit depth) :=
  carries_openFrame _ _ _ _ _ limit depth machine

theorem instancePrototype?_atDepth
    (machine : Machine σ) (limit depth : Nat) (function : ObjectId) (kind : FunctionKind) :
    (machine.atDepth limit depth).instancePrototype? function kind =
      ((machine.instancePrototype? function kind).1,
        (machine.instancePrototype? function kind).2.atDepth limit depth) := by
  cases kind <;> rfl

theorem carries_instantiate (closure : Closure) :
    CarriesDepth fun machine : Machine σ => machine.instantiate closure := by
  intro limit depth machine
  unfold instantiate
  simp only [intrinsics_atDepth, allocate_atDepth, defineRaw_atDepth,
    instancePrototype?_atDepth]
  generalize instancePrototype? _ _ _ = made
  obtain ⟨prototype, machine⟩ := made
  cases prototype <;> rfl

theorem carries_captureClosure (template : Template) :
    CarriesDepth fun machine : Machine σ => machine.captureClosure template := by
  intro limit depth machine
  simp only [captureClosure, frames_atDepth]
  split <;> rfl

theorem exceptionValue_atDepth (machine : Machine σ) (limit depth : Nat) (exception : Exception) :
    (machine.atDepth limit depth).exceptionValue exception =
      ((machine.exceptionValue exception).1,
        (machine.exceptionValue exception).2.atDepth limit depth) :=
  carries_exceptionValue exception limit depth machine

theorem popFrame_atDepth (machine : Machine σ) (limit depth : Nat) :
    (machine.atDepth limit depth).popFrame = machine.popFrame.atDepth limit depth :=
  moves_popFrame limit depth machine

theorem setRegister_atDepth
    (machine : Machine σ) (limit depth : Nat) (register : Register) (value : Value) :
    (machine.atDepth limit depth).setRegister register value =
      (machine.setRegister register value).atDepth limit depth :=
  moves_setRegister register value limit depth machine

theorem carries_unwind (exception : Exception) (count : Nat) :
    CarriesDepth fun machine : Machine σ => machine.unwind exception count := by
  intro limit depth machine
  induction count generalizing machine with
  | zero => rfl
  | succ count step =>
      simp only [unwind, frames_atDepth, exceptionValue_atDepth, popFrame_atDepth]
      split
      · rfl
      · split
        · rfl
        · rfl
        · exact step machine.popFrame

theorem constructResult_atDepth
    (machine : Machine σ) (limit depth : Nat) (frame : Frame) (value : Value) :
    (machine.atDepth limit depth).constructResult frame value =
      machine.constructResult frame value := rfl

theorem carries_returnFrom (base : Nat) (value : Value) (count : Nat) :
    CarriesDepth fun machine : Machine σ => machine.returnFrom base value count := by
  intro limit depth machine
  induction count generalizing machine value with
  | zero => rfl
  | succ count step =>
      simp only [returnFrom, frames_atDepth, popFrame_atDepth, constructResult_atDepth,
        setRegister_atDepth]
      split
      · rfl
      · split
        · rfl
        · split
          · rfl
          · refine ite_carried rfl ?_
            split
            · rfl
            · rfl
            · exact step _ machine.popFrame

theorem modifyTop_atDepth (machine : Machine σ) (limit depth : Nat) (change : Frame -> Frame) :
    (machine.atDepth limit depth).modifyTop change =
      (machine.modifyTop change).atDepth limit depth := rfl

theorem carries_endFinally (base : Nat) :
    CarriesDepth fun machine : Machine σ => machine.endFinally base := by
  intro limit depth machine
  simp only [endFinally, frames_atDepth, modifyTop_atDepth]
  split
  · rfl
  · split
    · split
      · rfl
      · exact carries_returnFrom base _ _ limit depth _
      · rfl
      · rfl
      · rfl
    · rfl

/-! ## Promises -/

theorem enqueueJobs_atDepth
    (machine : Machine σ) (limit depth : Nat) (job : α -> Job σ) (reactions : List α) :
    reactions.foldl (fun machine reaction => machine.enqueueJob (job reaction))
        (machine.atDepth limit depth) =
      (reactions.foldl (fun machine reaction => machine.enqueueJob (job reaction))
        machine).atDepth limit depth := by
  induction reactions generalizing machine with
  | nil => rfl
  | cons reaction rest step => exact step (machine.enqueueJob (job reaction))

theorem carries_settlePromise (promise : ObjectId) (settlement : Settlement) (value : Value) :
    CarriesDepth fun machine : Machine σ => machine.settlePromise promise settlement value := by
  intro limit depth machine
  simp only [settlePromise, promise?_atDepth]
  split
  · rfl
  · split
    · rfl
    · next reactions record settled =>
        refine Prod.ext rfl ?_
        dsimp only
        rw [← enqueueJobs_atDepth]
        refine congrArg (fun machine : Machine σ => reactions.foldl (fun machine reaction =>
          machine.enqueueJob (reactionJob reaction settlement value)) machine) ?_
        exact ite_moved rfl rfl

theorem carries_registerReaction (promise : ObjectId) (reaction : Reaction) :
    CarriesDepth fun machine : Machine σ => machine.registerReaction promise reaction := by
  intro limit depth machine
  simp only [registerReaction, promise?_atDepth]
  split
  · rfl
  · split <;> rfl

theorem createNative_atDepth
    (machine : Machine σ) (limit depth : Nat) (native : NativeFunction) (arity : Nat) :
    (machine.atDepth limit depth).createNative native arity =
      ((machine.createNative native arity).1,
        (machine.createNative native arity).2.atDepth limit depth) := rfl

theorem carries_createResolvingFunctions (promise : ObjectId) :
    CarriesDepth fun machine : Machine σ => machine.createResolvingFunctions promise := by
  intro limit depth machine
  have latched : ({ machine.atDepth limit depth with cells := machine.cells.addLatch.2 } :
      Machine σ) = { machine with cells := machine.cells.addLatch.2 }.atDepth limit depth := rfl
  simp only [createResolvingFunctions, cells_atDepth, latched, createNative_atDepth]

theorem carries_uncaught (exception : Exception) :
    CarriesDepth fun machine : Machine σ => machine.uncaught exception := by
  intro limit depth machine
  unfold uncaught
  simp only [exceptionValue_atDepth, display_atDepth]

end Machine
end ScriptVM

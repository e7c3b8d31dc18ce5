import ScriptVM.Machine.CachedAccess
import ScriptVM.Machine.Enumeration
import ScriptVM.Machine.Operators
import ScriptVM.Proofs.Discipline

/-!
# Property operations under a discipline

Reading, writing, converting, comparing, iterating and enumerating obey every lawful
discipline.
-/

namespace ScriptVM

variable {σ α : Type} {discipline : Discipline σ} [lawful : discipline.Lawful]
variable (value target receiver left right handler result : Value) (key : PropertyKey)
  (id : ObjectId)

/-! ## Objects that are not proxies -/

namespace Machine

variable {machine : Machine σ} {id : ObjectId} {key : PropertyKey}

omit lawful

theorem kind?_of_live
    {object : HeapObject ObjectKind}
    (live : machine.heap.get? id = some object) :
    machine.kind? id = some object.payload := by
  unfold kind? Heap.payload?
  rw [live]
  rfl

theorem isProxy_of_live
    (bare : machine.isProxy id = false)
    {object : HeapObject ObjectKind}
    (live : machine.heap.get? id = some object) :
    object.payload.isProxy = false := by
  unfold isProxy at bare
  rw [kind?_of_live live] at bare
  exact bare

theorem kind?_of_bare (bare : machine.isProxy id = false) (target handler : Value) :
    machine.kind? id ≠ some (.proxy target handler) := by
  intro present
  simp [isProxy, present, ObjectKind.isProxy] at bare

theorem exists_proxy_of_isProxy (proxy : machine.isProxy id = true) :
    ∃ target handler, machine.kind? id = some (.proxy target handler) := by
  unfold isProxy at proxy
  cases present : machine.kind? id with
  | none =>
      rw [present] at proxy
      cases proxy
  | some kind =>
      rw [present] at proxy
      cases kind with
      | proxy target handler => exact ⟨target, handler, rfl⟩
      | _ => cases proxy

theorem behindProxies?_of_bare (bare : machine.isProxy id = false) :
    machine.behindProxies? id = some id := by
  unfold behindProxies? throughProxies
  split
  · next target handler present => exact absurd present (kind?_of_bare bare _ _)
  · rfl

/-- Apart from elements and length of arrays, own properties are in the table. -/
theorem ordinaryOwnProperty?_of_table
    (named : (machine.arrayStatus? id).isSome = true ->
      key.arrayIndex? = none ∧ (key == lengthKey) = false) :
    machine.ordinaryOwnProperty? id key = machine.heap.getOwn? id key := by
  unfold ordinaryOwnProperty?
  split
  · next store present =>
      have array : (machine.arrayStatus? id).isSome = true := by
        unfold arrayStatus?
        rw [present]
        rfl
      rw [(named array).1]
      dsimp only
      rw [(named array).2, if_neg Bool.false_ne_true]
  · rfl

/-- The table of an object has no key of an element, and no length, if it is an array. -/
theorem tells_of_arrayStatus?
    (named : (machine.arrayStatus? id).isSome = true ->
      key.arrayIndex? = none ∧ (key == lengthKey) = false) :
    machine.heap.Tells id key := by
  intro store present
  apply named
  unfold arrayStatus? kind?
  rw [present]
  rfl

@[simp] theorem size_resizeElements (length : Nat) (elements : Array Value) :
    (resizeElements length elements).size = length := by
  unfold resizeElements
  split <;> simp <;> omega

/-- Where a property in the table is what an object has, it is as writable as that. -/
theorem isWritable_of_table
    {property existing : Property}
    (found : machine.getOwnProperty? id key = some property)
    (writable : property.isWritable = true)
    (named : (machine.arrayStatus? id).isSome = true ->
      key.arrayIndex? = none ∧ (key == lengthKey) = false)
    (own : machine.heap.getOwn? id key = some existing) :
    (existing.isWritable || machine.isProxy id) = true := by
  cases bare : machine.isProxy id with
  | true => exact Bool.or_true _
  | false =>
      unfold getOwnProperty? at found
      rw [behindProxies?_of_bare bare, Option.bind_some, ordinaryOwnProperty?_of_table named,
        own] at found
      cases found
      rw [writable]
      rfl

end Machine

/-! ## Changes of a machine -/

namespace Discipline

variable {id : ObjectId} (machine : Machine σ)

theorem unguarded_allocate
    {machine : Machine σ}
    (known : discipline.knows machine)
    (prototype : Option ObjectId)
    (kind : ObjectKind) :
    discipline.unguarded (machine.allocate prototype kind).1 :=
  (machine.heap.allocate_fst prototype kind) ▸ lawful.next machine known

theorem passes_define
    (free : discipline.unguarded id)
    {key : PropertyKey}
    (tells : machine.heap.Tells id key)
    (property : Property) :
    discipline.passes machine (machine.defineRaw id key property) :=
  lawful.heap machine (.define machine.heap id key property free tells)

theorem passes_definePlain
    (free : discipline.unguarded id)
    (key : PropertyKey)
    [key.Plain]
    (property : Property) :
    discipline.passes machine (machine.defineRaw id key property) :=
  passes_define machine free (machine.heap.tells_of_plain id key) property

theorem passes_createArray (elements : Array Value) :
    discipline.passes machine (machine.createArray elements).2 :=
  lawful.allocate machine _ (.array { elements })

theorem passes_modifyPayload
    (id : ObjectId)
    (change : ObjectKind -> ObjectKind)
    (advances : ∀ kind, machine.kind? id = some kind -> kind.Advances (change kind)) :
    discipline.passes machine
      (machine.modifyHeap fun heap => heap.modifyPayload id change) :=
  lawful.heap machine (.modifyPayload machine.heap id change advances)

/-- The elements of an array that is not frozen may change, but only an append passes the
bound on their number. -/
theorem passes_modifyElements
    {size : Nat}
    (status : machine.arrayStatus? id = some (size, false))
    (change : Array Value -> Array Value)
    (grows : ∀ elements : Array Value, elements.size = size ->
      (change elements).size <= max size Machine.maxArrayLength ∨
        (change elements).size = size + 1) :
    discipline.passes machine (machine.modifyElements id change) := by
  refine passes_modifyPayload machine id _ fun kind present => ?_
  unfold Machine.arrayStatus? at status
  rw [present] at status
  cases kind with
  | array store =>
      obtain ⟨size, thawed⟩ := Prod.mk.inj (Option.some.inj status)
      refine .array store _ (fun frozen => ?_) ?_
      · rw [thawed] at frozen
        cases frozen
      · subst size
        exact grows store.elements rfl
  | _ => exact .same _

theorem passes_errorObject (fault : Fault) :
    discipline.passes machine (machine.errorObject fault).2 := by
  refine lawful.known fun known => ?_
  unfold Machine.errorObject
  have free := unguarded_allocate known
    (some (machine.intrinsics.errorPrototypeOf fault.kind)) .error
  have made := lawful.allocate machine
    (some (machine.intrinsics.errorPrototypeOf fault.kind)) .error
  cases allocated : machine.allocate
      (some (machine.intrinsics.errorPrototypeOf fault.kind)) .error with
  | mk id allocatedMachine =>
      rw [allocated] at free made
      dsimp only at free made ⊢
      split
      · exact lawful.trans made (lawful.trans (passes_definePlain _ free _ _)
          (lawful.trans (passes_definePlain _ free _ _) (passes_definePlain _ free _ _)))
      · exact lawful.trans made
          (lawful.trans (passes_definePlain _ free _ _) (passes_definePlain _ free _ _))

theorem passes_exceptionValue (exception : Exception) :
    discipline.passes machine (machine.exceptionValue exception).2 := by
  cases exception with
  | value value => exact lawful.refl machine
  | fault fault => exact passes_errorObject machine fault

theorem passes_createNative
    {native : NativeFunction}
    (harmless : native.behavior.settles? = none)
    (arity : Nat) :
    discipline.passes machine (machine.createNative native arity).2 := by
  refine lawful.known fun known => ?_
  have inert := ObjectKind.inert_native harmless
  have free := unguarded_allocate known (some machine.intrinsics.functionPrototype)
    (.native native)
  have tells := machine.heap.tells_allocate (some machine.intrinsics.functionPrototype)
    (fun store => @ObjectKind.noConfusion _ (.native native) (.array store))
  exact lawful.trans (lawful.allocate machine _ (.native native))
    (lawful.trans (passes_define _ free (tells _) _) (passes_definePlain _ free _ _))

theorem passes_iterationResult (value : Value) (done : Bool) :
    discipline.passes machine (machine.iterationResult value done).2 := by
  refine lawful.known fun known => ?_
  have free := unguarded_allocate known (some machine.intrinsics.objectPrototype) .ordinary
  exact lawful.trans (lawful.allocate machine _ .ordinary)
    (lawful.trans (passes_definePlain _ free _ _) (passes_definePlain _ free _ _))

theorem passes_newSymbol (description : Option String) :
    discipline.passes machine (machine.newSymbol description).2 :=
  lawful.symbols machine _

theorem passes_setElement (id : ObjectId) (index : Nat) (value : Value) :
    discipline.passes machine (machine.setElement id index value).2 := by
  unfold Machine.setElement
  split
  · exact lawful.refl machine
  · exact lawful.refl machine
  · next size status =>
      split
      · dsimp only
        refine passes_modifyElements machine status _ fun elements same => .inl ?_
        rw [Array.size_setIfInBounds, same]
        exact Nat.le_max_left _ _
      · split
        · exact lawful.refl machine
        · split
          · exact lawful.refl machine
          · next inside bounded =>
              dsimp only
              refine passes_modifyElements machine status _ fun elements same => .inl ?_
              rw [Array.size_push, Machine.size_resizeElements]
              omega

theorem passes_setLength
    (id : ObjectId)
    {length : Nat}
    (bounded : length <= Machine.maxArrayLength) :
    discipline.passes machine (machine.setLength id length).2 := by
  unfold Machine.setLength
  split
  · exact lawful.refl machine
  · exact lawful.refl machine
  · next status =>
      dsimp only
      refine passes_modifyElements machine status _ fun elements _ => .inl ?_
      rw [Machine.size_resizeElements]
      omega

theorem passes_pushElement (id : ObjectId) (value : Value) :
    discipline.passes machine (machine.pushElement id value).2 := by
  unfold Machine.pushElement
  split
  · next status =>
      dsimp only
      refine passes_modifyElements machine status _ fun elements same => .inr ?_
      rw [Array.size_push, same]
  · exact lawful.refl machine
  · exact lawful.refl machine

theorem passes_deleteElement (id : ObjectId) (index : Nat) :
    discipline.passes machine (machine.deleteElement id index).2 := by
  unfold Machine.deleteElement
  split
  · next status =>
      dsimp only
      refine passes_modifyElements machine status _ fun elements same => .inl ?_
      rw [Array.size_setIfInBounds, same]
      exact Nat.le_max_left _ _
  · exact lawful.refl machine

theorem passes_defineOrdinary
    (id : ObjectId)
    {key : PropertyKey}
    (named : (machine.arrayStatus? id).isSome = true ->
      key.arrayIndex? = none ∧ (key == Machine.lengthKey) = false)
    (descriptor : Descriptor) :
    discipline.passes machine (machine.defineOrdinary id key descriptor).2 := by
  unfold Machine.defineOrdinary
  split
  · next absent =>
      split
      · next extensible =>
          exact lawful.heap machine (.append machine.heap id key _ absent extensible
            (Machine.tells_of_arrayStatus? named))
      · exact lawful.refl machine
  · next current own =>
      split
      · next compatible =>
          exact lawful.heap machine
            (.redefine machine.heap id key current descriptor own compatible)
      · exact lawful.refl machine

theorem passes_deleteOrdinary (id : ObjectId) (key : PropertyKey) :
    discipline.passes machine (machine.deleteOrdinary id key).2 := by
  unfold Machine.deleteOrdinary
  split
  · exact passes_deleteElement machine id _
  · next element =>
      split
      · exact lawful.refl machine
      · next other =>
          split
          · exact lawful.refl machine
          · next property own =>
              split
              · next configurable =>
                  refine lawful.heap machine (.remove machine.heap id key property own
                    configurable (Machine.tells_of_arrayStatus? fun array => ?_))
                  obtain ⟨status, found⟩ := Option.isSome_iff_exists.1 array
                  refine ⟨Option.eq_none_iff_forall_ne_some.2 fun index named =>
                    element _ index found named, ?_⟩
                  simpa [array] using other
              · exact lawful.refl machine

theorem passes_setPrototypeOf (id : ObjectId) (prototype : Option ObjectId) :
    discipline.passes machine (machine.setPrototypeOf id prototype).2 := by
  unfold Machine.setPrototypeOf
  split
  · exact lawful.refl machine
  · next target _ =>
      split
      · exact lawful.refl machine
      · split
        · exact lawful.refl machine
        · split
          · exact lawful.heap machine (.setPrototype machine.heap target prototype)
          · exact lawful.refl machine

theorem passes_preventExtensions (id : ObjectId) :
    discipline.passes machine (machine.preventExtensions id).2 := by
  unfold Machine.preventExtensions
  split
  · next target _ => exact lawful.heap machine (.preventExtensions machine.heap target)
  · exact lawful.refl machine

theorem passes_freezeKey (id : ObjectId) (key : PropertyKey) :
    discipline.passes machine
      (machine.modifyHeap fun heap => Machine.freezeKey heap id key) := by
  unfold Machine.modifyHeap Machine.freezeKey
  dsimp only
  split
  · next property own => exact lawful.heap machine (.freeze machine.heap id key property own)
  · exact lawful.refl machine

theorem passes_freezeKeys (id : ObjectId) (keys : List PropertyKey) :
    discipline.passes machine
      (machine.modifyHeap fun heap =>
        keys.foldl (fun heap key => Machine.freezeKey heap id key) heap) := by
  induction keys generalizing machine with
  | nil => exact lawful.refl machine
  | cons key rest step => exact lawful.trans (passes_freezeKey machine id key) (step _)

theorem passes_freezeElements (id : ObjectId) :
    discipline.passes machine
      (machine.modifyHeap fun heap => heap.modifyPayload id Machine.freezeElements) := by
  refine passes_modifyPayload machine id _ fun kind _ => ?_
  cases kind with
  | array store =>
      refine .array store _ (fun frozen => ?_) (.inl (Nat.le_max_left _ _))
      cases store
      cases frozen
      rfl
  | _ => exact .same _

/-- Freezing is a change of extensibility, one of the elements, and one definition for
each own key. -/
theorem passes_freeze (id : ObjectId) :
    discipline.passes machine (machine.freeze id).2 := by
  unfold Machine.freeze
  split
  · exact lawful.refl machine
  · next target _ =>
      split
      · have sealed : discipline.passes machine
            (machine.modifyHeap fun heap => heap.preventExtensions target) :=
          lawful.heap machine (.preventExtensions machine.heap target)
        exact lawful.trans sealed
          (lawful.trans (passes_freezeElements _ target) (passes_freezeKeys _ target _))
      · exact lawful.refl machine

/-- Arguments become elements one by one, and the object still has all its properties in
the table. -/
theorem passes_defineArguments
    {machine : Machine σ}
    (arguments : List Value)
    (free : discipline.unguarded id)
    (tells : ∀ key, machine.heap.Tells id key)
    (index : Nat) :
    discipline.passes machine (machine.defineArguments id index arguments) ∧
      ∀ key, (machine.defineArguments id index arguments).heap.Tells id key := by
  induction arguments generalizing machine index with
  | nil => exact ⟨lawful.refl machine, tells⟩
  | cons value rest step =>
      have kept : ∀ key,
          (machine.defineRaw id (.index index) (.plain value)).heap.Tells id key :=
        fun key => (tells key).define _ _ _
      obtain ⟨passes, told⟩ := step kept (index + 1)
      exact ⟨lawful.trans (passes_define machine free (tells _) _) passes, told⟩

theorem passes_createArguments (arguments : List Value) :
    discipline.passes machine (machine.createArguments arguments).2 := by
  refine lawful.known fun known => ?_
  have free := unguarded_allocate known (some machine.intrinsics.objectPrototype) .arguments
  have tells : ∀ key, (machine.allocate (some machine.intrinsics.objectPrototype)
      .arguments).2.heap.Tells _ key :=
    machine.heap.tells_allocate _ fun _ => ObjectKind.noConfusion
  obtain ⟨passes, told⟩ := passes_defineArguments arguments free tells 0
  exact lawful.trans (lawful.allocate machine _ .arguments)
    (lawful.trans passes (passes_define _ free (told _) _))

end Discipline

open Discipline

namespace Exec

variable {key : PropertyKey}

/-! ## Machine operations -/

instance obeys_typeError (message : Machine σ -> String) :
    Obeys discipline (typeError message : Exec σ α) := by
  unfold typeError
  infer_instance

instance : Obeys discipline checkCallDepth := by
  unfold checkCallDepth
  infer_instance

instance (exception : Exception) : Obeys discipline (exceptionValue exception) :=
  .change _ fun machine => passes_exceptionValue machine exception

instance : Obeys discipline (change Machine.allocateOrdinary) :=
  .change _ fun machine => lawful.allocate machine _ .ordinary

instance (prototype : Option ObjectId) (kind : ObjectKind) [kind.Inert] :
    Obeys discipline (allocate prototype kind) :=
  .change _ fun machine => lawful.allocate machine prototype kind

instance (property : Property) [frees : discipline.Frees id] [key.Plain] :
    Obeys discipline (defineRaw id key property) :=
  .update _ fun machine => passes_definePlain machine frees.free key property

/-- A new object that is no array may get any property before it is used. -/
theorem Obeys.allocateDefining
    {prototype : Option ObjectId}
    {kind : ObjectKind}
    [kind.Inert]
    {property : Property}
    {next : ObjectId -> Exec σ α}
    (bare : ∀ store, kind ≠ .array store)
    (later : ∀ id, discipline.Frees id -> Obeys discipline (next id)) :
    Obeys discipline (do
      let id <- allocate prototype kind
      defineRaw id key property
      next id) := by
  refine ⟨fun env sound machine => lawful.relevant fun known => ?_⟩
  have free := unguarded_allocate known prototype kind
  have tells : (machine.allocate prototype kind).2.heap.Tells
      (machine.allocate prototype kind).1 key :=
    machine.heap.tells_allocate prototype bare key
  refine keeps_bind (keeps_change _ (lawful.allocate machine prototype kind))
    fun id middle ran => ?_
  rw [eq_of_change ran] at free tells
  have passes := passes_define middle free tells property
  exact keeps_bind (keeps_change (fun machine => ((), machine.defineRaw id key property)) passes)
    fun _ rest _ => (later id ⟨free⟩).obeys env sound rest

instance (elements : List Value) : Obeys discipline (createArray elements) :=
  .change _ fun machine => passes_createArray machine elements.toArray

/-! ## Reading -/

instance obeys_notCallable (value : Value) : Obeys discipline (notCallable value : Exec σ α) := by
  unfold notCallable
  infer_instance

instance : Obeys discipline (asMethod value) := by
  unfold asMethod
  infer_instance

instance (read : ObjectId -> Value -> Exec σ Value)
    [∀ id receiver, Obeys discipline (read id receiver)] :
    Obeys discipline (readBy read target key) := by
  unfold readBy
  split
  · infer_instance
  · infer_instance
  · split <;> infer_instance
  · refine .bind inferInstance fun prototype => ?_
    split <;> infer_instance

instance (name : String) : Obeys discipline (trap? handler name) := by
  unfold trap?
  infer_instance

instance : Obeys discipline (targetObject target) := by
  unfold targetObject
  split <;> infer_instance

instance : Obeys discipline (proxyGet target handler key receiver) := by
  unfold proxyGet
  refine .bind inferInstance fun trap => ?_
  split <;> infer_instance

instance (property : Property) : Obeys discipline (propertyValue property receiver) := by
  unfold propertyValue
  split <;> infer_instance

instance : Obeys discipline (getWithReceiver id key receiver) := by
  unfold getWithReceiver
  refine .bind inferInstance fun found => ?_
  split <;> infer_instance

instance : Obeys discipline (getProperty target key) := by
  unfold getProperty
  infer_instance

instance : Obeys discipline (getMethod target key) := by
  unfold getMethod
  infer_instance

instance (arguments : List Value) : Obeys discipline (invokeMethod target key arguments) := by
  unfold invokeMethod
  infer_instance

instance : Obeys discipline (proxyHas target handler key) := by
  unfold proxyHas
  refine .bind inferInstance fun trap => ?_
  split <;> infer_instance

instance : Obeys discipline (hasProperty id key) := by
  unfold hasProperty
  refine .bind inferInstance fun found => ?_
  split <;> infer_instance

instance : Obeys discipline (proxyPrototypeOf target handler) := by
  unfold proxyPrototypeOf
  refine .bind inferInstance fun trap => ?_
  split
  · infer_instance
  · refine .bind inferInstance fun prototype => ?_
    split <;> infer_instance

instance : Obeys discipline (getPrototypeOf id) := by
  unfold getPrototypeOf
  refine .bind inferInstance fun kind => ?_
  split <;> infer_instance

instance (newTarget : Value) (fallback : ObjectId) :
    Obeys discipline (prototypeFromConstructor newTarget fallback) := by
  unfold prototypeFromConstructor
  infer_instance

/-! ## Conversions -/

instance (keys : List PropertyKey) : Obeys discipline (primitiveByMethods value keys) := by
  induction keys with
  | nil =>
      unfold primitiveByMethods
      infer_instance
  | cons key rest step =>
      unfold primitiveByMethods
      infer_instance

instance (hint : PreferredType) : Obeys discipline (toPrimitive value hint) := by
  unfold toPrimitive
  infer_instance

instance : Obeys discipline (toNumber value) := by
  unfold toNumber
  infer_instance

instance : Obeys discipline (toText value) := by
  unfold toText
  infer_instance

instance : Obeys discipline (toPropertyKey value) := by
  unfold toPropertyKey
  infer_instance

instance : Obeys discipline (toSignedWord value) := by
  unfold toSignedWord
  infer_instance

instance : Obeys discipline (toWord value) := by
  unfold toWord
  infer_instance

instance : Obeys discipline (lengthOfArrayLike value) := by
  unfold lengthOfArrayLike
  infer_instance

/-! ## Writing -/

/-- A change that passes and whose answer may be an exception. -/
theorem obeys_changeOrRaise
    (operation : Machine σ -> Except Exception α × Machine σ)
    (passes : ∀ machine, discipline.passes machine (operation machine).2) :
    Obeys discipline (changeOrRaise operation) := by
  unfold changeOrRaise
  exact (Obeys.change operation passes).bind fun _ => inferInstance

instance : Obeys discipline (setArrayLength id value) := by
  unfold setArrayLength
  refine .bind inferInstance fun number => .bind inferInstance fun length => ?_
  split
  · infer_instance
  · next fits =>
      refine .change _ fun machine => passes_setLength machine id ?_
      simp only [Bool.or_eq_true, not_or, decide_eq_true_eq] at fits
      omega

instance obeys_defineElement (id : ObjectId) (index : Nat) (descriptor : Descriptor) :
    Obeys discipline (defineElement id index descriptor) := by
  unfold defineElement
  split
  · infer_instance
  · exact obeys_changeOrRaise _ fun machine => passes_setElement machine id index _

instance obeys_defineArrayLength (id : ObjectId) (frozen : Bool) (descriptor : Descriptor) :
    Obeys discipline (defineArrayLength id frozen descriptor) := by
  unfold defineArrayLength
  split
  · infer_instance
  · split
    · infer_instance
    · split <;> infer_instance

/-- Define an own property in the table of an object, unless that is no place for it. -/
def defineTabled (id : ObjectId) (key : PropertyKey) (descriptor : Descriptor) :
    Exec σ Bool :=
  change fun machine =>
    if (machine.arrayStatus? id).isSome && (key.arrayIndex?.isSome || key == Machine.lengthKey)
      then (false, machine)
    else machine.defineOrdinary id key descriptor

instance obeys_defineTabled (id : ObjectId) (key : PropertyKey) (descriptor : Descriptor) :
    Obeys discipline (defineTabled id key descriptor) := by
  refine .change _ fun machine => ?_
  split
  · exact lawful.refl machine
  · next other =>
      refine passes_defineOrdinary machine id (fun array => ?_) descriptor
      simpa [array] using other

omit lawful in
/-- What the table may have is defined there. -/
theorem defineOrdinary_of_named
    {machine : Machine σ}
    {id : ObjectId}
    (named : (machine.arrayStatus? id).isSome = true ->
      key.arrayIndex? = none ∧ (key == Machine.lengthKey) = false)
    (descriptor : Descriptor)
    (env : Env σ) :
    (change fun machine => machine.defineOrdinary id key descriptor) env machine =
      defineTabled id key descriptor env machine := by
  refine change_congr (if_neg fun other => ?_).symm env
  obtain ⟨array, other⟩ := Bool.and_eq_true_iff.1 other
  simp [named array] at other

instance (descriptor : Descriptor) : Obeys discipline (defineOwnProperty id key descriptor) := by
  unfold defineOwnProperty
  refine .bind inferInstance fun target => ?_
  split
  · infer_instance
  · next id =>
      refine .pointwise fun machine => ?_
      simp only [ask_bind]
      cases status : machine.arrayStatus? id with
      | none =>
          exact ⟨_, obeys_defineTabled id key descriptor,
            defineOrdinary_of_named (by simp [status]) descriptor⟩
      | some array =>
          obtain ⟨size, frozen⟩ := array
          cases element : key.arrayIndex? with
          | some index =>
              cases frozen with
              | true => exact ⟨_, obeys_pure false, fun _ => rfl⟩
              | false => exact ⟨_, obeys_defineElement id index descriptor, fun _ => rfl⟩
          | none =>
              cases other : key == Machine.lengthKey with
              | true =>
                  exact ⟨_, obeys_defineArrayLength id frozen descriptor, fun _ => by simp⟩
              | false =>
                  exact ⟨_, obeys_defineTabled id key descriptor, fun env => by
                    simpa using defineOrdinary_of_named (fun _ => ⟨element, other⟩)
                      descriptor env⟩

instance obeys_createDataProperty (id : ObjectId) (key : PropertyKey) (value : Value) :
    Obeys discipline (createDataProperty id key value) := by
  unfold createDataProperty
  infer_instance

/-- Overwrite an own property like an assignment does, but look once more whether it may
be overwritten. -/
def rewriteOwnValue (id : ObjectId) (key : PropertyKey) (value : Value) : Exec σ Bool := do
  match <- ask fun machine => machine.arrayStatus? id, key.arrayIndex? with
  | some _, some index => changeOrRaise fun machine => machine.setElement id index value
  | status, _ =>
      if status.isSome && key == Machine.lengthKey then setArrayLength id value
      else
        change fun machine =>
          match machine.heap.getOwn? id key with
          | none => (false, machine)
          | some existing =>
              if existing.isWritable || machine.isProxy id then
                (true, machine.defineRaw id key
                  (.ofData value true existing.enumerable existing.configurable))
              else (false, machine)

instance obeys_rewriteOwnValue (id : ObjectId) (key : PropertyKey) (value : Value) :
    Obeys discipline (rewriteOwnValue id key value) := by
  unfold rewriteOwnValue
  refine .bind inferInstance fun status => ?_
  split
  · exact obeys_changeOrRaise _ fun machine => passes_setElement machine id _ value
  · split
    · infer_instance
    · refine .change _ fun machine => ?_
      split
      · exact lawful.refl machine
      · next existing own =>
          split
          · next allowed =>
              refine lawful.heap machine (.overwrite machine.heap id key existing _ own ?_)
              rcases Bool.or_eq_true_iff.1 allowed with writable | proxy
              · exact Or.inl writable
              · exact Or.inr (Machine.exists_proxy_of_isProxy proxy)
          · exact lawful.refl machine

omit lawful in
/-- Where an object has a writable property, there is no need to look again. -/
theorem writeOwnValue_of_writable
    {machine : Machine σ}
    {id : ObjectId}
    {property : Property}
    (found : machine.getOwnProperty? id key = some property)
    (writable : property.isWritable = true)
    (value : Value)
    (env : Env σ) :
    writeOwnValue id key value env machine = rewriteOwnValue id key value env machine := by
  have tabled : ((machine.arrayStatus? id).isSome = true ->
      key.arrayIndex? = none ∧ (key == Machine.lengthKey) = false) ->
      ∀ existing, machine.heap.getOwn? id key = some existing ->
        (existing.isWritable || machine.isProxy id) = true := fun named existing own =>
    Machine.isWritable_of_table found writable named own
  unfold writeOwnValue rewriteOwnValue
  simp only [ask_bind]
  generalize machine.arrayStatus? id = status, key.arrayIndex? = index at tabled ⊢
  by_cases length : (status.isSome && key == Machine.lengthKey) = true
  · cases status <;> cases index
    case some.some => rfl
    all_goals
      simp only [length]
      rfl
  · have other : status.isSome = true -> (key == Machine.lengthKey) = false := fun array => by
      simpa [array] using length
    cases status <;> cases index
    case some.some => rfl
    all_goals
      show (ite _ _ _ : Exec σ Bool) env machine = (ite _ _ _ : Exec σ Bool) env machine
      rw [if_neg length, if_neg length]
      refine change_congr ?_ env
      cases own : machine.heap.getOwn? id key with
      | none => rfl
      | some existing =>
          refine (if_pos (tabled (fun array => ⟨?_, other array⟩) existing own)).symm
          first
            | rfl
            | exact absurd array Bool.false_ne_true

instance : Obeys discipline (assignOwn receiver key value) := by
  unfold assignOwn
  split
  · infer_instance
  · next id _ =>
      refine .pointwise fun machine => ?_
      simp only [ask_bind]
      cases found : machine.getOwnProperty? id key with
      | none =>
          exact ⟨_, obeys_createDataProperty id key value, fun _ => rfl⟩
      | some property =>
          dsimp only
          split
          · next writable =>
              exact ⟨_, obeys_rewriteOwnValue id key value,
                writeOwnValue_of_writable found writable value⟩
          · exact ⟨_, obeys_pure false, fun _ => rfl⟩

instance : Obeys discipline (proxySet target handler key value receiver) := by
  unfold proxySet
  refine .bind inferInstance fun trap => ?_
  split <;> infer_instance

instance : Obeys discipline (setWithReceiver id key value receiver) := by
  unfold setWithReceiver
  refine .bind inferInstance fun found => ?_
  split
  · infer_instance
  · infer_instance
  · infer_instance
  · split <;> infer_instance

instance obeys_setProperty
    (target : Value) (key : PropertyKey) (value : Value) (strict : Bool) :
    Obeys discipline (setProperty target key value strict) := by
  unfold setProperty
  refine .bind inferInstance fun holder => ?_
  split <;> infer_instance

instance : Obeys discipline (proxyDelete target handler key) := by
  unfold proxyDelete
  refine .bind inferInstance fun trap => ?_
  split <;> infer_instance

instance : Obeys discipline (deleteOwn id key) := by
  unfold deleteOwn
  refine .bind inferInstance fun kind => ?_
  split
  · infer_instance
  · exact .change _ fun machine => passes_deleteOrdinary machine id key

instance (strict : Bool) : Obeys discipline (deleteProperty target key strict) := by
  unfold deleteProperty
  split <;> infer_instance

instance (prototype : Option ObjectId) : Obeys discipline (setPrototypeOf id prototype) :=
  obeys_changeOrRaise _ fun machine => passes_setPrototypeOf machine id prototype

instance : Obeys discipline (pushElement id value) :=
  obeys_changeOrRaise _ fun machine => passes_pushElement machine id value

/-! ## Operators -/

instance (swapped : Bool) : Obeys discipline (compare left right swapped) := by
  unfold compare
  infer_instance

instance : Obeys discipline (numericOperands left right) := by
  unfold numericOperands
  infer_instance

instance : Obeys discipline (signedOperands left right) := by
  unfold signedOperands
  infer_instance

instance (operation : Nat -> Nat -> Nat) : Obeys discipline (bitwise operation left right) := by
  unfold bitwise
  infer_instance

instance : Obeys discipline (add left right) := by
  unfold add
  infer_instance

instance : Obeys discipline (looseEquals left right) := by
  unfold looseEquals
  infer_instance

instance (prototype : ObjectId) (limit : Nat) : Obeys discipline (inherits prototype limit id) := by
  induction limit generalizing id with
  | zero =>
      unfold inherits
      infer_instance
  | succ limit step =>
      unfold inherits
      refine .bind inferInstance fun parent => ?_
      split <;> infer_instance

instance : Obeys discipline (ordinaryHasInstance target value) := by
  unfold ordinaryHasInstance
  refine .bind inferInstance fun kind => ?_
  split
  · infer_instance
  · split
    · infer_instance
    · split
      · infer_instance
      · refine .bind inferInstance fun prototype => ?_
        split <;> infer_instance

instance : Obeys discipline (instanceOf value target) := by
  unfold instanceOf
  infer_instance

instance (key : Value) : Obeys discipline (membership key target) := by
  unfold membership
  split <;> infer_instance

instance (operator : BinaryOperator) : Obeys discipline (binary operator left right) := by
  unfold binary
  cases operator <;> infer_instance

instance (operator : UnaryOperator) : Obeys discipline (unary operator value) := by
  unfold unary
  cases operator <;> infer_instance

/-! ## Iteration -/

instance (done : Bool) : Obeys discipline (iterationResult value done) :=
  .change _ fun machine => passes_iterationResult machine value done

instance (iterable : Value) : Obeys discipline (getIterator iterable) := by
  unfold getIterator
  refine .bind inferInstance fun method => ?_
  split <;> infer_instance

instance : Obeys discipline (requireIterationResult result) := by
  unfold requireIterationResult
  infer_instance

instance (iterator : Value) (arguments : List Value) :
    Obeys discipline (iteratorNext iterator arguments) := by
  unfold iteratorNext
  infer_instance

instance : Obeys discipline (isDone result) := by
  unfold isDone
  infer_instance

instance : Obeys discipline (resultValue result) := by
  unfold resultValue
  infer_instance

instance (iterator : Value) : Obeys discipline (closeIterator iterator) := by
  unfold closeIterator
  refine .bind inferInstance fun method => ?_
  split <;> infer_instance

instance (iterable : Value) : Obeys discipline (iterateToList iterable) := by
  unfold iterateToList
  infer_instance

instance (array : Value) : Obeys discipline (createArrayIterator array) := by
  unfold createArrayIterator
  infer_instance

instance (move : Nat × Bool -> Nat × Bool) : Obeys discipline (moveArrayIterator id move) := by
  refine .update _ fun machine => passes_modifyPayload machine id _ fun kind _ => ?_
  cases kind with
  | arrayIterator array index done => exact .arrayIterator array index _ done _
  | _ => exact .same _

instance : Obeys discipline (arrayIteratorNext receiver) := by
  unfold arrayIteratorNext
  refine .bind inferInstance fun kind => ?_
  split <;> infer_instance

/-! ## Enumeration -/

instance (limit : Nat) (found : Machine.FoundKeys) :
    Obeys discipline (enumerateFrom limit id found) := by
  induction limit generalizing id found with
  | zero =>
      unfold enumerateFrom
      infer_instance
  | succ limit step =>
      unfold enumerateFrom
      refine .bind inferInstance fun met => ?_
      refine .bind inferInstance fun parent => ?_
      split <;> infer_instance

instance : Obeys discipline (enumerateKeys target) := by
  unfold enumerateKeys
  refine .bind inferInstance fun limit => ?_
  dsimp only
  split <;> infer_instance

instance (target source : ObjectId) :
    Obeys discipline (copyProperty target source receiver key) := by
  unfold copyProperty
  infer_instance

instance (target : ObjectId) (source : Value) :
    Obeys discipline (copyDataProperties target source) := by
  unfold copyDataProperties
  split <;> infer_instance

instance (array : Value) : Obeys discipline (argumentElements array) := by
  unfold argumentElements
  refine .bind inferInstance fun elements => ?_
  split <;> infer_instance

end Exec
end ScriptVM

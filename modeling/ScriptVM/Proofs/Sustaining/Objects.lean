import ScriptVM.Machine.Enumeration
import ScriptVM.Machine.CachedAccess
import ScriptVM.Machine.Promises
import ScriptVM.Machine.Session
import ScriptVM.Proofs.Sustaining.Tables

/-!
# Objects that sustain a machine

Operations that make objects or change them in several steps.
-/

namespace ScriptVM

variable {σ : Type} {collects : Bool}
variable (id : ObjectId) (value : Value) (exception : Exception) (index : Nat) (values : List Value)
  (key : PropertyKey)

namespace Machine

variable {machine : Machine σ} [consistent : machine.Consistent collects]

/-! ## New objects -/

instance : machine.Sustains collects machine.allocateOrdinary.2 := by
  unfold allocateOrdinary
  infer_instance

instance : machine.allocateOrdinary.2.Vouches (Value.object machine.allocateOrdinary.1) := by
  unfold allocateOrdinary
  infer_instance

instance (elements : Array Value) [machine.Vouches elements] :
    machine.Sustains collects (machine.createArray elements).2 := by
  unfold createArray
  infer_instance

instance (elements : Array Value) :
    (machine.createArray elements).2.Vouches (machine.createArray elements).1 := by
  unfold createArray
  infer_instance

instance sustains_errorObject (fault : Fault) :
    machine.Sustains collects (machine.errorObject fault).2 := by
  unfold errorObject
  dsimp only
  split <;> exact Descends.sustains

instance vouches_errorObject (fault : Fault) :
    (machine.errorObject fault).2.Vouches (machine.errorObject fault).1 := by
  unfold errorObject
  dsimp only
  split <;> infer_instance

instance sustains_exceptionValue (exception : Exception) :
    machine.Sustains collects (machine.exceptionValue exception).2 := by
  cases exception with
  | value value => exact .refl machine
  | fault fault => exact sustains_errorObject fault

instance [vouched : machine.Vouches exception] :
    (machine.exceptionValue exception).2.Vouches (machine.exceptionValue exception).1 := by
  cases exception with
  | value value => exact vouches_thrown.1 vouched
  | fault fault => exact vouches_errorObject fault

instance (kind : ErrorKind) (message : String) :
    machine.Sustains collects (machine.createError kind message).2 :=
  sustains_errorObject _

instance (kind : ErrorKind) (message : String) :
    (machine.createError kind message).2.Vouches (machine.createError kind message).1 :=
  vouches_errorObject _

instance : machine.Sustains collects (machine.uncaught exception).2 :=
  sustains_exceptionValue exception

instance [machine.Vouches exception] :
    (machine.uncaught exception).2.Vouches (machine.uncaught exception).1 := by
  unfold uncaught
  infer_instance

instance (done : Bool) [machine.Vouches value] :
    machine.Sustains collects (machine.iterationResult value done).2 := by
  unfold iterationResult
  exact Descends.sustains

instance (done : Bool) [machine.Vouches value] :
    (machine.iterationResult value done).2.Vouches (machine.iterationResult value done).1 := by
  unfold iterationResult
  infer_instance

theorem createNative_eq (machine : Machine σ) (native : NativeFunction) (arity : Nat) :
    machine.createNative native arity =
      let made := machine.allocate (some machine.intrinsics.functionPrototype) (.native native)
      (.function made.1,
        (made.2.defineRaw made.1 "length" (.ofData (.ofNat arity) false false true)).defineRaw
          made.1 "name" (.ofData (.string native.name) false false true)) := rfl

instance sustains_createNative
    (native : NativeFunction)
    (arity : Nat)
    [machine.Vouches native.behavior] :
    machine.Sustains collects (machine.createNative native arity).2 := by
  rw [createNative_eq]
  exact Descends.sustains

instance vouches_createNative
    (native : NativeFunction)
    (arity : Nat)
    [machine.Vouches native.behavior] :
    (machine.createNative native arity).2.Vouches (machine.createNative native arity).1 := by
  rw [createNative_eq]
  have : ∀ prototype, (machine.allocate prototype (.native native)).2.Vouches
      (Value.function (machine.allocate prototype (.native native)).1) :=
    fun prototype => vouches_allocate_function prototype _ rfl
  infer_instance

instance (prototype : ObjectId) [machine.Vouches prototype] :
    machine.Sustains collects (machine.allocatePromise prototype).2 := by
  have allocates : machine.Sustains collects
      (machine.allocate (some prototype) (.promise {})).2 := inferInstance
  have := allocates.consistent
  exact allocates.trans (sustains_note _)

instance (prototype : ObjectId) :
    (machine.allocatePromise prototype).2.Vouches
      (PromiseHandle.mk (machine.allocatePromise prototype).1) :=
  vouches_promiseHandle.2 ⟨_, (kind?_after_allocate _ _ _).trans (if_pos rfl)⟩

instance : machine.Sustains collects machine.newPromise.2 := by
  unfold newPromise
  infer_instance

instance : machine.newPromise.2.Vouches (PromiseHandle.mk machine.newPromise.1) := by
  unfold newPromise
  infer_instance

/-- Define the elements of an arguments object. -/
instance [vouched : machine.Vouches values] :
    machine.Sustains collects (machine.defineArguments id index values) := by
  induction values generalizing machine index with
  | nil => exact .refl machine
  | cons value rest step =>
      obtain ⟨first, others⟩ := vouches_cons_iff.1 vouched
      have defined : machine.Sustains collects
          (machine.defineRaw id (.index index) (.plain value)) := inferInstance
      have := defined.later.vouches others
      exact defined.trans (step (index + 1))

instance [machine.Vouches values] :
    machine.Sustains collects (machine.createArguments values).2 := by
  unfold createArguments
  exact Descends.sustains

instance [machine.Vouches values] :
    (machine.createArguments values).2.Vouches
      (Value.object (machine.createArguments values).1) := by
  unfold createArguments
  infer_instance

instance (promise : ObjectId) [machine.Vouches (PromiseHandle.mk promise)] :
    machine.Sustains collects (machine.createResolvingFunctions promise).2 := by
  unfold createResolvingFunctions
  exact Descends.sustains

instance (promise : ObjectId) [machine.Vouches (PromiseHandle.mk promise)] :
    (machine.createResolvingFunctions promise).2.Vouches
      (machine.createResolvingFunctions promise).1 := by
  unfold createResolvingFunctions
  infer_instance

/-! ## Function objects -/

/-- The object that instances of a new function get as prototype. -/
theorem sustains_instancePrototype?
    (function : ObjectId)
    (kind : FunctionKind)
    [named : machine.Vouches (Value.function function)] :
    machine.Sustains collects (machine.instancePrototype? function kind).2 ∧
      (machine.instancePrototype? function kind).2.Vouches
        ((machine.instancePrototype? function kind).1.map Value.object) := by
  unfold instancePrototype?
  cases kind with
  | normal =>
      refine ⟨Descends.sustains, ?_⟩
      have made : machine.allocateOrdinary.2.Vouches
          (Value.object machine.allocateOrdinary.1) := inferInstance
      exact vouches_some.2 inferInstance
  | generator => exact ⟨inferInstance, vouches_some.2 (vouches_allocate_object _ .ordinary)⟩
  | _ => exact ⟨.refl machine, vouches_none⟩

theorem sustains_instantiate_and_vouches (closure : Closure) [machine.Vouches closure] :
    machine.Sustains collects (machine.instantiate closure).2 ∧
      (machine.instantiate closure).2.Vouches (machine.instantiate closure).1 := by
  have function : ∀ prototype, (machine.allocate prototype (.function closure)).2.Vouches
      (Value.function (machine.allocate prototype (.function closure)).1) :=
    fun prototype => vouches_allocate_function prototype _ rfl
  have made : machine.Sustains collects (machine.allocate
    (some machine.intrinsics.functionPrototype) (.function closure)).2 := inferInstance
  have named := function (some machine.intrinsics.functionPrototype)
  unfold instantiate
  dsimp only
  generalize machine.allocate (some machine.intrinsics.functionPrototype) (.function closure) =
    entry at made named ⊢
  obtain ⟨id, allocated⟩ := entry
  dsimp only at made named ⊢
  generalize furnished : (allocated.defineRaw id "length"
    (.ofData (.ofNat closure.template.chunk.info.parameterCount) false false true)).defineRaw id
      "name" (.ofData (.string closure.template.chunk.info.name) false false true) = middle
  have grows : allocated.Descends collects middle := by
    rw [← furnished]
    infer_instance
  have furnishes : machine.Sustains collects middle := made.trans grows.sustains
  have := grows.sustains.later
  have linked : middle.Sustains collects
      (middle.instancePrototype? id closure.template.chunk.info.kind).2 ∧ _ :=
    sustains_instancePrototype? id closure.template.chunk.info.kind
  obtain ⟨sustains, prototype⟩ := linked
  generalize middle.instancePrototype? id closure.template.chunk.info.kind = entry at *
  obtain ⟨_ | prototypeId, after⟩ := entry
  · have sustains : middle.Sustains collects after := sustains
    exact ⟨furnishes.trans sustains, sustains.later.vouches inferInstance⟩
  · have sustains : middle.Sustains collects after := sustains
    have : after.Vouches (Value.object prototypeId) := vouches_some.1 prototype
    have defined : after.Sustains collects
        (after.defineRaw id "prototype" (.ofData (.object prototypeId) true false false)) :=
      inferInstance
    exact ⟨(furnishes.trans sustains).trans defined,
      defined.later.vouches (sustains.later.vouches inferInstance)⟩

/-- The function object of a closure. -/
instance (closure : Closure) [machine.Vouches closure] :
    machine.Sustains collects (machine.instantiate closure).2 :=
  (sustains_instantiate_and_vouches closure).1

instance (closure : Closure) [machine.Vouches closure] :
    (machine.instantiate closure).2.Vouches (machine.instantiate closure).1 :=
  (sustains_instantiate_and_vouches closure).2

theorem sustains_changeClosure
    (id : ObjectId)
    (change : Closure -> Closure)
    (vouched : ∀ closure, machine.Vouches closure -> machine.Vouches (change closure)) :
    machine.Sustains collects (machine.modifyClosure id change) := by
  refine .modifyPayload id _ (fun kind _ => ?_) fun kind _ known => ?_
  · cases kind <;> exact ⟨rfl, rfl, rfl, rfl⟩
  · cases kind with
    | function closure =>
        exact vouches_function_kind.2 (vouched closure (vouches_function_kind.1 known))
    | _ => exact known

instance sustains_modifyClosure
    (id : ObjectId)
    (homeObject : Option ObjectId)
    [new : machine.Vouches homeObject] :
    machine.Sustains collects
      (machine.modifyClosure id fun closure => { closure with homeObject }) :=
  sustains_changeClosure id _ fun _ _ => inferInstance

instance (initializer : ObjectId) [new : machine.Vouches initializer] :
    machine.Sustains collects
      (machine.modifyClosure id fun closure =>
        { closure with fieldInitializer := some initializer }) :=
  sustains_changeClosure id _ fun _ _ => inferInstance

instance sustains_moveArrayIterator (change : Nat × Bool -> Nat × Bool) :
    machine.Sustains collects (machine.modifyHeap fun heap => heap.modifyPayload id fun kind =>
      match kind with
      | .arrayIterator array index done =>
          let (index, done) := change (index, done)
          .arrayIterator array index done
      | kind => kind) := by
  refine .modifyPayload id _ (fun kind _ => ?_) fun kind _ vouched => ?_
  · cases kind <;> exact ⟨rfl, rfl, rfl, rfl⟩
  · cases kind with
    | arrayIterator array index done =>
        have : machine.Vouches array := vouches_iterator_kind.1 vouched
        exact vouches_iterator_of array _ _
    | _ => exact vouched

/-! ## Elements of arrays -/

theorem sustains_modifyElements
    (id : ObjectId)
    (change : Array Value -> Array Value)
    (vouched : ∀ elements, machine.Vouches elements -> machine.Vouches (change elements)) :
    machine.Sustains collects (machine.modifyElements id change) := by
  refine .modifyPayload id _ (fun kind _ => ?_) fun kind _ old => ?_
  · cases kind <;> exact ⟨rfl, rfl, rfl, rfl⟩
  · cases kind with
    | array store => exact vouches_array_kind.2 (vouched _ (vouches_array_kind.1 old))
    | _ => exact old

omit consistent in
theorem vouches_resizeElements
    (length : Nat)
    (elements : Array Value)
    [vouched : machine.Vouches elements] :
    machine.Vouches (resizeElements length elements) := by
  refine vouches_array.2 fun value member => ?_
  unfold resizeElements at member
  split at member
  · rw [Array.take_eq_extract] at member
    obtain ⟨index, _, rfl⟩ := Array.mem_extract_iff_getElem.1 member
    exact vouches_array.1 vouched _ (Array.getElem_mem _)
  · rcases Array.mem_append.1 member with old | hole
    · exact vouches_array.1 vouched value old
    · rw [Array.eq_of_mem_replicate hole]
      infer_instance

instance [machine.Vouches value] :
    machine.Sustains collects (machine.setElement id index value).2 := by
  unfold setElement
  split
  · exact .refl machine
  · exact .refl machine
  · split
    · dsimp only
      exact sustains_modifyElements id _ fun elements _ => vouches_setIfInBounds elements index value
    · split
      · exact .refl machine
      · split
        · exact .refl machine
        · dsimp only
          refine sustains_modifyElements id _ fun elements _ => ?_
          have : machine.Vouches (resizeElements index elements) :=
            vouches_resizeElements index elements
          infer_instance

instance (length : Nat) : machine.Sustains collects (machine.setLength id length).2 := by
  unfold setLength
  split
  · exact .refl machine
  · exact .refl machine
  · exact sustains_modifyElements id _ fun elements _ => vouches_resizeElements length elements

instance [machine.Vouches value] : machine.Sustains collects (machine.pushElement id value).2 := by
  unfold pushElement
  split
  · exact sustains_modifyElements id _ fun elements _ => vouches_push elements value
  · exact .refl machine
  · exact .refl machine

instance : machine.Sustains collects (machine.deleteElement id index).2 := by
  unfold deleteElement
  split
  · exact sustains_modifyElements id _ fun elements _ => vouches_setIfInBounds elements index .hole
  · exact .refl machine

/-! ## Own properties -/

instance vouches_ordinaryOwnProperty? (id : ObjectId) (key : PropertyKey) :
    machine.Vouches (machine.ordinaryOwnProperty? id key) := by
  unfold ordinaryOwnProperty?
  split
  · next store present =>
      have := vouches_array_kind.1 (vouches_of_kind? present)
      split
      · next index _ =>
        split
        · infer_instance
        · infer_instance
        · next value held =>
            have elements : machine.Vouches store.elements[index]? := inferInstance
            rw [held] at elements
            have := vouches_some.1 elements
            infer_instance
      · split <;> infer_instance
  · infer_instance

instance : machine.Vouches (machine.getOwnProperty? id key) := by
  unfold getOwnProperty?
  cases machine.behindProxies? id with
  | none => exact vouches_none
  | some target => exact vouches_ordinaryOwnProperty? target key

instance (descriptor : Descriptor) [machine.Vouches descriptor] :
    machine.Sustains collects (machine.defineOrdinary id key descriptor).2 := by
  unfold defineOrdinary
  split
  · split
    · infer_instance
    · exact .refl machine
  · next current own =>
      split
      · have : machine.Vouches current := .of_some own
        infer_instance
      · exact .refl machine

instance : machine.Sustains collects (machine.deleteOrdinary id key).2 := by
  unfold deleteOrdinary
  split
  · infer_instance
  · split
    · exact .refl machine
    · split
      · exact .refl machine
      · split
        · infer_instance
        · exact .refl machine

instance (keys : List PropertyKey) :
    machine.Sustains collects
      (machine.modifyHeap fun heap => keys.foldl (fun heap key => freezeKey heap id key) heap) := by
  induction keys generalizing machine with
  | nil => exact .refl machine
  | cons key rest step =>
      have first : machine.Sustains collects
          (machine.modifyHeap fun heap => freezeKey heap id key) := by
        unfold modifyHeap freezeKey
        dsimp only
        split
        · next property own =>
            have : machine.Vouches property := .of_some own
            exact sustains_define id key (frozenProperty property)
        · exact .refl machine
      exact first.trans step

instance :
    machine.Sustains collects
      (machine.modifyHeap fun heap => heap.modifyPayload id freezeElements) := by
  refine .modifyPayload id freezeElements (fun kind _ => ?_) fun kind _ vouched => ?_
  · cases kind <;> exact ⟨rfl, rfl, rfl, rfl⟩
  · cases kind with
    | array store =>
        have elements : machine.Vouches store.elements := vouches_array_kind.1 vouched
        exact vouches_array_kind.2 elements
    | _ => exact vouched

instance : machine.Sustains collects (machine.freeze id).2 := by
  unfold freeze
  split
  · exact .refl machine
  · next target _ =>
      split
      · let closed := machine.modifyHeap fun heap => heap.preventExtensions target
        let fixed := closed.modifyHeap fun heap => heap.modifyPayload target freezeElements
        have closes : machine.Sustains collects closed := inferInstance
        have fixes : closed.Sustains collects fixed := inferInstance
        have freezes : fixed.Sustains collects (fixed.modifyHeap fun heap =>
            (fixed.heap.ownKeys target).foldl (fun heap key => freezeKey heap target key) heap) :=
          inferInstance
        exact (closes.trans fixes).trans freezes
      · exact .refl machine

end Machine
end ScriptVM

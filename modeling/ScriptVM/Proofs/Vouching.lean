import ScriptVM.Proofs.Holdings

/-!
# Vouching for structures

A machine vouches for a record if it vouches for the fields of the record.
-/

namespace ScriptVM

variable {σ : Type} {machine : Machine σ} {settlement : Settlement}

open Machine

/-! ## Properties and descriptors -/

theorem Machine.vouches_property {property : Property} :
    machine.Vouches property ↔ machine.Vouches property.values :=
  vouches_congr rfl

instance vouches_property_data
    (value : Value)
    (writable enumerable configurable : Bool)
    [vouched : machine.Vouches value] :
    machine.Vouches (Property.mk (.data value writable) enumerable configurable) :=
  vouches_property.2 (vouches_cons value [])

instance (getter setter : Value) (enumerable configurable : Bool) [first : machine.Vouches getter]
    [second : machine.Vouches setter] :
    machine.Vouches (Property.mk (.accessor getter setter) enumerable configurable) :=
  vouches_property.2 (vouches_cons getter [setter])

instance (value : Value) (writable enumerable configurable : Bool)
    [vouched : machine.Vouches value] :
    machine.Vouches (Property.ofData value writable enumerable configurable) :=
  vouches_property_data value writable enumerable configurable

instance (value : Value) [vouched : machine.Vouches value] :
    machine.Vouches (Property.plain value) :=
  vouches_property_data ..

instance (value : Value) [vouched : machine.Vouches value] :
    machine.Vouches (Property.hidden value) :=
  vouches_property_data ..

instance vouches_value?
    (property : Property)
    [vouched : machine.Vouches property] :
    machine.Vouches property.value? := by
  obtain ⟨slot, enumerable, configurable⟩ := property
  cases slot with
  | data value writable => exact vouches_some.2 (vouches_cons_iff.1 (vouches_property.1 vouched)).1
  | accessor getter setter => exact vouches_none

/-- The values of a property that holds data, or a pair of accessors. -/
theorem Machine.vouches_slot {property : Property} (vouched : machine.Vouches property) :
    (∀ value writable, property.slot = .data value writable -> machine.Vouches value) ∧
      ∀ getter setter, property.slot = .accessor getter setter ->
        machine.Vouches getter ∧ machine.Vouches setter := by
  obtain ⟨slot, enumerable, configurable⟩ := property
  refine ⟨fun value writable same => ?_, fun getter setter same => ?_⟩
  · cases same
    exact (vouches_cons_iff.1 (vouches_property.1 vouched)).1
  · cases same
    obtain ⟨first, rest⟩ := vouches_cons_iff.1 (vouches_property.1 vouched)
    exact ⟨first, (vouches_cons_iff.1 rest).1⟩

theorem Machine.vouches_descriptor {descriptor : Descriptor} :
    machine.Vouches descriptor ↔
      machine.Vouches descriptor.value ∧ machine.Vouches descriptor.get ∧
        machine.Vouches descriptor.set := by
  simp only [vouches_iff, items, List.forall_mem_append, and_assoc]

instance (value get set : Option Value) (writable enumerable configurable : Option Bool)
    [first : machine.Vouches value] [second : machine.Vouches get] [third : machine.Vouches set] :
    machine.Vouches (Descriptor.mk value writable get set enumerable configurable) :=
  vouches_descriptor.2 ⟨first, second, third⟩

instance vouches_descriptor_ofData
    (value : Value)
    (writable enumerable configurable : Bool)
    [machine.Vouches value] :
    machine.Vouches (Descriptor.ofData value writable enumerable configurable) := by
  unfold Descriptor.ofData
  infer_instance

instance (value : Value) [machine.Vouches value] : machine.Vouches (Descriptor.plain value) :=
  vouches_descriptor_ofData ..

instance (property : Property) [vouched : machine.Vouches property] :
    machine.Vouches (Descriptor.ofProperty property) := by
  unfold Descriptor.ofProperty
  have slot := vouches_slot vouched
  split
  · next value writable same =>
      have := slot.1 value writable same
      infer_instance
  · next getter setter same =>
      obtain ⟨_, _⟩ := slot.2 getter setter same
      infer_instance

/-- A merged property holds nothing but what the descriptor and the old property hold. -/
instance (descriptor : Descriptor) (current : Option Property)
    [vouched : machine.Vouches descriptor] [old : machine.Vouches current] :
    machine.Vouches (descriptor.merge current) := by
  obtain ⟨_, _, _⟩ := vouches_descriptor.1 vouched
  have slot : ∀ slot, current.map Property.slot = some slot ->
      (∀ value writable, slot = .data value writable -> machine.Vouches value) ∧
        ∀ getter setter, slot = .accessor getter setter ->
          machine.Vouches getter ∧ machine.Vouches setter := by
    rintro slot present
    obtain ⟨property, standing, rfl⟩ := Option.map_eq_some_iff.1 present
    subst standing
    exact vouches_slot (vouches_some.1 old)
  unfold Descriptor.merge Descriptor.mergeSlot
  generalize current.map Property.slot = stored at slot ⊢
  split
  · split
    · next getter setter =>
        obtain ⟨_, _⟩ := (slot _ rfl).2 getter setter rfl
        infer_instance
    · infer_instance
  · split
    · next getter setter =>
        obtain ⟨_, _⟩ := (slot _ rfl).2 getter setter rfl
        split <;> infer_instance
    · next value writable =>
        have := (slot _ rfl).1 value writable rfl
        infer_instance
    · infer_instance

instance (property : Property) [vouched : machine.Vouches property] :
    machine.Vouches (Machine.frozenProperty property) := by
  have slot := vouches_slot vouched
  unfold Machine.frozenProperty
  split
  · next value writable same =>
      have := slot.1 value writable same
      infer_instance
  · exact ⟨vouched.accepts⟩

instance vouches_withValue
    (property : Property)
    (value : Value)
    [vouched : machine.Vouches property]
    [machine.Vouches value] :
    machine.Vouches (property.withValue value) := by
  unfold Property.withValue
  split
  · infer_instance
  · exact vouched

/-! ## Exceptions and lookups -/

instance (value : Value) [vouched : machine.Vouches value] :
    machine.Vouches (Exception.value value) :=
  ⟨vouched.accepts⟩

theorem Machine.vouches_thrown {value : Value} :
    machine.Vouches (Exception.value value) ↔ machine.Vouches value :=
  vouches_congr rfl

instance vouches_fault (fault : Fault) : machine.Vouches (Exception.fault fault) :=
  vouches_of_nil rfl

instance (message : String) :
    machine.Vouches (Exception.typeError message) := vouches_fault _

instance (message : String) :
    machine.Vouches (Exception.referenceError message) := vouches_fault _

instance (message : String) :
    machine.Vouches (Exception.internalError message) := vouches_fault _

instance : machine.Vouches Exception.stackOverflow := vouches_fault _

instance : machine.Vouches Exception.chainOverflow := vouches_fault _

instance : machine.Vouches Exception.thisBeforeSuper := vouches_fault _

instance : machine.Vouches Machine.invalidLength := vouches_fault _

instance : machine.Vouches Exec.superUnexpected := vouches_fault _

instance (name : String) : machine.Vouches (Exec.notDefined name) :=
  vouches_fault _

instance (description : String) (value : Value) [vouched : machine.Vouches value] :
    machine.Vouches (Failure.uncaught description value) :=
  ⟨vouched.accepts⟩

instance (refusal : Refusal) : machine.Vouches (Failure.invalid refusal) :=
  vouches_of_nil rfl

/-! ## Scopes, closures and frames -/

instance (value : Value) [vouched : machine.Vouches value] :
    machine.Vouches (ThisBinding.bound value) :=
  ⟨vouched.accepts⟩

instance (cell : ThisCellId) [vouched : machine.Vouches cell] :
    machine.Vouches (ThisBinding.pending cell) :=
  ⟨vouched.accepts⟩

theorem Machine.vouches_scope {scope : Scope} :
    machine.Vouches scope ↔
      machine.Vouches scope.this ∧ machine.Vouches scope.newTarget ∧
        machine.Vouches scope.function ∧ machine.Vouches scope.homeObject := by
  simp only [vouches_iff, items, List.forall_mem_append, and_assoc]

instance (this : ThisBinding) (newTarget : Value) (function homeObject : Option ObjectId)
    [first : machine.Vouches this] [second : machine.Vouches newTarget]
    [third : machine.Vouches function] [fourth : machine.Vouches homeObject] :
    machine.Vouches (Scope.mk this newTarget function homeObject) :=
  vouches_scope.2 ⟨first, second, third, fourth⟩

section

variable (scope : Scope) [vouched : machine.Vouches scope]

instance : machine.Vouches scope.newTarget :=
  (vouches_scope.1 vouched).2.1

instance : machine.Vouches scope.function :=
  (vouches_scope.1 vouched).2.2.1

end

theorem Machine.vouches_closure {closure : Closure} :
    machine.Vouches closure ↔
      machine.Vouches closure.upvalues ∧ machine.Vouches closure.lexicalScope ∧
        machine.Vouches closure.homeObject ∧ machine.Vouches closure.fieldInitializer := by
  simp only [vouches_iff, items, List.forall_mem_append, and_assoc]

instance (template : Template) (upvalues : Array UpvalueId) (lexicalScope : Option Scope)
    (homeObject fieldInitializer : Option ObjectId) [first : machine.Vouches upvalues]
    [second : machine.Vouches lexicalScope] [third : machine.Vouches homeObject]
    [fourth : machine.Vouches fieldInitializer] :
    machine.Vouches
      (Closure.mk template upvalues lexicalScope homeObject fieldInitializer) :=
  vouches_closure.2 ⟨first, second, third, fourth⟩

section

variable (closure : Closure) [vouched : machine.Vouches closure]

instance : machine.Vouches closure.upvalues :=
  (vouches_closure.1 vouched).1

instance : machine.Vouches closure.lexicalScope :=
  (vouches_closure.1 vouched).2.1

instance vouches_closure_homeObject : machine.Vouches closure.homeObject :=
  (vouches_closure.1 vouched).2.2.1

instance : machine.Vouches closure.fieldInitializer :=
  (vouches_closure.1 vouched).2.2.2

end

instance (value : Value) [vouched : machine.Vouches value] :
    machine.Vouches (Completion.return value) :=
  ⟨vouched.accepts⟩

theorem Machine.vouches_completion_return_iff {value : Value} :
    machine.Vouches (Completion.return value) ↔ machine.Vouches value :=
  vouches_congr rfl

theorem Machine.vouches_completion_throw_iff {exception : Exception} :
    machine.Vouches (Completion.throw exception) ↔ machine.Vouches exception :=
  vouches_congr rfl

instance (exception : Exception) [vouched : machine.Vouches exception] :
    machine.Vouches (Completion.throw exception) :=
  ⟨vouched.accepts⟩

instance : machine.Vouches Completion.normal := vouches_of_nil rfl

instance (target depth : Nat) :
    machine.Vouches (Completion.jump target depth) := vouches_of_nil rfl

theorem Machine.vouches_frame {frame : Frame} :
    machine.Vouches frame ↔
      machine.Vouches frame.window ∧ machine.Vouches frame.upvalues ∧
        machine.Vouches frame.scope ∧ machine.Vouches frame.arguments ∧
          machine.Vouches (frame.function.map Value.function) ∧
            machine.Vouches (frame.argumentsObject.map Value.object) ∧
              machine.Vouches frame.coroutine ∧ machine.Vouches frame.exception ∧
                machine.Vouches frame.completions ∧ machine.Vouches frame.delegation := by
  simp only [vouches_iff, items, List.forall_mem_append, and_assoc]

section

variable (frame : Frame) [vouched : machine.Vouches frame]

instance vouches_frame_window : machine.Vouches frame.window := (vouches_frame.1 vouched).1

instance : machine.Vouches frame.upvalues :=
  (vouches_frame.1 vouched).2.1

instance vouches_frame_scope : machine.Vouches frame.scope :=
  (vouches_frame.1 vouched).2.2.1

instance : machine.Vouches frame.arguments :=
  (vouches_frame.1 vouched).2.2.2.1

instance : machine.Vouches (frame.function.map Value.function) :=
  (vouches_frame.1 vouched).2.2.2.2.1

instance : machine.Vouches (frame.argumentsObject.map Value.object) :=
  (vouches_frame.1 vouched).2.2.2.2.2.1

instance : machine.Vouches frame.coroutine :=
  (vouches_frame.1 vouched).2.2.2.2.2.2.1

instance : machine.Vouches frame.exception :=
  (vouches_frame.1 vouched).2.2.2.2.2.2.2.1

instance vouches_frame_completions : machine.Vouches frame.completions :=
  (vouches_frame.1 vouched).2.2.2.2.2.2.2.2.1

instance : machine.Vouches frame.delegation :=
  (vouches_frame.1 vouched).2.2.2.2.2.2.2.2.2

end

instance (template : Template) (function : Option ObjectId) (next : Nat) (window : WindowId)
    (upvalues : Array UpvalueId) (attached : List (Register × UpvalueId)) (scope : Scope)
    (arguments : List Value) (argumentsObject : Option ObjectId) (tryRegions : List TryRegion)
    (completions : Array Completion) (exception : Option Value) (returnTo : ReturnTo)
    (construct : ConstructKind) (coroutine : Option ObjectId) (resumeRegister : Option Register)
    (delegating : Bool) (delegation : Option (ResumeMode × Value)) [first : machine.Vouches window]
    [second : machine.Vouches upvalues] [third : machine.Vouches scope]
    [fourth : machine.Vouches arguments] [fifth : machine.Vouches (function.map Value.function)]
    [sixth : machine.Vouches (argumentsObject.map Value.object)]
    [seventh : machine.Vouches coroutine] [eighth : machine.Vouches exception]
    [ninth : machine.Vouches completions] [tenth : machine.Vouches delegation] :
    machine.Vouches
      (Frame.mk template function next window upvalues attached scope arguments
        argumentsObject tryRegions completions exception returnTo construct coroutine
        resumeRegister delegating delegation) :=
  vouches_frame.2
    ⟨first, second, third, fourth, fifth, sixth, seventh, eighth, ninth, tenth⟩

instance (id : ObjectId) [vouched : machine.Vouches (Value.function id)] :
    machine.Vouches ((some id).map Value.function) :=
  vouches_some.2 vouched

instance (id : ObjectId) [vouched : machine.Vouches (Value.object id)] :
    machine.Vouches ((some id).map Value.object) :=
  vouches_some.2 vouched

instance (id : ObjectId) [vouched : machine.Vouches (PromiseHandle.mk id)] :
    machine.Vouches ((some id).map PromiseHandle.mk) :=
  vouches_some.2 vouched

instance {α : Type} [Carrier α] (transform : ObjectId -> α) :
    machine.Vouches ((none : Option ObjectId).map transform) :=
  vouches_none

/-! ## Internal slots and jobs -/

theorem Machine.vouches_array_kind {store : ArrayStore} :
    machine.Vouches (ObjectKind.array store) ↔ machine.Vouches store.elements :=
  vouches_congr rfl

theorem Machine.vouches_function_kind {closure : Closure} :
    machine.Vouches (ObjectKind.function closure) ↔ machine.Vouches closure :=
  vouches_congr rfl

theorem Machine.vouches_native_kind {function : NativeFunction} :
    machine.Vouches (ObjectKind.native function) ↔ machine.Vouches function.behavior :=
  vouches_congr rfl

theorem Machine.vouches_bound_kind {target receiver : Value} {leading : List Value} :
    machine.Vouches (ObjectKind.bound target receiver leading) ↔
      machine.Vouches target ∧ machine.Vouches receiver ∧ machine.Vouches leading := by
  simp only [vouches_iff, items, List.forall_mem_append, and_assoc]

theorem Machine.vouches_coroutine_kind {coroutine : Coroutine} :
    machine.Vouches (ObjectKind.coroutine coroutine) ↔
      machine.Vouches coroutine.frame ∧ machine.Vouches coroutine.kind := by
  simp only [vouches_iff, items, List.forall_mem_append]

theorem Machine.vouches_promise_kind {record : PromiseRecord Value Reaction} :
    machine.Vouches (ObjectKind.promise record) ↔
      machine.Vouches record.state ∧ machine.Vouches record.reactions := by
  simp only [vouches_iff, items, List.forall_mem_append]

theorem Machine.vouches_proxy_kind {target handler : Value} :
    machine.Vouches (ObjectKind.proxy target handler) ↔
      machine.Vouches target ∧ machine.Vouches handler := by
  simp only [vouches_iff, items, List.forall_mem_append]

theorem Machine.vouches_iterator_kind {array : Value} {index : Nat} {done : Bool} :
    machine.Vouches (ObjectKind.arrayIterator array index done) ↔ machine.Vouches array :=
  vouches_congr rfl

instance : machine.Vouches ObjectKind.ordinary := vouches_of_nil rfl
instance : machine.Vouches ObjectKind.arguments := vouches_of_nil rfl
instance : machine.Vouches ObjectKind.error := vouches_of_nil rfl

instance (elements : Array Value) (frozen : Bool) [vouched : machine.Vouches elements] :
    machine.Vouches (ObjectKind.array (ArrayStore.mk elements frozen)) :=
  vouches_array_kind.2 vouched

instance vouches_function_of
    (closure : Closure)
    [vouched : machine.Vouches closure] :
    machine.Vouches (ObjectKind.function closure) :=
  vouches_function_kind.2 vouched

instance (function : NativeFunction) [vouched : machine.Vouches function.behavior] :
    machine.Vouches (ObjectKind.native function) :=
  vouches_native_kind.2 vouched

instance (target receiver : Value) (leading : List Value) [first : machine.Vouches target]
    [second : machine.Vouches receiver] [third : machine.Vouches leading] :
    machine.Vouches (ObjectKind.bound target receiver leading) :=
  vouches_bound_kind.2 ⟨first, second, third⟩

instance (state : CoroutineState) (frame : Option Frame) (kind : CoroutineKind)
    [first : machine.Vouches frame] [second : machine.Vouches kind] :
    machine.Vouches (ObjectKind.coroutine (Coroutine.mk state frame kind)) :=
  vouches_coroutine_kind.2 ⟨first, second⟩

instance (state : PromiseState Value) (reactions : List Reaction) (handled : Bool)
    [first : machine.Vouches state] [second : machine.Vouches reactions] :
    machine.Vouches (ObjectKind.promise (PromiseRecord.mk state reactions handled)) :=
  vouches_promise_kind.2 ⟨first, second⟩

instance (target handler : Value) [first : machine.Vouches target]
    [second : machine.Vouches handler] :
    machine.Vouches (ObjectKind.proxy target handler) :=
  vouches_proxy_kind.2 ⟨first, second⟩

instance vouches_iterator_of
    (array : Value)
    (index : Nat)
    (done : Bool)
    [vouched : machine.Vouches array] :
    machine.Vouches (ObjectKind.arrayIterator array index done) :=
  vouches_iterator_kind.2 vouched

instance (function : Builtin) :
    machine.Vouches (NativeBehavior.builtin function) := vouches_of_nil rfl

instance (function : HostId) :
    machine.Vouches (NativeBehavior.host function) := vouches_of_nil rfl

theorem Machine.vouches_resolving_iff {promise : ObjectId} {latch : LatchId} {reject : Bool} :
    machine.Vouches (NativeBehavior.resolving promise latch reject) ↔
      machine.Vouches (PromiseHandle.mk promise) :=
  vouches_congr rfl

instance (promise : ObjectId) (latch : LatchId) (reject : Bool)
    [vouched : machine.Vouches (PromiseHandle.mk promise)] :
    machine.Vouches (NativeBehavior.resolving promise latch reject) :=
  vouches_resolving_iff.2 vouched

theorem Machine.vouches_combinatorElement_iff
    {index : Nat}
    {aggregate : AggregateId}
    {capability : ObjectId} :
    machine.Vouches (NativeBehavior.combinatorElement index aggregate capability settlement) ↔
      machine.Vouches aggregate ∧ machine.Vouches (PromiseHandle.mk capability) :=
  vouches_append _ _ rfl

instance (index : Nat) (aggregate : AggregateId) (capability : ObjectId) (settlement : Settlement)
    [first : machine.Vouches aggregate] [second : machine.Vouches (PromiseHandle.mk capability)] :
    machine.Vouches
      (NativeBehavior.combinatorElement index aggregate capability settlement) :=
  vouches_combinatorElement_iff.2 ⟨first, second⟩

theorem Machine.vouches_finallyStep_iff {onFinally : Value} {settlement : Settlement} :
    machine.Vouches (NativeBehavior.finallyStep onFinally settlement) ↔
      machine.Vouches onFinally :=
  vouches_congr rfl

instance (onFinally : Value) (settlement : Settlement) [vouched : machine.Vouches onFinally] :
    machine.Vouches (NativeBehavior.finallyStep onFinally settlement) :=
  vouches_finallyStep_iff.2 vouched

theorem Machine.vouches_settled_iff {value : Value} {settlement : Settlement} :
    machine.Vouches (NativeBehavior.settled value settlement) ↔ machine.Vouches value :=
  vouches_congr rfl

instance (value : Value) (settlement : Settlement) [vouched : machine.Vouches value] :
    machine.Vouches (NativeBehavior.settled value settlement) :=
  vouches_settled_iff.2 vouched

instance : machine.Vouches CoroutineKind.generator := vouches_of_nil rfl

theorem Machine.vouches_async_iff {promise : ObjectId} :
    machine.Vouches (CoroutineKind.async promise) ↔ machine.Vouches (PromiseHandle.mk promise) :=
  vouches_congr rfl

instance (promise : ObjectId) [vouched : machine.Vouches (PromiseHandle.mk promise)] :
    machine.Vouches (CoroutineKind.async promise) :=
  vouches_async_iff.2 vouched

theorem Machine.vouches_callable_iff {function : Value} :
    machine.Vouches (Handler.callable function) ↔ machine.Vouches function :=
  vouches_congr rfl

instance (function : Value) [vouched : machine.Vouches function] :
    machine.Vouches (Handler.callable function) :=
  vouches_callable_iff.2 vouched

theorem Machine.vouches_asyncResume_iff {coroutine : ObjectId} :
    machine.Vouches (Handler.asyncResume coroutine) ↔ machine.Vouches coroutine :=
  vouches_congr rfl

instance (coroutine : ObjectId) [vouched : machine.Vouches coroutine] :
    machine.Vouches (Handler.asyncResume coroutine) :=
  vouches_asyncResume_iff.2 vouched

instance : machine.Vouches Handler.identity := vouches_of_nil rfl
instance : machine.Vouches Handler.thrower := vouches_of_nil rfl

theorem Machine.vouches_reaction {reaction : Reaction} :
    machine.Vouches reaction ↔
      machine.Vouches (reaction.capability.map PromiseHandle.mk) ∧
        machine.Vouches reaction.onFulfilled ∧ machine.Vouches reaction.onRejected := by
  simp only [vouches_iff, items, List.forall_mem_append, and_assoc]

instance (capability : Option ObjectId) (onFulfilled onRejected : Handler)
    [first : machine.Vouches (capability.map PromiseHandle.mk)]
    [second : machine.Vouches onFulfilled] [third : machine.Vouches onRejected] :
    machine.Vouches (Reaction.mk capability onFulfilled onRejected) :=
  vouches_reaction.2 ⟨first, second, third⟩

instance (reaction : Reaction) (settlement : Settlement) [vouched : machine.Vouches reaction] :
    machine.Vouches (reaction.handler settlement) := by
  cases settlement with
  | fulfilled => exact (vouches_reaction.1 vouched).2.1
  | rejected => exact (vouches_reaction.1 vouched).2.2

instance (reaction : Reaction) [vouched : machine.Vouches reaction] :
    machine.Vouches (reaction.capability.map PromiseHandle.mk) :=
  (vouches_reaction.1 vouched).1

instance : machine.Vouches (PromiseState.pending : PromiseState Value) :=
  vouches_of_nil rfl

theorem Machine.vouches_fulfilled_iff {value : Value} :
    machine.Vouches (PromiseState.fulfilled value) ↔ machine.Vouches value :=
  vouches_congr rfl

theorem Machine.vouches_rejected_iff {reason : Value} :
    machine.Vouches (PromiseState.rejected reason) ↔ machine.Vouches reason :=
  vouches_congr rfl

instance (value : Value) [vouched : machine.Vouches value] :
    machine.Vouches (PromiseState.fulfilled value) :=
  vouches_fulfilled_iff.2 vouched

instance vouches_rejected
    (reason : Value)
    [vouched : machine.Vouches reason] :
    machine.Vouches (PromiseState.rejected reason) :=
  vouches_rejected_iff.2 vouched

theorem Machine.vouches_reactionJob_iff
    {handler : Handler}
    {capability : Option ObjectId}
    {argument : Value} :
    machine.Vouches (Job.reaction handler capability settlement argument : Job σ) ↔
      machine.Vouches handler ∧ machine.Vouches (capability.map PromiseHandle.mk) ∧
        machine.Vouches argument := by
  simp only [vouches_iff, items, List.forall_mem_append, and_assoc]

instance (handler : Handler) (capability : Option ObjectId) (settlement : Settlement)
    (argument : Value) [first : machine.Vouches handler]
    [second : machine.Vouches (capability.map PromiseHandle.mk)]
    [third : machine.Vouches argument] :
    machine.Vouches (Job.reaction handler capability settlement argument : Job σ) :=
  vouches_reactionJob_iff.2 ⟨first, second, third⟩

theorem Machine.vouches_thenableJob_iff {promise : ObjectId} {thenable thenMethod : Value} :
    machine.Vouches (Job.resolveThenable promise thenable thenMethod : Job σ) ↔
      machine.Vouches (PromiseHandle.mk promise) ∧ machine.Vouches thenable ∧
        machine.Vouches thenMethod := by
  simp only [vouches_iff, items, List.forall_mem_append, and_assoc]

instance (promise : ObjectId) (thenable thenMethod : Value)
    [first : machine.Vouches (PromiseHandle.mk promise)] [second : machine.Vouches thenable]
    [third : machine.Vouches thenMethod] :
    machine.Vouches (Job.resolveThenable promise thenable thenMethod : Job σ) :=
  vouches_thenableJob_iff.2 ⟨first, second, third⟩

instance (body : HostProgram σ) :
    machine.Vouches (Job.host body : Job σ) := vouches_of_nil rfl

end ScriptVM

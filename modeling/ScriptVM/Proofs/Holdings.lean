import ScriptVM.Machine.Calls
import ScriptVM.Proofs.HeapObjects

/-!
# Holdings

What data of a machine lead to: the values and handles that occur in it, and the shared
cells through which it reaches more of them. The lists here follow the data types, one
entry for each field; they do not depend on what a collection traces.

A machine vouches for data if every handle in them names a live object, and every value
that names an object is tagged by whether that can be called.
-/

namespace ScriptVM

/-- What a place of a machine can hold that leads to objects. -/
inductive Item
  | value (value : Value)
  | object (id : ObjectId)
  /-- An object that has to be a promise. -/
  | promise (id : ObjectId)
  /-- The registers of a window. -/
  | window (id : WindowId)
  | captured (id : UpvalueId)
  | cell (id : ThisCellId)
  | aggregate (id : AggregateId)

/-! ## The items of data -/

/-- The handle of an object that has to be a promise. -/
structure PromiseHandle where
  id : ObjectId

/-- Data in which items occur. -/
class Carrier (α : Type) where
  items : α -> List Item

export Carrier (items)

/-- Data of a type in which no items occur. -/
class Blank (α : Type) [Carrier α] : Prop where
  items_eq : ∀ data : α, items data = []

section

variable {α β : Type} [Carrier α] [Carrier β]

instance : Carrier Value := ⟨fun value => [.value value]⟩
instance : Carrier ObjectId := ⟨fun id => [.object id]⟩
instance : Carrier PromiseHandle := ⟨fun promise => [.object promise.id, .promise promise.id]⟩
instance : Carrier WindowId := ⟨fun id => [.window id]⟩
instance : Carrier UpvalueId := ⟨fun id => [.captured id]⟩
instance : Carrier ThisCellId := ⟨fun id => [.cell id]⟩
instance : Carrier AggregateId := ⟨fun id => [.aggregate id]⟩

instance : Carrier (List α) := ⟨List.flatMap items⟩
instance : Carrier (Array α) := ⟨fun array => items array.toList⟩
instance : Carrier (α × β) := ⟨fun pair => items pair.1 ++ items pair.2⟩

instance : Carrier (Option α) where
  items
    | some data => items data
    | none => []

instance : Carrier (Except α β) where
  items
    | .ok answer => items answer
    | .error reason => items reason

instance : Carrier (α ⊕ β) where
  items
    | .inl data => items data
    | .inr data => items data

end

/-! ### Data without items -/

instance : Carrier Unit := ⟨fun _ => []⟩
instance : Carrier Bool := ⟨fun _ => []⟩
instance : Carrier Nat := ⟨fun _ => []⟩
instance : Carrier Int := ⟨fun _ => []⟩
instance : Carrier Float := ⟨fun _ => []⟩
instance : Carrier String := ⟨fun _ => []⟩
instance : Carrier PropertyKey := ⟨fun _ => []⟩
instance : Carrier SymbolId := ⟨fun _ => []⟩
instance : Carrier ResumeMode := ⟨fun _ => []⟩
instance : Carrier Template := ⟨fun _ => []⟩
instance : Carrier Instruction := ⟨fun _ => []⟩
instance : Carrier LoopStats := ⟨fun _ => []⟩
instance : Carrier HeapStats := ⟨fun _ => []⟩
instance : Carrier Heap.CollectionStats := ⟨fun _ => []⟩
instance : Carrier Config := ⟨fun _ => []⟩
instance : Carrier Machine.FoundKeys := ⟨fun _ => []⟩

instance : Blank Unit := ⟨fun _ => rfl⟩
instance : Blank Bool := ⟨fun _ => rfl⟩
instance : Blank Nat := ⟨fun _ => rfl⟩
instance : Blank Int := ⟨fun _ => rfl⟩
instance : Blank Float := ⟨fun _ => rfl⟩
instance : Blank String := ⟨fun _ => rfl⟩
instance : Blank PropertyKey := ⟨fun _ => rfl⟩
instance : Blank SymbolId := ⟨fun _ => rfl⟩
instance : Blank ResumeMode := ⟨fun _ => rfl⟩
instance : Blank Template := ⟨fun _ => rfl⟩
instance : Blank Instruction := ⟨fun _ => rfl⟩
instance : Blank LoopStats := ⟨fun _ => rfl⟩
instance : Blank HeapStats := ⟨fun _ => rfl⟩
instance : Blank Heap.CollectionStats := ⟨fun _ => rfl⟩
instance : Blank Config := ⟨fun _ => rfl⟩
instance : Blank Machine.FoundKeys := ⟨fun _ => rfl⟩

section

variable {α β : Type} [Carrier α] [Carrier β] [Blank α] [Blank β]

instance : Blank (List α) where
  items_eq _ := List.flatMap_eq_nil_iff.2 fun entry _ => Blank.items_eq entry

instance : Blank (α × β) where
  items_eq data := by
    show items data.1 ++ items data.2 = []
    rw [Blank.items_eq, Blank.items_eq]
    rfl

instance : Blank (Option α) where
  items_eq data := by
    cases data with
    | none => rfl
    | some entry => exact Blank.items_eq entry

end

/-! ### Properties and exceptions -/

instance : Carrier Property := ⟨fun property => items property.values⟩

instance : Carrier Descriptor where
  items descriptor :=
    items descriptor.value ++ items descriptor.get ++ items descriptor.set

instance : Carrier Exception where
  items
    | .value value => items value
    | .fault _ => []

instance : Carrier Failure where
  items
    | .uncaught _ value => items value
    | .invalid _ => []

instance : Carrier Lookup where
  items
    | .found property => items property
    | .atProxy target handler => items target ++ items handler
    | .absent | .tooLong => []

/-! ### Scopes, closures and frames -/

instance : Carrier ThisBinding where
  items
    | .bound value => items value
    | .pending cell => items cell

instance : Carrier Scope where
  items scope :=
    items scope.this ++ items scope.newTarget ++ items scope.function ++
      items scope.homeObject

instance : Carrier Closure where
  items closure :=
    items closure.upvalues ++ items closure.lexicalScope ++ items closure.homeObject ++
      items closure.fieldInitializer

instance : Carrier Completion where
  items
    | .return value => items value
    | .throw exception => items exception
    | .normal | .jump _ _ => []

/-- The variables that a frame has attached lead to nothing but its own registers. -/
instance : Carrier Frame where
  items frame :=
    items frame.window ++ items frame.upvalues ++ items frame.scope ++
      items frame.arguments ++ items (frame.function.map Value.function) ++
      items (frame.argumentsObject.map Value.object) ++ items frame.coroutine ++
      items frame.exception ++ items frame.completions ++ items frame.delegation

instance : Carrier FrameExit where
  items
    | .returned value => items value
    | .yielded value frame _ => items value ++ items frame
    | .awaiting value frame => items value ++ items frame
    | .started frame => items frame

instance : Carrier Flow where
  items
    | .continue => []
    | .exit exit => items exit

instance : Carrier Exec.Delegated where
  items
    | .result result => items result
    | .returns value => items value

/-! ### Internal slots and jobs -/

instance : Carrier NativeBehavior where
  items
    | .builtin _ | .host _ => []
    | .resolving promise _ _ => items (PromiseHandle.mk promise)
    | .combinatorElement _ aggregate capability _ =>
        items aggregate ++ items (PromiseHandle.mk capability)
    | .finallyStep onFinally _ => items onFinally
    | .settled value _ => items value

instance : Carrier CoroutineKind where
  items
    | .generator => []
    | .async promise => items (PromiseHandle.mk promise)

instance : Carrier Coroutine where
  items coroutine := items coroutine.frame ++ items coroutine.kind

instance : Carrier Handler where
  items
    | .callable function => items function
    | .asyncResume coroutine => items coroutine
    | .identity | .thrower => []

instance : Carrier Reaction where
  items reaction :=
    items (reaction.capability.map PromiseHandle.mk) ++ items reaction.onFulfilled ++
      items reaction.onRejected

instance : Carrier (PromiseState Value) where
  items
    | .pending => []
    | .fulfilled value | .rejected value => items value

instance : Carrier (PromiseRecord Value Reaction) where
  items record := items record.state ++ items record.reactions

instance : Carrier ObjectKind where
  items
    | .ordinary | .arguments | .error => []
    | .array store => items store.elements
    | .function closure => items closure
    | .native function => items function.behavior
    | .bound target receiver leading => items target ++ items receiver ++ items leading
    | .coroutine coroutine => items coroutine
    | .promise record => items record
    | .proxy target handler => items target ++ items handler
    | .arrayIterator array _ _ => items array

/-- What a host program holds is the embedder's concern. -/
instance {σ : Type} : Carrier (Job σ) where
  items
    | .reaction handler capability _ argument =>
        items handler ++ items (capability.map PromiseHandle.mk) ++ items argument
    | .resolveThenable promise thenable thenMethod =>
        items (PromiseHandle.mk promise) ++ items thenable ++ items thenMethod
    | .host _ => []

/-! ## What a machine vouches for -/

namespace Machine

variable {σ : Type}

/-- A value that names an object names a live one, by the function form if and only if it
can be called. The first prototype of functions can be called, but also goes by the other
form. -/
def Tags (machine : Machine σ) : Value -> Prop
  | .function id => ∃ kind, machine.kind? id = some kind ∧ kind.isCallable = true
  | .object id => ∃ kind, machine.kind? id = some kind ∧
      (kind.isCallable = true -> id = machine.intrinsics.functionPrototype)
  | _ => True

/-- All objects to which an item leads are live, all values named in the right form, and what
has to be a promise is one. -/
def Accepts (machine : Machine σ) : Item -> Prop
  | .value value => machine.Tags value
  | .object id => ∃ kind, machine.kind? id = some kind
  | .promise id => ∃ record, machine.kind? id = some (.promise record)
  | .window id => ∀ value ∈ machine.cells.window id, machine.Tags value
  | .captured id =>
      match machine.cells.upvalues[id.index]? with
      | some (.attached window _) => ∀ value ∈ machine.cells.window window, machine.Tags value
      | some (.detached value) => machine.Tags value
      | none => True
  | .cell id => ∀ value, machine.cells.thisCells[id.index]? = some (some value) ->
      machine.Tags value
  | .aggregate id => ∀ aggregate, machine.cells.aggregates[id.index]? = some aggregate ->
      ∀ value, some value ∈ aggregate.entries -> machine.Tags value

/-- The machine accepts every item of the data. -/
class Vouches (machine : Machine σ) {α : Type} [Carrier α] (data : α) : Prop where
  accepts : ∀ item ∈ items data, machine.Accepts item

end Machine

section

variable {σ α β : Type} [Carrier α] [Carrier β] {machine : Machine σ} {value : Value} {entry : α}

open Machine

theorem Machine.vouches_iff {data : α} :
    machine.Vouches data ↔ ∀ item ∈ items data, machine.Accepts item :=
  ⟨fun vouched => vouched.accepts, fun accepts => ⟨accepts⟩⟩

/-- Data whose items are those of two others. -/
theorem Machine.vouches_append
    {γ : Type}
    [Carrier γ]
    {data : γ}
    (left : α)
    (right : β)
    (same : items data = items left ++ items right) :
    machine.Vouches data ↔ machine.Vouches left ∧ machine.Vouches right := by
  rw [vouches_iff, vouches_iff, vouches_iff, same]
  exact List.forall_mem_append

/-- Data with the same items. -/
theorem Machine.vouches_congr {left : α} {right : β} (same : items left = items right) :
    machine.Vouches left ↔ machine.Vouches right := by
  rw [vouches_iff, vouches_iff, same]

theorem Machine.vouches_of_nil {data : α} (none : items data = []) :
    machine.Vouches data := by
  refine ⟨fun item member => ?_⟩
  rw [none] at member
  cases member

instance [Blank α] (data : α) : machine.Vouches data :=
  vouches_of_nil (Blank.items_eq data)

/-! ### Handles and values -/

theorem Machine.vouches_value {value : Value} : machine.Vouches value ↔ machine.Tags value :=
  vouches_iff.trans List.forall_mem_singleton

theorem Machine.vouches_id {id : ObjectId} :
    machine.Vouches id ↔ ∃ kind, machine.kind? id = some kind :=
  vouches_iff.trans List.forall_mem_singleton

theorem Machine.vouches_promiseHandle {id : ObjectId} :
    machine.Vouches (PromiseHandle.mk id) ↔
      ∃ record, machine.kind? id = some (.promise record) := by
  refine vouches_iff.trans ⟨fun accepts => accepts (.promise id) (.tail _ (.head _)), ?_⟩
  rintro ⟨record, present⟩ item member
  rcases List.mem_cons.1 member with rfl | last
  · exact ⟨_, present⟩
  · exact List.mem_singleton.1 last ▸ ⟨record, present⟩

theorem Machine.vouches_window {id : WindowId} :
    machine.Vouches id ↔ ∀ value ∈ machine.cells.window id, machine.Vouches value := by
  simp only [vouches_value]
  exact vouches_iff.trans List.forall_mem_singleton

instance vouches_undefined : machine.Vouches Value.undefined := vouches_value.2 trivial
instance : machine.Vouches Value.null := vouches_value.2 trivial
instance : machine.Vouches Value.hole := vouches_value.2 trivial

instance (value : Bool) : machine.Vouches (Value.boolean value) :=
  vouches_value.2 trivial

instance vouches_number (value : Float) : machine.Vouches (Value.number value) :=
  vouches_value.2 trivial

instance (value : String) : machine.Vouches (Value.string value) :=
  vouches_value.2 trivial

instance vouches_symbol (id : SymbolId) : machine.Vouches (Value.symbol id) :=
  vouches_value.2 trivial

instance (number : Nat) : machine.Vouches (Value.ofNat number) :=
  vouches_number _

instance (number : Int) : machine.Vouches (Value.ofInt number) :=
  vouches_number _

theorem Machine.Tags.live
    (tags : machine.Tags value)
    {id : ObjectId}
    (named : value.objectId? = some id) :
    ∃ kind, machine.kind? id = some kind := by
  cases value with
  | object other =>
      cases named
      exact ⟨_, tags.choose_spec.1⟩
  | function other =>
      cases named
      exact ⟨_, tags.choose_spec.1⟩
  | _ => cases named

theorem Machine.Vouches.id
    {id : ObjectId}
    (named : value.objectId? = some id)
    [vouched : machine.Vouches value] :
    machine.Vouches id :=
  vouches_id.2 ((vouches_value.1 vouched).live named)

instance vouches_id_object
    (id : ObjectId)
    [vouched : machine.Vouches (Value.object id)] :
    machine.Vouches id :=
  @Vouches.id σ machine (.object id) id rfl vouched

instance (id : ObjectId) [vouched : machine.Vouches (Value.function id)] : machine.Vouches id :=
  @Vouches.id σ machine (.function id) id rfl vouched

instance (id : ObjectId) [vouched : machine.Vouches (PromiseHandle.mk id)] : machine.Vouches id :=
  vouches_id.2 ((vouches_promiseHandle.1 vouched).imp' _ fun _ present => present)

/-! ### Containers -/

theorem Machine.vouches_some {data : α} : machine.Vouches (some data) ↔ machine.Vouches data :=
  vouches_congr rfl

instance vouches_some_of
    (data : α)
    [vouched : machine.Vouches data] :
    machine.Vouches (some data) :=
  vouches_some.2 vouched

instance vouches_none : machine.Vouches (none : Option α) := vouches_of_nil rfl

/-- What an optional datum is known to be. -/
theorem Machine.Vouches.of_some
    {data : Option α}
    (present : data = some entry)
    [vouched : machine.Vouches data] :
    machine.Vouches entry :=
  vouches_some.1 (present ▸ vouched)

instance (value : Value) [vouched : machine.Vouches value] : machine.Vouches value.objectId? := by
  cases named : value.objectId? with
  | none => infer_instance
  | some id => exact @vouches_some_of σ ObjectId _ machine id (.id named)

theorem Machine.vouches_pair {left : α} {right : β} :
    machine.Vouches (left, right) ↔ machine.Vouches left ∧ machine.Vouches right :=
  vouches_append _ _ rfl

instance vouches_pair_of
    (left : α)
    (right : β)
    [first : machine.Vouches left]
    [second : machine.Vouches right] :
    machine.Vouches (left, right) :=
  vouches_pair.2 ⟨first, second⟩

instance (pair : α × β) [vouched : machine.Vouches pair] : machine.Vouches pair.1 :=
  (vouches_pair.1 vouched).1

instance (pair : α × β) [vouched : machine.Vouches pair] : machine.Vouches pair.2 :=
  (vouches_pair.1 vouched).2

theorem Machine.vouches_ok {answer : β} :
    machine.Vouches (.ok answer : Except α β) ↔ machine.Vouches answer :=
  vouches_congr rfl

theorem Machine.vouches_error {reason : α} :
    machine.Vouches (.error reason : Except α β) ↔ machine.Vouches reason :=
  vouches_congr rfl

instance vouches_ok_of
    (answer : β)
    [vouched : machine.Vouches answer] :
    machine.Vouches (.ok answer : Except α β) :=
  vouches_ok.2 vouched

instance vouches_error_of
    (reason : α)
    [vouched : machine.Vouches reason] :
    machine.Vouches (.error reason : Except α β) :=
  vouches_error.2 vouched

theorem Machine.vouches_inl {data : α} :
    machine.Vouches (.inl data : α ⊕ β) ↔ machine.Vouches data :=
  vouches_congr rfl

theorem Machine.vouches_inr {data : β} :
    machine.Vouches (.inr data : α ⊕ β) ↔ machine.Vouches data :=
  vouches_congr rfl

instance (data : α) [vouched : machine.Vouches data] : machine.Vouches (.inl data : α ⊕ β) :=
  vouches_inl.2 vouched

instance (data : β) [vouched : machine.Vouches data] : machine.Vouches (.inr data : α ⊕ β) :=
  vouches_inr.2 vouched

theorem Machine.vouches_list {list : List α} :
    machine.Vouches list ↔ ∀ entry ∈ list, machine.Vouches entry := by
  simp only [vouches_iff]
  refine ⟨fun accepts entry member item carried => ?_, fun accepts item member => ?_⟩
  · exact accepts item (List.mem_flatMap.2 ⟨entry, member, carried⟩)
  · obtain ⟨entry, present, carried⟩ := List.mem_flatMap.1 member
    exact accepts entry present item carried

theorem Machine.Vouches.of_mem
    {list : List α}
    (member : entry ∈ list)
    [vouched : machine.Vouches list] :
    machine.Vouches entry :=
  vouches_list.1 vouched entry member

/-- Entries of vouched lists make a vouched list. -/
theorem Machine.Vouches.of_subset
    {list part : List α}
    (included : part ⊆ list)
    [vouched : machine.Vouches list] :
    machine.Vouches part :=
  vouches_list.2 fun _ member => .of_mem (included member)

instance vouches_nil : machine.Vouches ([] : List α) := vouches_of_nil rfl

instance vouches_cons
    (first : α)
    (rest : List α)
    [head : machine.Vouches first]
    [tail : machine.Vouches rest] :
    machine.Vouches (first :: rest) :=
  (vouches_append _ _ rfl).2 ⟨head, tail⟩

theorem Machine.vouches_cons_iff {first : α} {rest : List α} :
    machine.Vouches (first :: rest) ↔ machine.Vouches first ∧ machine.Vouches rest :=
  vouches_append _ _ rfl

instance vouches_list_append
    (left right : List α)
    [first : machine.Vouches left]
    [second : machine.Vouches right] :
    machine.Vouches (left ++ right) :=
  vouches_list.2 fun _ member => (List.mem_append.1 member).elim
    (fun old => .of_mem old) fun new => .of_mem new

instance (list : List α) (count : Nat) [machine.Vouches list] : machine.Vouches (list.take count) :=
  .of_subset (List.take_subset count list)

instance (list : List α) (count : Nat) [machine.Vouches list] : machine.Vouches (list.drop count) :=
  .of_subset (List.drop_subset count list)

instance (data : Option α) (fallback : α) [vouched : machine.Vouches data]
    [other : machine.Vouches fallback] :
    machine.Vouches (data.getD fallback) := by
  cases data with
  | none => exact other
  | some entry => exact vouches_some.1 vouched

instance vouches_ite
    (condition : Prop)
    [Decidable condition]
    (left right : α)
    [first : machine.Vouches left]
    [second : machine.Vouches right] :
    machine.Vouches (if condition then left else right) := by
  split
  · exact first
  · exact second

theorem Machine.vouches_array {array : Array α} :
    machine.Vouches array ↔ ∀ entry ∈ array, machine.Vouches entry := by
  have same : machine.Vouches array ↔ machine.Vouches array.toList := vouches_congr rfl
  rw [same, vouches_list]
  simp only [Array.mem_toList_iff]

instance (array : Array α) [vouched : machine.Vouches array] : machine.Vouches array.toList :=
  ⟨vouched.accepts⟩

instance (list : List α) [vouched : machine.Vouches list] : machine.Vouches (Array.mk list) :=
  ⟨vouched.accepts⟩

instance vouches_push
    (array : Array α)
    (entry : α)
    [vouched : machine.Vouches array]
    [new : machine.Vouches entry] :
    machine.Vouches (array.push entry) :=
  vouches_array.2 fun other member => (Array.mem_push.1 member).elim
    (fun old => vouches_array.1 vouched other old) fun same => same ▸ new

instance vouches_setIfInBounds
    (array : Array α)
    (index : Nat)
    (entry : α)
    [vouched : machine.Vouches array]
    [new : machine.Vouches entry] :
    machine.Vouches (array.setIfInBounds index entry) :=
  vouches_array.2 fun other member => (Array.mem_or_eq_of_mem_setIfInBounds member).elim
    (fun old => vouches_array.1 vouched other old) fun same => same ▸ new

instance vouches_array_get?
    (array : Array α)
    (index : Nat)
    [vouched : machine.Vouches array] :
    machine.Vouches array[index]? := by
  cases present : array[index]? with
  | none => infer_instance
  | some entry =>
      exact vouches_some.2 (vouches_array.1 vouched entry (Array.mem_of_getElem? present))

end

end ScriptVM

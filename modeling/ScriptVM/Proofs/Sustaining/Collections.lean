import ScriptVM.Proofs.Collection
import ScriptVM.Proofs.Sustaining

/-!
# Collections between runs

What a survivor of a collection leads to survives, too, since the tracer lists all of it. So
does what the machine itself holds and what the embedder keeps.
-/

namespace ScriptVM

variable {σ α β : Type} {collects : Bool}

/-- The objects that an item leads to. -/
def Item.leadsTo (cells : Cells) : Item -> List ObjectId
  | .value named => named.objectId?.toList
  | .object id | .promise id => [id]
  | .window id => (cells.window id).toList.filterMap Value.objectId?
  | .captured id => cells.upvalueReferences id
  | .cell id => ((cells.thisCells[id.index]?).join.bind Value.objectId?).toList
  | .aggregate id =>
      match cells.aggregates[id.index]? with
      | some collected => valueReferences (collected.entries.toList.filterMap fun entry => entry)
      | none => []

/-- The list has everything that the items lead to. -/
def Traces (cells : Cells) (found : List Item) (traced : List ObjectId) : Prop :=
  ∀ item ∈ found, item.leadsTo cells ⊆ traced

namespace Traces

variable [Carrier α] {cells : Cells} {left right : List Item} {traced others : List ObjectId}

theorem mono (traces : Traces cells left traced) (included : traced ⊆ others) :
    Traces cells left others :=
  fun item member => List.Subset.trans (traces item member) included

theorem append (first : Traces cells left traced) (second : Traces cells right others) :
    Traces cells (left ++ right) (traced ++ others) := by
  intro item member
  rcases List.mem_append.1 member with member | member
  · exact List.Subset.trans (first item member) (List.subset_append_left _ _)
  · exact List.Subset.trans (second item member) (List.subset_append_right _ _)

theorem nil : Traces cells [] traced :=
  fun _ member => by cases member

theorem single (item : Item) : Traces cells [item] (item.leadsTo cells) := by
  intro other member
  cases List.mem_singleton.1 member
  exact List.Subset.refl _

/-! ## Handles, values and containers -/

theorem value (value : Value) : Traces cells (items value) value.objectId?.toList :=
  .single (.value value)

theorem object (id : ObjectId) : Traces cells (items id) [id] :=
  .single (.object id)

theorem promiseHandle (id : ObjectId) : Traces cells (items (PromiseHandle.mk id)) [id] := by
  intro item member
  rcases List.mem_cons.1 member with rfl | last
  · exact List.Subset.refl _
  · exact List.mem_singleton.1 last ▸ List.Subset.refl _

theorem list {entries : List α} (each : ∀ entry ∈ entries, Traces cells (items entry) traced) :
    Traces cells (items entries) traced := by
  intro item member
  obtain ⟨entry, present, member⟩ := List.mem_flatMap.1 member
  exact each entry present item member

theorem option
    {data : Option α}
    (each : ∀ entry, data = some entry -> Traces cells (items entry) traced) :
    Traces cells (items data) traced := by
  cases data with
  | none => exact .nil
  | some entry => exact each entry rfl

theorem optionId (data : Option ObjectId) : Traces cells (items data) data.toList :=
  .option fun id same => same ▸ .object id

theorem optionPromise (data : Option ObjectId) :
    Traces cells (items (data.map PromiseHandle.mk)) data.toList := by
  cases data with
  | none => exact .nil
  | some id => exact .promiseHandle id

theorem optionValue (data : Option Value) :
    Traces cells (items data) (data.bind Value.objectId?).toList :=
  .option fun value same => same ▸ .value value

theorem values (entries : List Value) : Traces cells (items entries) (valueReferences entries) :=
  .list fun entry present => (Traces.value entry).mono fun _ named =>
    List.mem_filterMap.2 ⟨entry, present, Option.mem_toList.1 named⟩

theorem upvalues (ids : Array UpvalueId) :
    Traces cells (items ids) (ids.toList.flatMap cells.upvalueReferences) :=
  .list fun captured present => (single (.captured captured)).mono fun _ leads =>
    List.mem_flatMap.2 ⟨captured, present, leads⟩

/-! ## Scopes, frames and closures -/

theorem scope (scope : Scope) : Traces cells (items scope) (cells.scopeReferences scope) := by
  have this : Traces cells (items scope.this)
      ((cells.this? scope).bind Value.objectId?).toList := by
    unfold Cells.this?
    cases scope.this with
    | bound value => exact .value value
    | pending cell => exact .single (.cell cell)
  exact ((this.append (.value scope.newTarget)).append (.optionId scope.function)).append
    (.optionId scope.homeObject)

theorem completion (completion : Completion) :
    Traces cells (items completion)
      ((Frame.completionValue? completion).bind Value.objectId?).toList := by
  cases completion with
  | normal => exact .nil
  | jump => exact .nil
  | «return» value => exact .value value
  | throw exception =>
      cases exception with
      | value value => exact .value value
      | fault fault => exact .nil

theorem frame (frame : Frame) : Traces cells (items frame) (frame.references cells) := by
  have window : Traces cells (items frame.window)
      ((cells.window frame.window).toList.filterMap Value.objectId?) :=
    .single (.window frame.window)
  have function : Traces cells (items (frame.function.map Value.function))
      frame.function.toList := by
    cases frame.function with
    | none => exact .nil
    | some id => exact .single (.value (.function id))
  have arguments : Traces cells (items (frame.argumentsObject.map Value.object))
      frame.argumentsObject.toList := by
    cases frame.argumentsObject with
    | none => exact .nil
    | some id => exact .single (.value (.object id))
  have completions : Traces cells (items frame.completions)
      (frame.completions.toList.filterMap fun completion =>
        (Frame.completionValue? completion).bind Value.objectId?) :=
    .list fun completion present => (Traces.completion completion).mono fun _ named =>
      List.mem_filterMap.2 ⟨completion, present, Option.mem_toList.1 named⟩
  have delegation : Traces cells (items frame.delegation)
      (frame.delegation.bind fun entry => entry.2.objectId?).toList :=
    .option fun entry same => by
      rw [same]
      exact .value entry.2
  have upToException := ((((((window.append (.upvalues frame.upvalues)).append
    (.scope frame.scope)).append (.values frame.arguments)).append function).append
    arguments).append (.optionId frame.coroutine)).append (.optionValue frame.exception)
  -- The tracer lists the delegation before the completions.
  intro item member
  rcases List.mem_append.1 member with member | held
  · rcases List.mem_append.1 member with member | held
    · exact List.Subset.trans (upToException item member) fun _ leads =>
        List.mem_append_left _ (List.mem_append_left _ leads)
    · exact List.Subset.trans (completions item held) (List.subset_append_right _ _)
  · exact List.Subset.trans (delegation item held) fun _ leads =>
      List.mem_append_left _ (List.mem_append_right _ leads)

theorem closure (closure : Closure) : Traces cells (items closure) (closure.references cells) := by
  refine (((Traces.upvalues closure.upvalues).append ?_).append
    (.optionId closure.homeObject)).append (.optionId closure.fieldInitializer)
  cases closure.lexicalScope with
  | none => exact .nil
  | some scope => exact .scope scope

/-! ## Internal slots and jobs -/

theorem behavior (behavior : NativeBehavior) :
    Traces cells (items behavior) (behavior.references cells) := by
  cases behavior with
  | builtin function => exact .nil
  | host function => exact .nil
  | resolving promise latch reject => exact .promiseHandle promise
  | combinatorElement index aggregate capability settlement =>
      intro item member
      rcases List.mem_append.1 member with held | held
      · exact List.Subset.trans (single (.aggregate aggregate) item held)
          (List.subset_cons_self _ _)
      · exact List.Subset.trans (Traces.promiseHandle capability item held)
          (List.cons_subset_cons capability (List.nil_subset _))
  | finallyStep onFinally settlement => exact .value onFinally
  | settled value settlement => exact .value value

theorem coroutine (coroutine : Coroutine) :
    Traces cells (items coroutine) (coroutine.references cells) := by
  refine .append ?_ ?_
  · cases coroutine.frame with
    | none => exact .nil
    | some frame => exact .frame frame
  · cases coroutine.kind with
    | generator => exact .nil
    | async promise => exact .promiseHandle promise

theorem handler (handler : Handler) : Traces cells (items handler) handler.references := by
  cases handler with
  | callable function => exact .value function
  | identity => exact .nil
  | thrower => exact .nil
  | asyncResume coroutine => exact .object coroutine

theorem reaction (reaction : Reaction) : Traces cells (items reaction) reaction.references :=
  ((Traces.optionPromise reaction.capability).append (.handler reaction.onFulfilled)).append
    (.handler reaction.onRejected)

theorem promise (record : PromiseRecord Value Reaction) :
    Traces cells (items record) (promiseReferences record) := by
  refine .append ?_ (.list fun reaction present => ?_)
  · cases record.state with
    | pending => exact .nil
    | fulfilled value => exact .value value
    | rejected reason => exact .value reason
  · exact (Traces.reaction reaction).mono fun _ leads =>
      List.mem_flatMap.2 ⟨reaction, present, leads⟩

theorem kind (kind : ObjectKind) : Traces cells (items kind) (kind.references cells) := by
  cases kind with
  | ordinary => exact .nil
  | arguments => exact .nil
  | error => exact .nil
  | array store => exact .values store.elements.toList
  | function closure => exact .closure closure
  | native function => exact .behavior function.behavior
  | bound target receiver leading =>
      have traces : Traces cells (items (target :: receiver :: leading)) _ := .values _
      simpa [items, ObjectKind.references] using traces
  | coroutine coroutine => exact .coroutine coroutine
  | promise record => exact .promise record
  | proxy target handler =>
      have traces : Traces cells (items [target, handler]) _ := .values _
      simpa [items, ObjectKind.references] using traces
  | arrayIterator array index done => exact .value array

/-- An object refers to all that it leads to. -/
theorem heapObject (object : HeapObject ObjectKind) :
    Traces cells (items object) (Heap.references (ObjectKind.references cells) object) := by
  have entries : Traces cells (items object.properties.entries)
      (object.properties.values.filterMap Value.objectId?) := by
    refine .list fun entry present => ?_
    show Traces cells (items entry.2.values) _
    refine .list fun value held => ?_
    refine (Traces.value value).mono fun id named => List.mem_filterMap.2 ⟨value, ?_, ?_⟩
    · exact List.mem_flatMap.2 ⟨entry, present, held⟩
    · exact Option.mem_toList.1 named
  exact ((Traces.optionId object.prototype).append entries).append (.kind object.payload)

theorem job (job : Job σ) : Traces cells (items job) job.references := by
  cases job with
  | reaction handler capability settlement argument =>
      exact ((Traces.handler handler).append (.optionPromise capability)).append (.value argument)
  | resolveThenable promise thenable thenMethod =>
      have values : Traces cells (items [thenable, thenMethod]) _ := .values _
      have traces := (Traces.promiseHandle promise).append values
      simpa [items, Job.references] using traces
  | host body => exact .nil

end Traces

/-! ## What resumptions hold -/

theorem Reaction.Resumes.mem_items
    {reaction : Reaction}
    {coroutine : ObjectId}
    (resumes : reaction.Resumes coroutine) :
    Item.object coroutine ∈ items reaction := by
  have held : Item.object coroutine ∈ items (Handler.asyncResume coroutine) := .head _
  obtain ⟨settlement, same⟩ := resumes
  cases settlement with
  | fulfilled =>
      have same : reaction.onFulfilled = _ := same
      exact List.mem_append_left _ (List.mem_append_right _ (same ▸ held))
  | rejected =>
      have same : reaction.onRejected = _ := same
      exact List.mem_append_right _ (same ▸ held)

theorem Reaction.Resumes.mem_items_kind
    {reaction : Reaction}
    {coroutine : ObjectId}
    {kind : ObjectKind}
    (resumes : reaction.Resumes coroutine)
    (waits : reaction ∈ kind.reactions) :
    Item.object coroutine ∈ items kind := by
  cases kind with
  | promise record =>
      exact List.mem_append_right _ (List.mem_flatMap.2 ⟨reaction, waits, resumes.mem_items⟩)
  | _ => cases waits

theorem Job.Resumes.mem_items
    {job : Job σ}
    {coroutine : ObjectId}
    (resumes : job.Resumes coroutine) :
    Item.object coroutine ∈ items job := by
  obtain ⟨capability, settlement, argument, rfl⟩ := resumes
  exact List.mem_append_left _ (List.mem_append_left _ (.head _))

/-! ## What a collection leaves -/

namespace Machine

/-- What an item leads to is not freed, so the item is accepted still. -/
theorem Accepts.survives
    {machine : Machine σ}
    {heap : Heap ObjectKind}
    {item : Item}
    (accepted : machine.Accepts item)
    (survive : ∀ id ∈ item.leadsTo machine.cells,
      heap.payload? id = machine.heap.payload? id) :
    Accepts { machine with heap } item := by
  have tags : ∀ {value}, machine.Tags value ->
      (∀ id, value.objectId? = some id -> heap.payload? id = machine.heap.payload? id) ->
      Tags { machine with heap } value := by
    intro value tagged stays
    cases value with
    | object id =>
        obtain ⟨kind, present, lenient⟩ := tagged
        exact ⟨kind, (stays id rfl).trans present, lenient⟩
    | function id =>
        obtain ⟨kind, present, callable⟩ := tagged
        exact ⟨kind, (stays id rfl).trans present, callable⟩
    | _ => trivial
  cases item with
  | value value => exact tags accepted fun id named => survive id (Option.mem_toList.2 named)
  | object id =>
      obtain ⟨kind, present⟩ := accepted
      exact ⟨kind, (survive id (List.mem_singleton.2 rfl)).trans present⟩
  | promise id =>
      obtain ⟨record, present⟩ := accepted
      exact ⟨record, (survive id (List.mem_singleton.2 rfl)).trans present⟩
  | window id =>
      intro value member
      exact tags (accepted value member) fun other named =>
        survive other (List.mem_filterMap.2 ⟨value, Array.mem_toList_iff.2 member, named⟩)
  | captured id =>
      simp only [Item.leadsTo, Cells.upvalueReferences] at survive
      simp only [Accepts] at accepted ⊢
      cases present : machine.cells.upvalues[id.index]? with
      | none => trivial
      | some upvalue =>
          rw [present] at accepted survive
          cases upvalue with
          | attached window register =>
              intro value member
              exact tags (accepted value member) fun other named =>
                survive other (List.mem_filterMap.2 ⟨value, Array.mem_toList_iff.2 member, named⟩)
          | detached value =>
              exact tags accepted fun id named => survive id (Option.mem_toList.2 named)
  | cell id =>
      intro value filled
      have filled : machine.cells.thisCells[id.index]? = some (some value) := filled
      refine tags (accepted value filled) fun other named => survive other ?_
      simp only [Item.leadsTo, filled]
      exact Option.mem_toList.2 named
  | aggregate id =>
      intro aggregate present value member
      have present : machine.cells.aggregates[id.index]? = some aggregate := present
      refine tags (accepted aggregate present value member) fun other named => survive other ?_
      simp only [Item.leadsTo, present]
      refine List.mem_filterMap.2 ⟨value, List.mem_filterMap.2 ⟨some value, ?_, rfl⟩, named⟩
      exact Array.mem_toList_iff.2 member

/-- A heap is what is left of the heap of a machine without the freed objects. What a
survivor or the machine itself refers to is not among these. -/
structure LeftOf (machine : Machine σ) (freed : List ObjectId) (heap : Heap ObjectKind) :
    Prop where
  tidy : heap.Tidy
  lives : ∀ id, heap.get? id = if id ∈ freed then none else machine.heap.get? id
  referred : ∀ {id object}, heap.get? id = some object ->
    ∀ other ∈ Heap.references (ObjectKind.references machine.cells) object, other ∉ freed
  rooted : ∀ id ∈ machine.roots, id ∉ freed

namespace LeftOf

variable {machine : Machine σ} {freed : List ObjectId} {heap : Heap ObjectKind}

theorem payload? (left : machine.LeftOf freed heap) {id : ObjectId} (survives : id ∉ freed) :
    heap.payload? id = machine.heap.payload? id := by
  unfold Heap.payload?
  rw [left.lives, if_neg survives]

section

variable (left : machine.LeftOf freed heap)
include left

/-- Survivors are what they were. -/
theorem get?
    {id : ObjectId}
    {object : HeapObject ObjectKind}
    (survives : heap.get? id = some object) :
    machine.heap.get? id = some object := by
  rw [left.lives] at survives
  split at survives
  · cases survives
  · exact survives

theorem accepts
    {item : Item}
    (accepted : machine.Accepts item)
    (survive : ∀ id ∈ item.leadsTo machine.cells, id ∉ freed) :
    Accepts { machine with heap } item :=
  accepted.survives fun id leads => left.payload? (survive id leads)

theorem vouches
    [Carrier α]
    {data : α}
    {traced : List ObjectId}
    (traces : Traces machine.cells (items data) traced)
    (survive : ∀ id ∈ traced, id ∉ freed)
    [vouched : machine.Vouches data] :
    Vouches { machine with heap } data :=
  ⟨fun item member => left.accepts (vouched.accepts item member)
    fun id leads => survive id (traces item member leads)⟩

end

theorem acyclic (left : machine.LeftOf freed heap) (acyclic : machine.Acyclic) :
    Acyclic { machine with heap } := by
  refine acyclic.mono (fun {id prototype} linked => ?_) fun {id} proxy linked => ?_
  · obtain ⟨object, live, links⟩ := Option.bind_eq_some_iff.1 linked
    exact Option.bind_eq_some_iff.2 ⟨object, left.get? live, links⟩
  · have survives : id ∉ freed := by
      intro freedId
      have dead : heap.get? id = none := (left.lives id).trans (if_pos freedId)
      have linked : ((heap.get? id).bind HeapObject.prototype).isSome := linked
      rw [dead] at linked
      cases linked
    have same : Machine.kind? { machine with heap } id = machine.kind? id :=
      left.payload? survives
    unfold isProxy at proxy ⊢
    rw [same]
    exact proxy

/-- Async functions survive that are resumed some day. -/
theorem resumesOnce (left : machine.LeftOf freed heap) (resumes : machine.ResumesOnce) :
    ResumesOnce { machine with heap } := by
  have kinds : ∀ {id kind}, Machine.kind? { machine with heap } id = some kind ->
      ∃ object, heap.get? id = some object ∧ object.payload = kind ∧ machine.kind? id = some kind := by
    intro id kind present
    obtain ⟨object, live, rfl⟩ := Option.map_eq_some_iff.1 present
    exact ⟨object, live, rfl, Option.map_eq_some_iff.2 ⟨object, left.get? live, rfl⟩⟩
  have waited : ∀ {coroutine place}, Machine.ResumesAt { machine with heap } coroutine place ->
      machine.ResumesAt coroutine place ∧ coroutine ∉ freed := by
    intro coroutine place waits
    cases waits with
    | @reaction promise index reaction stands resumes =>
        unfold Machine.reactions at stands
        cases present : Machine.kind? { machine with heap } promise with
        | none =>
            rw [present] at stands
            cases stands
        | some kind =>
            rw [present] at stands
            obtain ⟨object, live, rfl, old⟩ := kinds present
            refine ⟨.reaction (reactions_of_kind? old ▸ stands) resumes, ?_⟩
            refine left.referred live coroutine (Traces.heapObject object (.object coroutine) ?_
              (List.mem_singleton.2 rfl))
            exact List.mem_append_right _ (resumes.mem_items_kind (List.mem_of_getElem? stands))
    | @job index job stands resumes =>
        have traces : Traces machine.cells (items job) job.references := .job job
        exact ⟨.job stands resumes, left.rooted coroutine (List.mem_append_right _
          (List.mem_flatMap.2 ⟨job, List.mem_of_getElem? stands, traces (.object coroutine)
            resumes.mem_items (List.mem_singleton.2 rfl)⟩))⟩
  refine ⟨fun {coroutine place} waits => ?_, fun waits others =>
    resumes.once (waited waits).1 (waited others).1⟩
  have state := resumes.suspended (waited waits).1
  unfold asyncState? at state ⊢
  rwa [show Machine.kind? { machine with heap } coroutine = machine.kind? coroutine from
    left.payload? (waited waits).2]

/-- What is left of a consistent machine without frames is consistent. -/
theorem consistent
    (left : machine.LeftOf freed heap)
    (idle : machine.frames = #[])
    [consistent : machine.Consistent collects] :
    Consistent collects { machine with heap } where
  tidy := left.tidy
  objects := fun {id object} live =>
    have := consistent.objects (left.get? live)
    left.vouches (.heapObject object) (left.referred live)
  frames := by
    show Vouches _ machine.frames
    rw [idle]
    exact vouches_array.2 fun frame member => absurd member (Array.not_mem_empty frame)
  microtasks :=
    have := consistent.microtasks
    left.vouches
      (.list fun job present => (Traces.job job).mono fun _ leads =>
        List.mem_flatMap.2 ⟨job, present, leads⟩)
      fun id traced => left.rooted id (List.mem_append_right _ traced)
  rejections :=
    have := consistent.rejections
    left.vouches
      (.list fun promise present => (Traces.object promise).mono fun _ same =>
        List.mem_singleton.1 same ▸ present)
      fun id traced => left.rooted id (List.mem_append_left _ (List.mem_append_right _ traced))
  unhandled :=
    have := consistent.unhandled
    left.vouches (.values machine.unhandled) fun id traced =>
      left.rooted id (List.mem_append_left _ (List.mem_append_left _
        (List.mem_append_right _ traced)))
  intrinsics := fun id member =>
    @accepts _ _ _ _ left (.value (.object id)) (consistent.intrinsics id member)
      fun other leads => left.rooted other (List.mem_append_left _ (List.mem_append_left _
        (List.mem_append_left _ (List.mem_singleton.1 leads ▸ member))))
  tied := by
    refine consistent.tied.mono (fun {place frame} held => ?_) fun stands => stands
    cases held with
    | running present => exact .running present
    | @parked id coroutine frame present parked =>
        obtain ⟨object, live, slots⟩ := Option.map_eq_some_iff.1 present
        exact .parked (Option.map_eq_some_iff.2 ⟨object, left.get? live, slots⟩) parked
  attended := ⟨consistent.attended.hosts, consistent.attended.tasks,
    consistent.attended.microtasks⟩
  resumes := left.resumesOnce consistent.resumes

end LeftOf

/-- Without frames, a collection leaves what neither the machine nor the embedder lets go. -/
theorem collectGarbage_cases
    (machine : Machine σ)
    (kept : List Value)
    [consistent : machine.Consistent collects] :
    (machine.collectGarbage kept).2 = machine ∨
      machine.frames = #[] ∧ machine.nativeDepth = 0 ∧ ∃ freed heap,
        (machine.collectGarbage kept).2 = { machine with heap } ∧
          machine.LeftOf freed heap ∧ ∀ id ∈ valueReferences kept, id ∉ freed := by
  unfold Machine.collectGarbage
  split
  · exact Or.inl rfl
  next idle =>
  rw [Bool.or_eq_true, not_or, Bool.not_eq_true', Bool.not_eq_false, decide_eq_true_iff,
    Nat.not_lt, Nat.le_zero] at idle
  refine Or.inr ⟨Array.isEmpty_iff.1 idle.1, idle.2, _, _, rfl, ?_, fun id named =>
    machine.heap.root_survives (ObjectKind.references machine.cells) _
      (List.mem_append_right machine.roots named)⟩
  exact {
    tidy := consistent.tidy.collect _ _
    lives := machine.heap.get?_collect_eq _ _
    referred := fun live _ refers => machine.heap.reference_survives _ _ live refers
    rooted := fun id root => machine.heap.root_survives _ _ (List.mem_append_left _ root) }

section

variable {machine : Machine σ} [consistent : machine.Consistent collects]

/-- A collection leaves a consistent machine. -/
theorem Consistent.collectGarbage (kept : List Value) :
    (machine.collectGarbage kept).2.Consistent collects := by
  obtain same | ⟨idle, _, freed, heap, same, left, _⟩ := machine.collectGarbage_cases kept
  · rw [same]
    exact consistent
  · rw [same]
    exact left.consistent idle

include consistent

theorem Acyclic.collectGarbage (acyclic : machine.Acyclic) (kept : List Value) :
    (machine.collectGarbage kept).2.Acyclic := by
  obtain same | ⟨_, _, freed, heap, same, left, _⟩ := machine.collectGarbage_cases kept
  · rw [same]
    exact acyclic
  · rw [same]
    exact left.acyclic acyclic

/-- What leads only to what the embedder keeps is accepted after a collection. -/
theorem Accepts.collectGarbage
    {item : Item}
    (accepted : machine.Accepts item)
    (kept : List Value)
    (leads : item.leadsTo machine.cells ⊆ valueReferences kept) :
    (machine.collectGarbage kept).2.Accepts item := by
  obtain same | ⟨_, _, freed, heap, same, left, rooted⟩ := machine.collectGarbage_cases kept
  · rw [same]
    exact accepted
  · rw [same]
    exact left.accepts accepted fun id member => rooted id (leads member)

/-- Under a native call nothing is collected. -/
theorem collectGarbage_nested (kept : List Value) (nested : 0 < machine.nativeDepth) :
    (machine.collectGarbage kept).2 = machine := by
  obtain same | ⟨_, none, _⟩ := machine.collectGarbage_cases kept
  · exact same
  · exact absurd nested (by omega)

end
end Machine
end ScriptVM

import ScriptVM.Proofs.Sessions

/-!
# Stored values

What a machine stores at every moment of a session of a careful embedder: its handles denote
live objects, and its values have the form of what they name.

## Live references

At every moment of a session of a careful embedder, all handles that the machine stores denote
live objects. An allocation never hands out one of them, and a collection does not touch their
objects. So as long as a handle is stored it denotes one and the same object.
-/

namespace ScriptVM

variable {σ : Type} {collects : Bool}

namespace Machine

variable {machine : Machine σ}

/-- What an allocation hands out was stored nowhere. -/
theorem Mentions.ne_allocated
    {id : ObjectId}
    (mentions : machine.Mentions id)
    (prototype : Option ObjectId)
    (kind : ObjectKind)
    [machine.Consistent collects] :
    (machine.allocate prototype kind).1 ≠ id := by
  intro same
  obtain ⟨held, present⟩ := mentions.live
  have dead : machine.kind? (machine.allocate prototype kind).1 = none :=
    kind?_allocated prototype kind
  rw [same, present] at dead
  cases dead

/-- What is stored after a collection denotes the object that it did before. -/
theorem get?_collectGarbage_of_mentions
    {id : ObjectId}
    (kept : List Value)
    (mentions : (machine.collectGarbage kept).2.Mentions id)
    [consistent : machine.Consistent collects] :
    (machine.collectGarbage kept).2.heap.get? id = machine.heap.get? id := by
  have after := consistent.collectGarbage kept
  obtain ⟨kind, present⟩ := mentions.live
  obtain ⟨object, live, _⟩ := Option.map_eq_some_iff.1 present
  obtain same | ⟨_, _, freed, heap, same, left, _⟩ := machine.collectGarbage_cases kept
  · rw [same]
  · rw [same] at live ⊢
    exact live.trans (left.get? live).symm

end Machine

/-- At every moment of a session, each handle that the machine stores denotes a live object. No
allocation hands out a handle that is stored, and what is stored after a collection denotes the
object that it denoted before. -/
theorem stored_references_live
    {sight : Sight σ}
    (session : sight.InSession collects) :
    (∀ id, sight.machine.Mentions id -> ∃ object, sight.machine.heap.get? id = some object) ∧
    (∀ prototype kind, ¬ sight.machine.Mentions (sight.machine.allocate prototype kind).1) ∧
    ∀ kept id, (sight.machine.collectGarbage kept).2.Mentions id ->
      (sight.machine.collectGarbage kept).2.heap.get? id = sight.machine.heap.get? id := by
  have := session.consistent
  refine ⟨fun id mentions => ?_, fun prototype kind mentions => ?_, fun kept id mentions => ?_⟩
  · obtain ⟨kind, present⟩ := mentions.live
    obtain ⟨object, live, _⟩ := Option.map_eq_some_iff.1 present
    exact ⟨object, live⟩
  · exact mentions.ne_allocated prototype kind rfl
  · exact Machine.get?_collectGarbage_of_mentions kept mentions

/-- A request that is answered hands its answer to the rest of the program. -/
theorem Exec.runProgram_request
    {asked : Request}
    {env : Env σ}
    {machine after : Machine σ}
    {response : asked.Response}
    (answered : answer asked env machine = .ok response after)
    (next : asked.Response -> HostProgram σ) :
    runProgram (.request asked next) env machine = runProgram (next response) env after := by
  change EStateM.bind (answer asked env)
    (fun response => runProgram (next response) env) machine = _
  unfold EStateM.bind
  rw [answered]

/-- An embedder makes two objects, collects garbage when it needs only the first one, and makes
another object. -/
def recyclingProgram : HostProgram Unit :=
  .request .createObject fun first =>
    .request .createObject fun _ =>
      .request (.collectGarbage [first]) fun _ =>
        .request .createObject fun last => .finish (.ok last)

theorem recyclingProgram_careful : recyclingProgram.Careful collects [] := by
  simp only [recyclingProgram, HostProgram.Careful]
  refine ⟨fun _ member => (by cases member), fun first => ⟨fun _ member => (by cases member),
    fun second => ⟨fun item member => ?_, fun _ => ⟨fun _ member => (by cases member),
      fun last item member => ?_⟩⟩⟩⟩
  · obtain rfl : item = .value first := List.mem_singleton.1 member
    exact .given (List.mem_append_right _ (List.mem_append_left _ (.head [])))
  · obtain rfl : item = .value last := List.mem_singleton.1 member
    exact .given (List.mem_append_left _ (.head []))

/-- The program ends on every machine. -/
theorem recyclingProgram_ends (machine : Machine Unit) :
    ∃ answer after, machine.runWithin 0 recyclingProgram = .ok answer after := by
  have creates (machine : Machine Unit) : ∃ object after,
      Exec.answer .createObject (Env.ofFuel 0) machine = .ok object after := ⟨_, _, rfl⟩
  have collectsGarbage (kept : List Value) (machine : Machine Unit) : ∃ stats after,
      Exec.answer (.collectGarbage kept) (Env.ofFuel 0) machine = .ok stats after :=
    ⟨_, _, rfl⟩
  obtain ⟨first, machine₁, ran₁⟩ := creates machine
  obtain ⟨_, machine₂, ran₂⟩ := creates machine₁
  obtain ⟨_, machine₃, ran₃⟩ := collectsGarbage [first] machine₂
  obtain ⟨last, machine₄, ran₄⟩ := creates machine₃
  unfold Machine.runWithin recyclingProgram
  rw [Exec.runProgram_request ran₁, Exec.runProgram_request ran₂, Exec.runProgram_request ran₃,
    Exec.runProgram_request ran₄]
  exact ⟨last, machine₄, rfl⟩

/-- What the machine stores when that program has ended is live, and not handed out next. -/
theorem stored_references_live_recyclingProgram :
    ∃ answer after,
      (Builtins.newMachine {} ()).runWithin 0 recyclingProgram = .ok answer after ∧
      (∀ id, after.Mentions id -> ∃ object, after.heap.get? id = some object) ∧
      ¬ after.Mentions (after.allocate none .ordinary).1 := by
  obtain ⟨answer, after, ran⟩ := recyclingProgram_ends (Builtins.newMachine {} ())
  have live :=
    stored_references_live (.returned (@recyclingProgram_careful true) ran)
  exact ⟨answer, after, ran, live.1, live.2.1 none .ordinary⟩

/-!
## Forms of values

A value names an object by the function form if the object can be called, and by the object
form otherwise. What a machine stores has the right form at every moment of a session, so any
two values that name one object are equal and of one type. The exception is the first prototype
of functions: it can be called, but the installation writes it down by the object form as the
`prototype` of the constructor of functions.
-/

/-- Values of one form that name one object are the same. -/
theorem Value.eq_of_objectId?
    {left right : Value}
    {id : ObjectId}
    (leftNames : left.objectId? = some id)
    (rightNames : right.objectId? = some id)
    (form : left.isCallable = right.isCallable) :
    left = right := by
  cases left <;> cases leftNames <;> cases right <;> cases rightNames <;> first | rfl | cases form

theorem Value.strictlyEquals_self
    {value : Value}
    {id : ObjectId}
    (names : value.objectId? = some id) :
    value.strictlyEquals value = true := by
  cases value <;> cases names <;> exact beq_self_eq_true id

namespace Machine

variable {machine : Machine σ} {id : ObjectId} {value : Value}

/-- The value has the form that the kind of its object asks for. -/
def Forms (machine : Machine σ) (value : Value) (id : ObjectId) : Prop :=
  value.objectId? = some id ∧ ∃ kind, machine.kind? id = some kind ∧
    value.isCallable = kind.isCallable

/-- The form that the kind asks for is the one that the machine itself picks. -/
theorem Forms.eq_objectValue (forms : machine.Forms value id) : value = machine.objectValue id := by
  obtain ⟨names, kind, present, form⟩ := forms
  refine Value.eq_of_objectId? names ?_ ?_
  · unfold objectValue
    split <;> rfl
  · rw [form, objectValue, present]
    cases called : kind.isCallable with
    | true => simp [called, Value.isCallable]
    | false => simp [called, Value.isCallable]

theorem storesValue_of_entry
    {object : HeapObject ObjectKind}
    {entry : PropertyKey × Property}
    (live : machine.heap.get? id = some object)
    (member : entry ∈ object.properties.entries.toList)
    (held : value ∈ entry.2.values) :
    machine.StoresValue value := by
  refine ⟨.value value, .object live ?_, .head []⟩
  have inEntry : Item.value value ∈ items entry :=
    List.mem_append_right _ (List.mem_flatMap.2 ⟨value, held, .head []⟩)
  have inEntries : Item.value value ∈ items object.properties.entries :=
    List.mem_flatMap.2 ⟨entry, member, inEntry⟩
  exact List.mem_append_left _ (List.mem_append_right _ inEntries)

/-- A value that the machine accepts has the right form, unless it names the first prototype of
functions. -/
theorem Tags.forms
    (tags : machine.Tags value)
    (names : value.objectId? = some id)
    (other : id ≠ machine.intrinsics.functionPrototype) :
    machine.Forms value id := by
  cases value <;> cases names
  · obtain ⟨kind, present, first⟩ := tags
    refine ⟨rfl, kind, present, ?_⟩
    cases called : kind.isCallable with
    | true => exact absurd (first called) other
    | false => rfl
  · obtain ⟨kind, present, called⟩ := tags
    exact ⟨rfl, kind, present, called.symm⟩

end Machine

/-- At every moment of a session, each value that the machine stores and that names an object
other than the first prototype of functions has the function form if and only if that object can
be called. Two of them that name one object are strictly equal and of one type. -/
theorem stored_values_well_formed
    {sight : Sight σ}
    (session : sight.InSession collects)
    {id : ObjectId}
    (other : id ≠ sight.machine.intrinsics.functionPrototype) :
    (∀ value, sight.machine.StoresValue value -> value.objectId? = some id ->
      ∃ kind, sight.machine.kind? id = some kind ∧ value.isCallable = kind.isCallable ∧
        value = sight.machine.objectValue id) ∧
    ∀ left right, sight.machine.StoresValue left -> sight.machine.StoresValue right ->
      left.objectId? = some id -> right.objectId? = some id ->
      left.strictlyEquals right = true ∧ left.typeOf = right.typeOf := by
  have := session.consistent
  have forms : ∀ value, sight.machine.StoresValue value -> value.objectId? = some id ->
      sight.machine.Forms value id :=
    fun value stores names => stores.tags.forms names other
  refine ⟨fun value stores names => ?_, fun left right leftStored rightStored leftNames
    rightNames => ?_⟩
  · obtain ⟨_, kind, present, form⟩ := forms value stores names
    exact ⟨kind, present, form, (forms value stores names).eq_objectValue⟩
  · have same : left = right :=
      (forms left leftStored leftNames).eq_objectValue.trans
        (forms right rightStored rightNames).eq_objectValue.symm
    subst same
    exact ⟨Value.strictlyEquals_self leftNames, rfl⟩

/-- The constructor of functions goes by its one form from the start. -/
theorem stored_values_well_formed_newMachine :
    ∃ value, (Builtins.newMachine {} ()).StoresValue value ∧ ∃ id, value = .function id ∧
      ∃ kind, (Builtins.newMachine {} ()).kind? id = some kind ∧
        value.isCallable = kind.isCallable := by
  have seen : ∃ object ∈ (Builtins.newMachine {} ()).heap.get?
        (Builtins.newMachine {} ()).intrinsics.global,
      ∃ entry ∈ object.properties.entries.toList,
      ∃ value ∈ entry.2.values, ∃ id ∈ value.objectId?,
        value.isCallable = true ∧
        id ≠ (Builtins.newMachine {} ()).intrinsics.functionPrototype := by
    decide +kernel
  obtain ⟨object, live, entry, member, value, held, id, names, callable, other⟩ := seen
  have stores := Machine.storesValue_of_entry live member held
  obtain ⟨kind, present, form, _⟩ :=
    (stored_values_well_formed
      (Sight.InSession.new {} () : Sight.InSession true _) other).1 value stores names
  refine ⟨value, stores, id, ?_, kind, present, form⟩
  exact Value.eq_of_objectId? names rfl callable

/-- The first prototype of functions can be called, but the new machine stores a value that
names it by the object form. That is neither equal to the value by which the machine answers
when it is asked for a prototype, nor of one type with it. -/
theorem function_prototype_stored_by_object_form :
    let machine := Builtins.newMachine {} ()
    let first := machine.intrinsics.functionPrototype
    machine.StoresValue (.object first) ∧
      (∃ kind ∈ machine.kind? first, kind.isCallable = true) ∧
      (Value.object first).strictlyEquals (machine.objectValue first) = false ∧
      (Value.object first).typeOf ≠ (machine.objectValue first).typeOf := by
  intro machine first
  have seen : (∃ kind ∈ machine.kind? first, kind.isCallable = true) ∧
      ∃ function ∈ machine.getGlobal? "Function", ∃ holder ∈ function.objectId?,
      ∃ object ∈ machine.heap.get? holder, ∃ entry ∈ object.properties.entries.toList,
      ∃ value ∈ entry.2.values, value.objectId? = some first ∧ value.isCallable = false := by
    decide +kernel
  obtain ⟨⟨kind, present, called⟩, _, _, _, _, object, live, entry, member, value, held, names,
    form⟩ := seen
  obtain rfl : value = .object first := Value.eq_of_objectId? names rfl form
  have forms : machine.Forms (.function first) first := ⟨rfl, kind, present, called.symm⟩
  refine ⟨Machine.storesValue_of_entry live member held, ⟨kind, present, called⟩, ?_, ?_⟩
  · rw [← forms.eq_objectValue]
    rfl
  · rw [← forms.eq_objectValue]
    exact of_decide_eq_true rfl

end ScriptVM

import ScriptVM.Heap.Collect
import ScriptVM.Proofs.Collection

/-!
# Histories of a heap, and what shapes record of them

A heap on its own is used through a handful of operations, in any order and with any
handles. A history is the list of the operations that its owner asked for.
-/

namespace ScriptVM

/-- An operation on a heap with internal slots of type `K`. -/
inductive HeapOperation (K : Type)
  | allocate (prototype : Option ObjectId) (payload : K)
  | define (id : ObjectId) (key : PropertyKey) (property : Property)
  | setValueAt (id : ObjectId) (offset : Nat) (value : Value)
  | remove (id : ObjectId) (key : PropertyKey)
  | setPrototype (id : ObjectId) (prototype : Option ObjectId)
  | preventExtensions (id : ObjectId)
  /-- Write the internal slots of an object. -/
  | modifyPayload (id : ObjectId) (change : K -> K)
  | collect (roots : List ObjectId)

namespace Heap

variable {K : Type}

/-- The heap after an operation. -/
def apply
    (trace : K -> List ObjectId)
    (heap : Heap K) : HeapOperation K -> Heap K
  | .allocate prototype payload => (heap.allocate prototype payload).2
  | .define id key property => heap.define id key property
  | .setValueAt id offset value => heap.setValueAt id offset value
  | .remove id key => heap.remove id key
  | .setPrototype id prototype => heap.setPrototype id prototype
  | .preventExtensions id => heap.preventExtensions id
  | .modifyPayload id change => heap.modifyPayload id change
  | .collect roots => (heap.collect trace roots).2

/-- The heap after a history. -/
def after
    (trace : K -> List ObjectId)
    (heap : Heap K)
    (history : List (HeapOperation K)) : Heap K :=
  history.foldl (apply trace) heap

/-- What every operation keeps holds after every history. -/
theorem holds_after
    {holds : Heap K -> Prop}
    {trace : K -> List ObjectId}
    {heap : Heap K}
    (start : holds heap)
    (step : ∀ heap operation, holds heap -> holds (heap.apply trace operation))
    (history : List (HeapOperation K)) :
    holds (heap.after trace history) := by
  induction history generalizing heap with
  | nil => exact start
  | cons operation history inductionHypothesis =>
      exact inductionHypothesis (step heap operation start)

end Heap
/-!
## What shapes record

A shape records the prototype of its objects and how many properties they have, and one
that is unique has a single object. Objects of one shape have the same keys in the same
order. So a shape stands for a layout and a prototype after every history of a heap,
whatever became of the objects that had the shape, and of their prototypes, in between.
-/

namespace PropertyTable

theorem size_of_keys
    {table other : PropertyTable}
    (same : table.keys.length = other.keys.length) :
    table.size = other.size := by
  rwa [length_keys, length_keys] at same

@[simp] theorem size_setAt (table : PropertyTable) (offset : Nat) (property : Property) :
    (table.setAt offset property).size = table.size :=
  size_of_keys (congrArg List.length (table.keys_setAt property offset))

@[simp] theorem size_append (table : PropertyTable) (key : PropertyKey) (property : Property) :
    (table.append key property).size = table.size + 1 := by
  rw [← length_keys, keys_append, List.length_append, length_keys, List.length_singleton]

theorem size_eraseAt {table : PropertyTable} {offset : Nat} (within : offset < table.size) :
    (table.eraseAt offset).size = table.size - 1 := by
  rw [← length_keys, keys_eraseAt, List.length_eraseIdx_of_lt (by rwa [length_keys]),
    length_keys]

end PropertyTable

/-! ### Shape tables -/

namespace ShapeTable

/-- An empty shape counts no properties and a transition leads to one more. Neither leads
to a shape that belongs to a single object. -/
structure Regular (table : ShapeTable) : Prop where
  roots : ∀ prototype root, (prototype, root) ∈ table.roots ->
    ∃ shape, table.get? root = some shape ∧ shape.propertyCount = 0 ∧ shape.isUnique = false
  transitions : ∀ source shape key target, table.get? source = some shape ->
    (key, target) ∈ shape.transitions ->
      ∃ next, table.get? target = some next ∧
        next.propertyCount = shape.propertyCount + 1 ∧ next.isUnique = false

/-- A table that answered a request for a shape with a number of properties. Old shapes
record what they recorded, and a shape for a single object is new. -/
structure Counted
    (table : ShapeTable)
    (count : Nat)
    (result : ShapeId × ShapeTable) : Prop where
  regular : result.2.Regular
  kept : ∀ id shape, table.get? id = some shape ->
    ∃ later, result.2.get? id = some later ∧ later.propertyCount = shape.propertyCount ∧
      later.isUnique = shape.isUnique
  counts : ∃ shape, result.2.get? result.1 = some shape ∧ shape.propertyCount = count ∧
    (shape.isUnique = true -> table.get? result.1 = none)

theorem regular_empty : Regular {} where
  roots _ _ member := by cases member
  transitions _ _ _ _ present := by cases present

variable {table : ShapeTable} {source target : ShapeId} {key : PropertyKey} {shape : Shape}

/-- A shape without transitions is added. -/
theorem Regular.add (regular : table.Regular) {shape : Shape} (leaf : shape.transitions = []) :
    (table.add shape).2.Regular where
  roots prototype root member := by
    obtain ⟨known, present, recorded⟩ := regular.roots prototype root member
    exact ⟨known, get?_add_of_some shape present, recorded⟩
  transitions source known key target present member := by
    rw [get?_add] at present
    split at present
    · cases present
      rw [leaf] at member
      cases member
    · obtain ⟨next, stands, recorded⟩ :=
        regular.transitions source known key target present member
      exact ⟨next, get?_add_of_some shape stands, recorded⟩

theorem recorded_link
    {id : ShapeId}
    (present : table.get? id = some shape) :
    ∃ linked, (table.link source key target).get? id = some linked ∧
      linked.propertyCount = shape.propertyCount ∧ linked.isUnique = shape.isUnique ∧
        ∀ entry ∈ linked.transitions,
          entry ∈ shape.transitions ∨ id = source ∧ entry = (key, target) := by
  rw [get?_link, present]
  split
  · next same =>
      refine ⟨_, rfl, rfl, rfl, fun entry member => ?_⟩
      rcases List.mem_cons.1 member with new | old
      · exact Or.inr ⟨same.symm, new⟩
      · exact Or.inl old
  · exact ⟨shape, rfl, rfl, rfl, fun _ member => Or.inl member⟩

/-- A transition is added that leads to one property more. -/
theorem Regular.link
    (regular : table.Regular)
    {shape next : Shape}
    (outgoing : table.get? source = some shape)
    (incoming : table.get? target = some next)
    (count : next.propertyCount = shape.propertyCount + 1)
    (shared : next.isUnique = false) :
    (table.link source key target).Regular where
  roots prototype root member := by
    obtain ⟨known, present, empty, shared⟩ := regular.roots prototype root member
    obtain ⟨linked, there, counts, unique, _⟩ := recorded_link present
    exact ⟨linked, there, counts.trans empty, unique.trans shared⟩
  transitions origin linked other reached present member := by
    obtain ⟨known, stands⟩ := get?_of_link present
    obtain ⟨_, there, counts, _, entries⟩ := recorded_link stands
    cases there.symm.trans present
    rcases entries _ member with old | ⟨rfl, added⟩
    · obtain ⟨further, leads, more, common⟩ :=
        regular.transitions origin known other reached stands old
      obtain ⟨later, placed, countsLater, uniqueLater, _⟩ := recorded_link leads
      exact ⟨later, placed, by rw [countsLater, more, counts], uniqueLater.trans common⟩
    · cases added
      cases stands.symm.trans outgoing
      obtain ⟨later, placed, countsLater, uniqueLater, _⟩ := recorded_link incoming
      exact ⟨later, placed, by rw [countsLater, count, counts], uniqueLater.trans shared⟩

/-- The empty shapes of some prototypes are forgotten. -/
theorem Regular.forget
    {later : ShapeTable}
    (regular : table.Regular)
    (shapes : ∀ id, later.get? id = table.get? id)
    (roots : ∀ entry ∈ later.roots, entry ∈ table.roots) :
    later.Regular where
  roots prototype root member := by
    rw [shapes]
    exact regular.roots prototype root (roots _ member)
  transitions source shape key target present member := by
    rw [shapes] at present ⊢
    exact regular.transitions source shape key target present member

theorem counted_unique (regular : table.Regular) (prototype : Option ObjectId) (count : Nat) :
    table.Counted count (table.unique prototype count) where
  regular := regular.add rfl
  kept _ shape present := ⟨shape, get?_add_of_some _ present, rfl, rfl⟩
  counts := ⟨_, get?_add_nextId _, rfl, fun _ => get?_nextId⟩

theorem counted_root (regular : table.Regular) (prototype : Option ObjectId) :
    table.Counted 0 (table.root prototype) := by
  unfold root
  split
  · next id found =>
      obtain ⟨shape, present, empty, shared⟩ :=
        regular.roots prototype id (mem_of_lookup found)
      refine ⟨regular, fun _ known stands => ⟨known, stands, rfl, rfl⟩,
        shape, present, empty, fun unique => ?_⟩
      rw [shared] at unique
      cases unique
  · have added : (table.add ⟨prototype, 0, [], false⟩).2.Regular := regular.add rfl
    refine ⟨⟨fun other id member => ?_, added.transitions⟩,
      fun _ shape present => ⟨shape, get?_add_of_some _ present, rfl, rfl⟩,
      _, get?_add_nextId _, rfl, fun unique => by cases unique⟩
    cases member with
    | head => exact ⟨_, get?_add_nextId _, rfl, rfl⟩
    | tail _ old => exact added.roots other id old

theorem counted_transition
    (regular : table.Regular)
    {source : ShapeId}
    (present : table.get? source = some shape)
    (key : PropertyKey) :
    table.Counted (shape.propertyCount + 1) (table.transition source key) := by
  unfold transition
  rw [present]
  dsimp only [Option.bind_some, bind]
  split
  · next target found =>
      obtain ⟨next, stands, count, shared⟩ :=
        regular.transitions source shape key target present (mem_of_lookup found)
      refine ⟨regular, fun _ known there => ⟨known, there, rfl, rfl⟩,
        next, stands, count, fun unique => ?_⟩
      rw [shared] at unique
      cases unique
  · -- The new shape is added, and the transition to it after that.
    let leaf : Shape := ⟨shape.prototype, shape.propertyCount + 1, [], false⟩
    have added : (table.add leaf).2.Regular := regular.add rfl
    have outgoing := get?_add_of_some leaf present
    have incoming : (table.add leaf).2.get? table.nextId = some leaf := get?_add_nextId leaf
    refine ⟨added.link outgoing incoming rfl rfl, fun id known stands => ?_, ?_⟩
    · obtain ⟨linked, there, counts, unique, _⟩ :=
        recorded_link (get?_add_of_some leaf stands)
      exact ⟨linked, there, counts, unique⟩
    · obtain ⟨linked, there, counts, unique, _⟩ := recorded_link incoming
      refine ⟨linked, there, counts, fun single => ?_⟩
      rw [unique] at single
      cases single

end ShapeTable

/-! ### Heaps -/

namespace Heap

variable {K : Type} {heap after : Heap K}

/-- Shapes count the properties of their objects, and a unique one has one object. -/
structure Shaped (heap : Heap K) : Prop where
  table : heap.shapes.Regular
  counts : ∀ id object, heap.get? id = some object ->
    ∃ shape, heap.shapes.get? object.shape = some shape ∧
      shape.propertyCount = object.properties.size
  alone : ∀ id other object another shape, heap.get? id = some object ->
    heap.get? other = some another -> another.shape = object.shape ->
      heap.shapes.get? object.shape = some shape -> shape.isUnique = true -> other = id

theorem shaped_empty : Shaped ({} : Heap K) where
  table := ShapeTable.regular_empty
  counts _ _ present := by cases present
  alone _ _ _ _ _ present := by cases present

namespace Shaped

variable {count : Nat} {result : ShapeId × ShapeTable} {change : HeapObject K -> HeapObject K}

section

variable (shaped : heap.Shaped)
include shaped

/-- At most one object changes or is new, and it has the shape that was issued for it. -/
theorem issue
    (id : ObjectId)
    (counted : heap.shapes.Counted count result)
    (shapes : after.shapes = result.2)
    (objects : ∀ other object, after.get? other = some object ->
      other = id ∧ object.shape = result.1 ∧ object.properties.size = count ∨
        heap.get? other = some object) :
    after.Shaped := by
  have old : ∀ other object shape, heap.get? other = some object ->
      after.shapes.get? object.shape = some shape ->
        ∃ known, heap.shapes.get? object.shape = some known ∧
          shape.propertyCount = known.propertyCount ∧ shape.isUnique = known.isUnique := by
    intro other object shape live present
    obtain ⟨known, stands, _⟩ := shaped.counts other object live
    obtain ⟨later, there, counts, unique⟩ := counted.kept _ known stands
    rw [shapes, there] at present
    cases present
    exact ⟨known, stands, counts, unique⟩
  have apart : ∀ other object shape, heap.get? other = some object ->
      object.shape = result.1 -> after.shapes.get? object.shape = some shape ->
        shape.isUnique = false := by
    intro other object shape live same present
    obtain ⟨issued, there, _, new⟩ := counted.counts
    rw [same, shapes, there] at present
    cases present
    refine Bool.eq_false_iff.2 fun single => ?_
    obtain ⟨known, stands, _⟩ := shaped.counts other object live
    rw [same, new single] at stands
    cases stands
  refine ⟨shapes ▸ counted.regular, fun other object present => ?_, ?_⟩
  · rcases objects other object present with ⟨_, same, size⟩ | live
    · obtain ⟨issued, there, counts, _⟩ := counted.counts
      exact ⟨issued, by rw [shapes, same, there], counts.trans size.symm⟩
    · obtain ⟨known, stands, counts⟩ := shaped.counts other object live
      obtain ⟨later, there, same, _⟩ := counted.kept _ known stands
      exact ⟨later, by rw [shapes, there], same.trans counts⟩
  · intro first second object another shape present stands same shown single
    rcases objects first object present with ⟨rfl, changed, _⟩ | live
    · rcases objects second another stands with ⟨rfl, _⟩ | lives
      · rfl
      · rw [apart second another shape lives (same.trans changed) (same ▸ shown)] at single
        cases single
    · rcases objects second another stands with ⟨rfl, changed, _⟩ | lives
      · rw [apart first object shape live (same.symm.trans changed) shown] at single
        cases single
      · obtain ⟨known, recorded, _, unique⟩ := old first object shape live shown
        exact shaped.alone first second object another known live lives same recorded
          (unique.symm.trans single)

/-- Objects keep their shapes and their numbers of properties, or disappear. -/
theorem inherit
    (table : after.shapes.Regular)
    (shapes : ∀ id, after.shapes.get? id = heap.shapes.get? id)
    (objects : ∀ id object, after.get? id = some object ->
      ∃ old, heap.get? id = some old ∧ object.shape = old.shape ∧
        object.properties.size = old.properties.size) :
    after.Shaped where
  table := table
  counts id object present := by
    obtain ⟨old, live, shape, size⟩ := objects id object present
    rw [shapes, shape, size]
    exact shaped.counts id old live
  alone id other object another shape present stands same shown single := by
    obtain ⟨old, live, sameShape, _⟩ := objects id object present
    obtain ⟨older, lives, sameOther, _⟩ := objects other another stands
    rw [shapes, sameShape] at shown
    exact shaped.alone id other old older shape live lives
      (sameOther.symm.trans (same.trans sameShape)) shown single

theorem reshape
    {id : ObjectId}
    {object : HeapObject K}
    (live : heap.get? id = some object)
    (counted : heap.shapes.Counted count result)
    (moved : (change object).shape = result.1)
    (sized : (change object).properties.size = count) :
    (({ heap with shapes := result.2 } : Heap K).modify id change).Shaped := by
  refine shaped.issue id counted rfl fun other changed present => ?_
  rw [get?_modify] at present
  split at present
  · next same =>
      subst same
      rw [get?_withShapes, live] at present
      cases present
      exact Or.inl ⟨rfl, moved, sized⟩
  · exact Or.inr present

/-- An object changes but keeps its shape and its number of properties. -/
theorem keep
    (id : ObjectId)
    (stays : ∀ object, (change object).shape = object.shape)
    (sized : ∀ object, (change object).properties.size = object.properties.size) :
    (heap.modify id change).Shaped := by
  refine shaped.inherit shaped.table (fun _ => rfl) fun other changed present => ?_
  rw [get?_modify] at present
  split at present
  · obtain ⟨object, live, rfl⟩ := Option.map_eq_some_iff.1 present
    exact ⟨object, live, stays object, sized object⟩
  · exact ⟨changed, present, rfl, rfl⟩

/-! #### The operations of a heap -/

theorem allocate
    (tidy : heap.Tidy)
    (prototype : Option ObjectId)
    (payload : K) :
    (heap.allocate prototype payload).2.Shaped := by
  refine shaped.issue (heap.allocate prototype payload).1
    (ShapeTable.counted_root shaped.table prototype)
    (heap.shapes_allocate prototype payload) fun other object present => ?_
  rw [tidy.get?_allocate] at present
  split at present
  · next same =>
      cases present
      exact Or.inl ⟨same.symm, rfl, rfl⟩
  · exact Or.inr present

theorem define
    (id : ObjectId)
    (key : PropertyKey)
    (property : Property) :
    (heap.define id key property).Shaped := by
  cases live : heap.get? id with
  | none =>
      rw [define_of_dead heap id key property live]
      exact shaped
  | some object =>
      cases found : object.properties.lookup? key with
      | none =>
          rw [define_append heap id key property live found]
          obtain ⟨shape, stands, counts⟩ := shaped.counts id object live
          refine shaped.reshape live (ShapeTable.counted_transition shaped.table stands key)
            rfl ?_
          rw [PropertyTable.size_append, counts]
      | some entry =>
          cases same : entry.2.sameLayout property with
          | true =>
              rw [define_sameLayout heap id key property live found same]
              exact shaped.keep id (fun _ => rfl) fun changed =>
                changed.properties.size_setAt entry.1 property
          | false =>
              rw [define_otherLayout heap id key property live found same]
              exact shaped.reshape live
                (ShapeTable.counted_unique shaped.table object.prototype _) rfl
                (object.properties.size_setAt entry.1 property)

end

theorem setValueAt (shaped : heap.Shaped) (id : ObjectId) (offset : Nat) (value : Value) :
    (heap.setValueAt id offset value).Shaped := by
  unfold Heap.setValueAt
  refine shaped.keep id ?_ ?_ <;> intro object
  · split <;> rfl
  · split
    · exact object.properties.size_setAt _ _
    · rfl

theorem remove (shaped : heap.Shaped) (id : ObjectId) (key : PropertyKey) :
    (heap.remove id key).Shaped := by
  cases live : heap.get? id with
  | none =>
      rw [remove_of_absent heap id key fun object present => by rw [live] at present; cases present]
      exact shaped
  | some object =>
      cases found : object.properties.offset? key with
      | none =>
          rw [remove_of_absent heap id key fun other present => by
            rw [live] at present
            cases present
            exact found]
          exact shaped
      | some offset =>
          rw [remove_of_present heap id key live found]
          obtain ⟨within, _⟩ := Array.findIdx?_eq_some_iff_getElem.1 found
          exact shaped.reshape live
            (ShapeTable.counted_unique shaped.table object.prototype _) rfl
            (PropertyTable.size_eraseAt within)

theorem setPrototype (shaped : heap.Shaped) (id : ObjectId) (prototype : Option ObjectId) :
    (heap.setPrototype id prototype).Shaped := by
  cases live : heap.get? id with
  | none =>
      rw [setPrototype_of_same heap id prototype fun object present => by
        rw [live] at present
        cases present]
      exact shaped
  | some object =>
      by_cases same : object.prototype = prototype
      · rw [setPrototype_of_same heap id prototype fun other present => by
          rw [live] at present
          cases present
          exact same]
        exact shaped
      · rw [setPrototype_of_other heap id prototype live same]
        exact shaped.reshape live (ShapeTable.counted_unique shaped.table prototype _) rfl rfl

theorem collect (shaped : heap.Shaped) (trace : K -> List ObjectId) (roots : List ObjectId) :
    (heap.collect trace roots).2.Shaped := by
  have shapes : ∀ id, (heap.collect trace roots).2.shapes.get? id = heap.shapes.get? id :=
    get?_shapes_foldl_release (heap.freed trace roots) heap
  refine shaped.inherit (shaped.table.forget shapes fun entry member => ?_) shapes
    fun id object present => ⟨object, heap.get?_collect trace roots present, rfl, rfl⟩
  exact (mem_roots_foldl_release (heap.freed trace roots) member).1

end Shaped

/-! ### Histories -/

/-- A heap that keeps the layouts of its shapes and counts their properties. -/
def Settled (heap : Heap K) : Prop :=
  (∃ layout, heap.Laid layout) ∧ heap.Shaped

theorem Settled.apply
    (settled : heap.Settled)
    (trace : K -> List ObjectId)
    (operation : HeapOperation K) :
    (heap.apply trace operation).Settled := by
  obtain ⟨⟨layout, laid⟩, shaped⟩ := settled
  have later : ∀ {after : Heap K}, (∃ later, heap.Follows layout later after) ->
      ∃ later, after.Laid later :=
    fun ⟨later, follows⟩ => ⟨later, follows.laid⟩
  cases operation with
  | allocate prototype payload =>
      exact ⟨later (laid.allocate prototype payload), shaped.allocate laid.tidy prototype payload⟩
  | define id key property =>
      exact ⟨later (laid.define id key property), shaped.define id key property⟩
  | setValueAt id offset value =>
      exact ⟨⟨layout, (laid.setValueAt id offset value).laid⟩, shaped.setValueAt id offset value⟩
  | remove id key => exact ⟨later (laid.remove id key), shaped.remove id key⟩
  | setPrototype id prototype =>
      exact ⟨later (laid.setPrototype id prototype), shaped.setPrototype id prototype⟩
  | preventExtensions id =>
      exact ⟨⟨layout, (laid.preventExtensions id).laid⟩,
        shaped.keep id (fun _ => rfl) fun _ => rfl⟩
  | modifyPayload id change =>
      exact ⟨⟨layout, (laid.modifyPayload id change).laid⟩,
        shaped.keep id (fun _ => rfl) fun _ => rfl⟩
  | collect roots =>
      exact ⟨⟨layout, (laid.collect trace roots).laid⟩, shaped.collect trace roots⟩

/-- What the shapes of a heap tell about its objects. -/
structure ShapesTell (heap : Heap K) : Prop where
  /-- Objects of one shape have one prototype, and the same keys at the same offsets. -/
  layout : ∀ id other object another, heap.get? id = some object ->
    heap.get? other = some another -> object.shape = another.shape ->
      object.prototype = another.prototype ∧
        object.properties.keys = another.properties.keys
  /-- A shape records the prototype and the number of properties of its objects. -/
  recorded : ∀ id object, heap.get? id = some object ->
    ∃ shape, heap.shapes.get? object.shape = some shape ∧
      shape.prototype = object.prototype ∧ shape.propertyCount = object.properties.size
  /-- An object of a unique shape is the only one. -/
  unique : ∀ id other object another shape, heap.get? id = some object ->
    heap.get? other = some another -> another.shape = object.shape ->
      heap.shapes.get? object.shape = some shape -> shape.isUnique = true -> other = id

theorem Settled.shapesTell (settled : heap.Settled) : heap.ShapesTell := by
  obtain ⟨⟨layout, laid⟩, shaped⟩ := settled
  refine ⟨fun id other object another live lives same => ?_, fun id object live => ?_,
    shaped.alone⟩
  · have first := laid.objects id object live
    have second := laid.objects other another lives
    obtain ⟨shape, stands, prototype⟩ := first.prototype
    obtain ⟨known, there, prototypeOther⟩ := second.prototype
    rw [same, there] at stands
    cases stands
    exact ⟨prototype.symm.trans prototypeOther,
      first.keys.trans ((congrArg layout same).trans second.keys.symm)⟩
  · obtain ⟨shape, stands, prototype⟩ := (laid.objects id object live).prototype
    obtain ⟨known, there, counts⟩ := shaped.counts id object live
    cases stands.symm.trans there
    exact ⟨shape, stands, prototype, counts⟩

/-- After every history of a heap, a shape determines a prototype and a layout. -/
theorem shapes_tell_after
    (trace : K -> List ObjectId)
    (history : List (HeapOperation K)) :
    (({} : Heap K).after trace history).ShapesTell := by
  have start : ({} : Heap K).Settled := ⟨⟨fun _ => [], laid_empty _⟩, shaped_empty⟩
  exact (holds_after start (fun _ operation settled => settled.apply trace operation)
    history).shapesTell

end Heap
end ScriptVM

import ScriptVM.Heap.Collect

/-!
# Objects under the heap operations

What each operation of the heap leaves at each handle. Every operation but
allocation and collection changes at most the object it names, and none of these
changes its internal slots.
-/

namespace ScriptVM

namespace ObjectId

theorem ext_index {left right : ObjectId} (same : left.index = right.index) :
    left = right := by
  cases left
  cases right
  cases same
  rfl

end ObjectId

namespace Heap

variable {K : Type} (heap : Heap K) {id : ObjectId} {object : HeapObject K} {offset : Nat}
variable {existing : Property} (prototype : Option ObjectId)

/-! ## Changes in place -/

theorem get?_modify (id other : ObjectId) (change : HeapObject K -> HeapObject K) :
    (heap.modify id change).get? other =
      if id = other then (heap.get? other).map change else heap.get? other := by
  unfold modify get?
  simp only [Array.getElem?_modify]
  by_cases same : id = other
  · subst same
    simp only [if_true]
    cases heap.objects[id.index]? with
    | none => rfl
    | some object => rfl
  · have distinct : id.index ≠ other.index := fun equal =>
      same (ObjectId.ext_index equal)
    simp [same, distinct]

@[simp] theorem get?_modify_self (id : ObjectId) (change : HeapObject K -> HeapObject K) :
    (heap.modify id change).get? id = (heap.get? id).map change := by
  simp [get?_modify]

theorem get?_modify_of_ne
    {id other : ObjectId}
    (distinct : id ≠ other)
    (change : HeapObject K -> HeapObject K) :
    (heap.modify id change).get? other = heap.get? other := by
  simp [get?_modify, distinct]

/-- Changes that do the same to an object in place give the same heap. -/
theorem modify_congr
    {heap : Heap K}
    {change other : HeapObject K -> HeapObject K}
    (live : heap.get? id = some object)
    (same : change object = other object) :
    heap.modify id change = heap.modify id other := by
  have objects : heap.objects.modify id.index (Option.map change) =
      heap.objects.modify id.index (Option.map other) := by
    refine Array.ext_getElem? fun index => ?_
    rw [Array.getElem?_modify, Array.getElem?_modify]
    split
    · next here =>
        subst here
        unfold get? at live
        rw [Option.join_eq_some_iff.1 live]
        exact congrArg (fun changed => some (some changed)) same
    · rfl
  unfold modify
  rw [objects]

@[simp] theorem get?_withShapes (shapes : ShapeTable) (id : ObjectId) :
    { heap with shapes }.get? id = heap.get? id := rfl

@[simp] theorem free_modify (id : ObjectId) (change : HeapObject K -> HeapObject K) :
    (heap.modify id change).free = heap.free := rfl

@[simp] theorem size_modify (id : ObjectId) (change : HeapObject K -> HeapObject K) :
    (heap.modify id change).objects.size = heap.objects.size :=
  Array.size_modify

/-- A change in place that keeps the internal slots shows in no payload. -/
theorem payload?_modify_of_payload_eq
    (id other : ObjectId)
    (change : HeapObject K -> HeapObject K)
    (keeps : ∀ object, (change object).payload = object.payload) :
    (heap.modify id change).payload? other = heap.payload? other := by
  unfold payload?
  rw [get?_modify]
  by_cases same : id = other
  · rw [if_pos same]
    cases heap.get? other with
    | none => rfl
    | some object => simp [keeps]
  · rw [if_neg same]

/-! ## Internal slots -/

theorem payload?_modifyPayload (id other : ObjectId) (change : K -> K) :
    (heap.modifyPayload id change).payload? other =
      if id = other then (heap.payload? other).map change else heap.payload? other := by
  unfold modifyPayload payload?
  rw [get?_modify]
  by_cases same : id = other
  · rw [if_pos same, if_pos same]
    cases heap.get? other with
    | none => rfl
    | some object => rfl
  · rw [if_neg same, if_neg same]

theorem payload?_setValueAt (id other : ObjectId) (offset : Nat) (value : Value) :
    (heap.setValueAt id offset value).payload? other = heap.payload? other := by
  unfold setValueAt
  refine payload?_modify_of_payload_eq _ _ _ _ fun object => ?_
  split <;> rfl

theorem payload?_preventExtensions (id other : ObjectId) :
    (heap.preventExtensions id).payload? other = heap.payload? other := by
  unfold preventExtensions
  exact payload?_modify_of_payload_eq _ _ _ _ fun _ => rfl

/-! ## The cases of a definition -/

theorem define_of_dead
    (id : ObjectId)
    (key : PropertyKey)
    (property : Property)
    (dead : heap.get? id = none) :
    heap.define id key property = heap := by
  simp [define, dead]

/-- Replacing a property by one of the same layout keeps the shape. -/
theorem define_sameLayout
    (id : ObjectId)
    (key : PropertyKey)
    (property : Property)
    (live : heap.get? id = some object)
    (found : object.properties.lookup? key = some (offset, existing))
    (same : existing.sameLayout property = true) :
    heap.define id key property =
      heap.modify id fun object =>
        { object with properties := object.properties.setAt offset property } := by
  simp [define, live, found, same]

/-- Replacing a property by one of another layout moves the object to a shape of
its own. -/
theorem define_otherLayout
    (id : ObjectId)
    (key : PropertyKey)
    (property : Property)
    (live : heap.get? id = some object)
    (found : object.properties.lookup? key = some (offset, existing))
    (other : existing.sameLayout property = false) :
    heap.define id key property =
      ({ heap with
        shapes := (heap.shapes.unique object.prototype object.properties.size).2 }
          : Heap K).modify id fun changed =>
        { changed with
          shape := (heap.shapes.unique object.prototype object.properties.size).1
          properties := changed.properties.setAt offset property } := by
  simp [define, live, found, other]

/-- Appending a key follows the transition tree. -/
theorem define_append
    (id : ObjectId)
    (key : PropertyKey)
    (property : Property)
    (live : heap.get? id = some object)
    (missing : object.properties.lookup? key = none) :
    heap.define id key property =
      ({ heap with shapes := (heap.shapes.transition object.shape key).2 }
          : Heap K).modify id fun changed =>
        { changed with
          shape := (heap.shapes.transition object.shape key).1
          properties := changed.properties.append key property } := by
  simp [define, live, missing]

theorem payload?_define (id other : ObjectId) (key : PropertyKey) (property : Property) :
    (heap.define id key property).payload? other = heap.payload? other := by
  cases live : heap.get? id with
  | none => rw [define_of_dead heap id key property live]
  | some object =>
      cases found : object.properties.lookup? key with
      | none =>
          rw [define_append heap id key property live found]
          exact payload?_modify_of_payload_eq _ _ _ _ fun _ => rfl
      | some entry =>
          cases same : entry.2.sameLayout property with
          | true =>
              rw [define_sameLayout heap id key property live found same]
              exact payload?_modify_of_payload_eq _ _ _ _ fun _ => rfl
          | false =>
              rw [define_otherLayout heap id key property live found same]
              exact payload?_modify_of_payload_eq _ _ _ _ fun _ => rfl

/-! ## The cases of a removal and of a new prototype -/

theorem remove_of_absent
    (id : ObjectId)
    (key : PropertyKey)
    (absent : ∀ object, heap.get? id = some object ->
      object.properties.offset? key = none) :
    heap.remove id key = heap := by
  cases live : heap.get? id with
  | none => simp [remove, live]
  | some object => simp [remove, live, absent object live]

/-- Removing a property moves the object to a shape of its own. -/
theorem remove_of_present
    (id : ObjectId)
    (key : PropertyKey)
    (live : heap.get? id = some object)
    (found : object.properties.offset? key = some offset) :
    heap.remove id key =
      ({ heap with
        shapes := (heap.shapes.unique object.prototype (object.properties.size - 1)).2 }
          : Heap K).modify id fun changed =>
        { changed with
          shape := (heap.shapes.unique object.prototype (object.properties.size - 1)).1
          properties := changed.properties.eraseAt offset } := by
  simp [remove, live, found]

theorem payload?_remove (id other : ObjectId) (key : PropertyKey) :
    (heap.remove id key).payload? other = heap.payload? other := by
  cases live : heap.get? id with
  | none => simp [remove, live]
  | some object =>
      cases found : object.properties.offset? key with
      | none => simp [remove, live, found]
      | some offset =>
          rw [remove_of_present heap id key live found]
          exact payload?_modify_of_payload_eq _ _ _ _ fun _ => rfl

theorem setPrototype_of_same
    (id : ObjectId)
    (prototype : Option ObjectId)
    (same : ∀ object, heap.get? id = some object -> object.prototype = prototype) :
    heap.setPrototype id prototype = heap := by
  cases live : heap.get? id with
  | none => simp [setPrototype, live]
  | some object => simp [setPrototype, live, same object live]

/-- A new prototype moves the object to a shape of its own. -/
theorem setPrototype_of_other
    (id : ObjectId)
    (prototype : Option ObjectId)
    (live : heap.get? id = some object)
    (other : object.prototype ≠ prototype) :
    heap.setPrototype id prototype =
      ({ heap with shapes := (heap.shapes.unique prototype object.properties.size).2 }
          : Heap K).modify id fun changed =>
        { changed with
          shape := (heap.shapes.unique prototype object.properties.size).1
          prototype } := by
  simp [setPrototype, live, other]

theorem payload?_setPrototype (id other : ObjectId) (prototype : Option ObjectId) :
    (heap.setPrototype id prototype).payload? other = heap.payload? other := by
  cases live : heap.get? id with
  | none => simp [setPrototype, live]
  | some object =>
      by_cases same : object.prototype = prototype
      · simp [setPrototype, live, same]
      · rw [setPrototype_of_other heap id prototype live same]
        exact payload?_modify_of_payload_eq _ _ _ _ fun _ => rfl

/-! ## Allocation -/

/-- The object that an allocation makes. -/
def fresh
    (heap : Heap K)
    (prototype : Option ObjectId)
    (payload : K) : HeapObject K :=
  { shape := (heap.shapes.root prototype).1, prototype, payload }

@[simp] theorem shapes_allocate (prototype : Option ObjectId) (payload : K) :
    (heap.allocate prototype payload).2.shapes = (heap.shapes.root prototype).2 := by
  unfold allocate
  cases heap.free with
  | nil => rfl
  | cons index free => rfl

/-- Allocation leaves all other handles alone. -/
theorem get?_allocate_of_ne
    (payload : K)
    {other : ObjectId}
    (distinct : (heap.allocate prototype payload).1 ≠ other) :
    (heap.allocate prototype payload).2.get? other = heap.get? other := by
  revert distinct
  unfold allocate get?
  cases heap.free with
  | nil =>
      intro distinct
      have apart : other.index ≠ heap.objects.size := fun equal =>
        distinct (ObjectId.ext_index equal.symm)
      simp [Array.getElem?_push, apart]
  | cons index free =>
      intro distinct
      have apart : index ≠ other.index := fun equal =>
        distinct (ObjectId.ext_index equal)
      simp [apart]

/-- What is allocated stands behind its handle, unless the free list was out of
range. -/
theorem get?_allocate_self (prototype : Option ObjectId) (payload : K) :
    (heap.allocate prototype payload).2.get? (heap.allocate prototype payload).1 =
        some (heap.fresh prototype payload) ∨
      (heap.allocate prototype payload).2.get? (heap.allocate prototype payload).1 =
        none := by
  unfold allocate get? fresh
  cases heap.free with
  | nil =>
      left
      simp
  | cons index free =>
      by_cases bound : index < heap.objects.size
      · left
        simp [bound]
      · right
        simp [bound]

theorem size_allocate (prototype : Option ObjectId) (payload : K) :
    heap.objects.size <= (heap.allocate prototype payload).2.objects.size := by
  unfold allocate
  cases heap.free with
  | nil => exact Array.size_push _ ▸ Nat.le_succ _
  | cons index free => exact Nat.le_of_eq Array.size_setIfInBounds.symm

theorem payload?_allocate
    (payload : K)
    {found : K}
    (present : (heap.allocate prototype payload).2.payload? id = some found) :
    found = payload ∨ heap.payload? id = some found := by
  unfold payload? at present ⊢
  by_cases same : (heap.allocate prototype payload).1 = id
  · left
    subst same
    rcases get?_allocate_self heap prototype payload with made | missing
    · rw [made] at present
      exact (Option.some.inj present).symm
    · rw [missing] at present
      cases present
  · right
    rwa [get?_allocate_of_ne heap prototype payload same] at present

/-! ## Collection -/

theorem get?_release (id other : ObjectId) :
    (heap.release id).get? other = if id = other then none else heap.get? other := by
  unfold release get?
  simp only [Array.getElem?_setIfInBounds]
  by_cases same : id = other
  · subst same
    by_cases bound : id.index < heap.objects.size
    · simp [bound]
    · simp [bound]
  · have distinct : id.index ≠ other.index := fun equal =>
      same (ObjectId.ext_index equal)
    simp [same, distinct]

/-- Releasing handles takes away their objects and leaves the others alone. -/
theorem get?_foldl_release (freed : List ObjectId) (heap : Heap K) (id : ObjectId) :
    (freed.foldl release heap).get? id =
      if id ∈ freed then none else heap.get? id := by
  induction freed generalizing heap with
  | nil => simp
  | cons first rest step =>
      rw [List.foldl_cons, step, get?_release]
      by_cases later : id ∈ rest
      · simp [later]
      · by_cases same : first = id
        · simp [same]
        · have apart : id ≠ first := fun equal => same equal.symm
          simp [later, same, apart]

theorem size_collect (trace : K -> List ObjectId) (roots : List ObjectId) :
    (heap.collect trace roots).2.objects.size = heap.objects.size := by
  have released : ∀ (freed : List ObjectId) (heap : Heap K),
      (freed.foldl release heap).objects.size = heap.objects.size := by
    intro freed
    induction freed with
    | nil => exact fun _ => rfl
    | cons id rest step => exact fun heap => (step _).trans Array.size_setIfInBounds
  exact released _ heap

/-- An object that survives a collection is unchanged. -/
theorem get?_collect
    (trace : K -> List ObjectId)
    (roots : List ObjectId)
    (survives : (heap.collect trace roots).2.get? id = some object) :
    heap.get? id = some object := by
  have stats_irrelevant :
      (heap.collect trace roots).2.get? id =
        ((heap.unmarked (heap.mark trace (Array.replicate heap.objects.size false)
          roots)).foldl release heap).get? id := rfl
  rw [stats_irrelevant, get?_foldl_release] at survives
  split at survives
  · cases survives
  · exact survives

end Heap
end ScriptVM

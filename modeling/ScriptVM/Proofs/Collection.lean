import ScriptVM.Proofs.FreeLists
import ScriptVM.Proofs.Layouts
import ScriptVM.Proofs.Transition

/-!
# Laid out heaps and what a collection keeps

A heap is laid out when its objects have the keys and the prototypes of their shapes.
Every change of a heap keeps it so under a layout that agrees with the old one on all
shapes that were there. A collection takes nothing away that an object left behind, or
one yet to be made, could have as prototype.

Marking ends only when everything that a marked object refers to is marked, so the
prototype of an object that survives a collection survives too. The empty shapes of
prototypes that do not survive are forgotten. Together, no shape that is still in use
has a prototype that the collection took away.
-/

namespace ScriptVM

variable {K : Type}

/-- An object has the keys and the prototype of its shape. -/
structure HeapObject.Laid
    (layout : Layout)
    (table : ShapeTable)
    (object : HeapObject K) : Prop where
  keys : object.properties.keys = layout object.shape
  distinct : object.properties.keys.Nodup
  prototype : ∃ shape, table.get? object.shape = some shape ∧
    shape.prototype = object.prototype

namespace Heap

/-- Some object has the shape. -/
def HasShape
    (heap : Heap K)
    (shape : ShapeId) : Prop :=
  ∃ id object, heap.get? id = some object ∧ object.shape = shape

/-- An object has the shape, or can come to it by appending keys. -/
def Usable
    (heap : Heap K)
    (shape : ShapeId) : Prop :=
  heap.shapes.Usable heap.HasShape shape

/-- The objects of a heap follow a layout, and handles to be given out again are dead. -/
structure Laid
    (layout : Layout)
    (heap : Heap K) : Prop where
  table : heap.shapes.Laid layout
  objects : ∀ id object, heap.get? id = some object -> object.Laid layout heap.shapes
  tidy : heap.Tidy

/-- A later heap under a later layout. What the old shapes stand for stays, none of them
comes into use again, and the prototype of one that is in use lives on. -/
structure Follows
    (layout later : Layout)
    (before after : Heap K) : Prop where
  laid : after.Laid later
  agrees : ∀ id shape, before.shapes.get? id = some shape -> later id = layout id
  prototypes : ∀ id shape, before.shapes.get? id = some shape ->
    ∃ next, after.shapes.get? id = some next ∧ next.prototype = shape.prototype
  usable : ∀ id shape, before.shapes.get? id = some shape -> after.Usable id ->
    before.Usable id
  stays : ∀ id shape holder, before.shapes.get? id = some shape ->
    shape.prototype = some holder -> after.Usable id -> before.contains holder = true ->
      after.contains holder = true

theorem laid_empty (layout : Layout) : Laid layout ({} : Heap K) where
  table := ⟨fun _ _ member => (by cases member), fun _ _ _ _ present => (by cases present)⟩
  objects _ _ present := by cases present
  tidy := tidy_empty

variable {layout : Layout} {heap : Heap K} {id : ObjectId} {object : HeapObject K}
variable {change : HeapObject K -> HeapObject K}

theorem Laid.usable (live : heap.get? id = some object) : heap.Usable object.shape :=
  .used ⟨id, object, live, rfl⟩

/-- What the old shapes are in use for, after a table grew. -/
theorem usable_of_grows
    {before after : Heap K}
    (grows : before.shapes.Grows after.shapes)
    (earlier : ∀ shape, after.HasShape shape ->
      before.shapes.Available before.HasShape shape)
    {id : ShapeId}
    {shape : Shape}
    (present : before.shapes.get? id = some shape)
    (usable : after.Usable id) :
    before.Usable id := by
  rcases grows.available earlier usable with absent | old
  · rw [absent] at present
    cases present
  · exact old

/-! ## Changes in place -/

/-- An object moves to a shape that was issued for it. -/
theorem Laid.reshape
    (laid : heap.Laid layout)
    (live : heap.get? id = some object)
    {later : Layout}
    {prototype : Option ObjectId}
    {keys : List PropertyKey}
    {result : ShapeId × ShapeTable}
    (issued : ShapeTable.Issued layout later heap.HasShape heap.shapes prototype keys result)
    (distinct : keys.Nodup)
    (shaped : (change object).shape = result.1)
    (linked : (change object).prototype = prototype)
    (keyed : (change object).properties.keys = keys) :
    heap.Follows layout later (({ heap with shapes := result.2 } : Heap K).modify id change) where
  laid :=
    { table := issued.laid
      objects := by
        intro other changed present
        rw [get?_modify] at present
        split at present
        · next same =>
            subst same
            rw [get?_withShapes, live] at present
            cases present
            refine ⟨?_, ?_, ?_⟩
            · rw [keyed, shaped, issued.keys]
            · rwa [keyed]
            · rw [shaped, linked]
              exact issued.prototype
        · have old := laid.objects other changed present
          obtain ⟨shape, stands, same⟩ := old.prototype
          obtain ⟨next, there, kept, _⟩ := issued.grows.kept _ shape stands
          refine ⟨?_, old.distinct, next, there, kept.trans same⟩
          rw [old.keys, issued.agrees _ shape stands]
      tidy := (laid.tidy.withShapes result.2).modify id change }
  agrees := issued.agrees
  prototypes other shape present := by
    obtain ⟨next, there, kept, _⟩ := issued.grows.kept other shape present
    exact ⟨next, there, kept⟩
  usable other shape present := by
    refine usable_of_grows issued.grows ?_ present
    rintro used ⟨place, changed, stands, rfl⟩
    rw [get?_modify] at stands
    split at stands
    · next same =>
        subst same
        rw [get?_withShapes, live] at stands
        cases stands
        rw [shaped]
        exact issued.available
    · exact Or.inr (.used ⟨place, changed, stands, rfl⟩)
  stays _ _ holder _ _ _ alive := by
    unfold contains at alive ⊢
    rw [get?_modify, get?_withShapes]
    split
    · rwa [Option.isSome_map]
    · exact alive

/-- An object changes but keeps its shape, its prototype and its keys. -/
theorem Laid.keep
    (laid : heap.Laid layout)
    (id : ObjectId)
    (shaped : ∀ object, (change object).shape = object.shape)
    (linked : ∀ object, (change object).prototype = object.prototype)
    (keyed : ∀ object, (change object).properties.keys = object.properties.keys) :
    heap.Follows layout layout (heap.modify id change) := by
  have objects : ∀ other changed, (heap.modify id change).get? other = some changed ->
      ∃ object, heap.get? other = some object ∧ changed.shape = object.shape ∧
        changed.prototype = object.prototype ∧
          changed.properties.keys = object.properties.keys := by
    intro other changed present
    rw [get?_modify] at present
    split at present
    · obtain ⟨object, live, rfl⟩ := Option.map_eq_some_iff.1 present
      exact ⟨object, live, shaped object, linked object, keyed object⟩
    · exact ⟨changed, present, rfl, rfl, rfl⟩
  refine ⟨⟨laid.table, ?_, laid.tidy.modify id change⟩, fun _ _ _ => rfl,
    fun _ shape present => ⟨shape, present, rfl⟩, fun other shape present => ?_, ?_⟩
  · intro other changed present
    obtain ⟨object, live, shape, prototype, keys⟩ := objects other changed present
    have old := laid.objects other object live
    refine ⟨?_, ?_, ?_⟩
    · rw [keys, shape, old.keys]
    · rw [keys]
      exact old.distinct
    · rw [shape, prototype]
      exact old.prototype
  · have grows : heap.shapes.Grows (heap.modify id change).shapes := .refl heap.shapes
    refine usable_of_grows grows ?_ present
    rintro used ⟨place, changed, stands, rfl⟩
    obtain ⟨object, live, shape, _⟩ := objects place changed stands
    exact Or.inr (.used ⟨place, object, live, shape.symm⟩)
  · intro _ _ holder _ _ _ alive
    unfold contains at alive ⊢
    rw [get?_modify]
    split
    · rwa [Option.isSome_map]
    · exact alive

theorem Laid.refl (laid : heap.Laid layout) : heap.Follows layout layout heap where
  laid := laid
  agrees _ _ _ := rfl
  prototypes _ shape present := ⟨shape, present, rfl⟩
  usable _ _ _ usable := usable
  stays _ _ _ _ _ _ alive := alive

/-! ## The operations of a heap -/

theorem Laid.define
    (laid : heap.Laid layout)
    (id : ObjectId)
    (key : PropertyKey)
    (property : Property) :
    ∃ later, heap.Follows layout later (heap.define id key property) := by
  cases live : heap.get? id with
  | none =>
      rw [define_of_dead heap id key property live]
      exact ⟨layout, laid.refl⟩
  | some object =>
      have old := laid.objects id object live
      cases found : object.properties.lookup? key with
      | none =>
          rw [define_append heap id key property live found]
          obtain ⟨shape, stands, same⟩ := old.prototype
          obtain ⟨later, issued⟩ :=
            ShapeTable.issued_transition laid.table stands (Laid.usable live) key
          have absent := PropertyTable.lookup?_eq_none_iff.1 found
          refine ⟨later, laid.reshape live issued ?_ rfl same.symm ?_⟩
          · rw [← old.keys]
            exact List.nodup_append.2 ⟨old.distinct, List.nodup_singleton key, by
              intro known member other new
              cases List.mem_singleton.1 new
              exact fun equal => absent (equal ▸ member)⟩
          · rw [PropertyTable.keys_append, old.keys]
      | some entry =>
          cases same : entry.2.sameLayout property with
          | true =>
              rw [define_sameLayout heap id key property live found same]
              exact ⟨layout, laid.keep id (fun _ => rfl) (fun _ => rfl) fun changed =>
                changed.properties.keys_setAt property entry.1⟩
          | false =>
              rw [define_otherLayout heap id key property live found same]
              obtain ⟨later, issued⟩ := ShapeTable.issued_unique laid.table object.prototype
                object.properties.size object.properties.keys
              exact ⟨later, laid.reshape live issued old.distinct rfl rfl
                (object.properties.keys_setAt property entry.1)⟩

theorem Laid.setValueAt
    (laid : heap.Laid layout)
    (id : ObjectId)
    (offset : Nat)
    (value : Value) :
    heap.Follows layout layout (heap.setValueAt id offset value) := by
  unfold Heap.setValueAt
  refine laid.keep id ?_ ?_ ?_ <;> intro object
  · split <;> rfl
  · split <;> rfl
  · split
    · exact object.properties.keys_setAt _ _
    · rfl

theorem Laid.remove (laid : heap.Laid layout) (id : ObjectId) (key : PropertyKey) :
    ∃ later, heap.Follows layout later (heap.remove id key) := by
  cases live : heap.get? id with
  | none =>
      rw [remove_of_absent heap id key fun object present => by rw [live] at present; cases present]
      exact ⟨layout, laid.refl⟩
  | some object =>
      have old := laid.objects id object live
      cases found : object.properties.offset? key with
      | none =>
          rw [remove_of_absent heap id key fun other present => by
            rw [live] at present
            cases present
            exact found]
          exact ⟨layout, laid.refl⟩
      | some offset =>
          rw [remove_of_present heap id key live found]
          obtain ⟨later, issued⟩ := ShapeTable.issued_unique laid.table object.prototype
            (object.properties.size - 1) (object.properties.keys.eraseIdx offset)
          exact ⟨later, laid.reshape live issued (old.distinct.eraseIdx offset) rfl rfl
            (object.properties.keys_eraseAt offset)⟩

theorem Laid.setPrototype
    (laid : heap.Laid layout)
    (id : ObjectId)
    (prototype : Option ObjectId) :
    ∃ later, heap.Follows layout later (heap.setPrototype id prototype) := by
  cases live : heap.get? id with
  | none =>
      rw [setPrototype_of_same heap id prototype fun object present => by
        rw [live] at present
        cases present]
      exact ⟨layout, laid.refl⟩
  | some object =>
      have old := laid.objects id object live
      by_cases same : object.prototype = prototype
      · rw [setPrototype_of_same heap id prototype fun other present => by
          rw [live] at present
          cases present
          exact same]
        exact ⟨layout, laid.refl⟩
      · rw [setPrototype_of_other heap id prototype live same]
        obtain ⟨later, issued⟩ := ShapeTable.issued_unique laid.table prototype
          object.properties.size object.properties.keys
        exact ⟨later, laid.reshape live issued old.distinct rfl rfl rfl⟩

theorem Laid.preventExtensions (laid : heap.Laid layout) (id : ObjectId) :
    heap.Follows layout layout (heap.preventExtensions id) :=
  laid.keep id (fun _ => rfl) (fun _ => rfl) fun _ => rfl

theorem Laid.modifyPayload (laid : heap.Laid layout) (id : ObjectId) (change : K -> K) :
    heap.Follows layout layout (heap.modifyPayload id change) :=
  laid.keep id (fun _ => rfl) (fun _ => rfl) fun _ => rfl

/-! ## Allocation -/

theorem Laid.allocate (laid : heap.Laid layout) (prototype : Option ObjectId) (payload : K) :
    ∃ later, heap.Follows layout later (heap.allocate prototype payload).2 := by
  obtain ⟨later, issued⟩ : ∃ later, ShapeTable.Issued layout later heap.HasShape heap.shapes
      prototype [] (heap.shapes.root prototype) :=
    ShapeTable.issued_root laid.table prototype
  have dead := laid.tidy.allocated_dead prototype payload
  have objects : ∀ other object,
      (heap.allocate prototype payload).2.get? other = some object ->
        object = heap.fresh prototype payload ∨ heap.get? other = some object := by
    intro other object present
    rw [laid.tidy.get?_allocate] at present
    split at present
    · exact Or.inl (Option.some.inj present).symm
    · exact Or.inr present
  have grows : heap.shapes.Grows (heap.allocate prototype payload).2.shapes := by
    rw [shapes_allocate]
    exact issued.grows
  refine ⟨later, ⟨?_, ?_, laid.tidy.allocate prototype payload⟩, issued.agrees, ?_, ?_, ?_⟩
  · rw [shapes_allocate]
    exact issued.laid
  · intro other object present
    rcases objects other object present with rfl | live
    · refine ⟨issued.keys.symm, List.nodup_nil, ?_⟩
      rw [shapes_allocate]
      exact issued.prototype
    · have old := laid.objects other object live
      obtain ⟨shape, stands, same⟩ := old.prototype
      obtain ⟨next, there, kept, _⟩ := grows.kept _ shape stands
      refine ⟨?_, old.distinct, next, there, kept.trans same⟩
      rw [old.keys, issued.agrees _ shape stands]
  · intro other shape present
    obtain ⟨next, there, kept, _⟩ := grows.kept other shape present
    exact ⟨next, there, kept⟩
  · intro other shape present
    refine usable_of_grows grows ?_ present
    rintro used ⟨place, object, stands, rfl⟩
    rcases objects place object stands with rfl | live
    · exact issued.available
    · exact Or.inr (.used ⟨place, object, live, rfl⟩)
  · intro _ _ holder _ _ _ alive
    unfold contains at alive ⊢
    by_cases same : (heap.allocate prototype payload).1 = holder
    · rw [← same, dead] at alive
      cases alive
    · rwa [get?_allocate_of_ne heap prototype payload same]

end Heap

/-- A change of a heap keeps it laid out. -/
theorem HeapChange.follows
    {origins : Origins}
    {before after : Heap ObjectKind}
    (change : HeapChange origins before after)
    {layout : Layout}
    (laid : before.Laid layout) :
    ∃ later, before.Follows layout later after := by
  cases change with
  | allocate prototype kind => exact laid.allocate prototype kind
  | define id key property => exact laid.define id key property
  | setValueAt id offset value => exact ⟨layout, laid.setValueAt id offset value⟩
  | remove id key => exact laid.remove id key
  | setPrototype id prototype => exact laid.setPrototype id prototype
  | preventExtensions id => exact ⟨layout, laid.preventExtensions id⟩
  | modifyPayload id change => exact ⟨layout, laid.modifyPayload id change⟩

namespace Heap

variable {K : Type}

/-! ## Marking -/

theorem size_mark
    (heap : Heap K)
    (trace : K -> List ObjectId)
    (marks : Array Bool)
    (pending : List ObjectId) :
    (heap.mark trace marks pending).size = marks.size := by
  induction marks, pending using mark.induct heap trace with
  | case1 marks => rw [mark]
  | case2 marks id pending bound unmarked dead step =>
      rw [mark, dif_pos bound, dif_pos unmarked, dead]
      exact step
  | case3 marks id pending bound unmarked object live step =>
      rw [mark, dif_pos bound, dif_pos unmarked, live]
      exact step.trans (Array.size_set bound)
  | case4 marks id pending bound marked step =>
      rw [mark, dif_pos bound, dif_neg marked]
      exact step
  | case5 marks id pending outside step =>
      rw [mark, dif_neg outside]
      exact step

/-- Marks stay, and everything alive that is pending gets one. -/
theorem marked_of_pending
    (heap : Heap K)
    (trace : K -> List ObjectId)
    (marks : Array Bool)
    (pending : List ObjectId)
    (size : marks.size = heap.objects.size)
    (id : ObjectId)
    (due : marks[id.index]? = some true ∨ id ∈ pending ∧ heap.contains id = true) :
    (heap.mark trace marks pending)[id.index]? = some true := by
  induction marks, pending using mark.induct heap trace with
  | case1 marks =>
      rw [mark]
      exact due.elim (fun marked => marked) fun waiting => by cases waiting.1
  | case2 marks other pending bound unmarked dead step =>
      rw [mark, dif_pos bound, dif_pos unmarked, dead]
      refine step size (due.imp_right fun ⟨member, alive⟩ => ⟨?_, alive⟩)
      refine (List.mem_cons.1 member).resolve_left fun same => ?_
      subst same
      unfold contains at alive
      rw [dead] at alive
      cases alive
  | case3 marks other pending bound unmarked object live step =>
      rw [mark, dif_pos bound, dif_pos unmarked, live]
      refine step ((Array.size_set bound).trans size) ?_
      rw [Array.getElem?_set]
      split
      · exact Or.inl rfl
      · next apart =>
          refine due.imp_right fun ⟨member, alive⟩ => ⟨List.mem_append_right _ ?_, alive⟩
          exact (List.mem_cons.1 member).resolve_left fun same => apart (same ▸ rfl)
  | case4 marks other pending bound marked step =>
      rw [mark, dif_pos bound, dif_neg marked]
      refine step size ?_
      rcases due with done | ⟨member, alive⟩
      · exact Or.inl done
      · rcases List.mem_cons.1 member with same | later
        · subst same
          exact Or.inl (by rw [Array.getElem?_eq_getElem bound, eq_true_of_ne_false marked])
        · exact Or.inr ⟨later, alive⟩
  | case5 marks other pending outside step =>
      rw [mark, dif_neg outside]
      refine step size (due.imp_right fun ⟨member, alive⟩ => ⟨?_, alive⟩)
      refine (List.mem_cons.1 member).resolve_left fun same => ?_
      subst same
      obtain ⟨object, present⟩ := contains_iff.1 alive
      exact outside (size ▸ index_lt_of_get? present)

/-- Whatever a marked object refers to is marked, dead or pending. -/
def MarkedBut
    (heap : Heap K)
    (trace : K -> List ObjectId)
    (marks : Array Bool)
    (pending : List ObjectId) : Prop :=
  ∀ id object, marks[id.index]? = some true -> heap.get? id = some object ->
    ∀ referred ∈ references trace object, heap.contains referred = true ->
      marks[referred.index]? = some true ∨ referred ∈ pending

/-- Nothing is pending when marking ends. -/
theorem mark_closed
    (heap : Heap K)
    (trace : K -> List ObjectId)
    (marks : Array Bool)
    (pending : List ObjectId)
    (size : marks.size = heap.objects.size)
    (start : heap.MarkedBut trace marks pending) :
    heap.MarkedBut trace (heap.mark trace marks pending) [] := by
  induction marks, pending using mark.induct heap trace with
  | case1 marks =>
      rw [mark]
      exact start
  | case2 marks id pending bound unmarked dead step =>
      rw [mark, dif_pos bound, dif_pos unmarked, dead]
      refine step size fun holder object marked live referred member alive => ?_
      rcases start holder object marked live referred member alive with done | waiting
      · exact Or.inl done
      · cases waiting with
        | head =>
            unfold contains at alive
            rw [dead] at alive
            cases alive
        | tail _ later => exact Or.inr later
  | case3 marks id pending bound unmarked object live step =>
      rw [mark, dif_pos bound, dif_pos unmarked, live]
      refine step ((Array.size_set bound).trans size) ?_
      intro holder held marked present referred member alive
      have grown : ∀ other : ObjectId, marks[other.index]? = some true ->
          (marks.set id.index true)[other.index]? = some true := by
        intro other was
        rw [Array.getElem?_set]
        split
        · rfl
        · exact was
      by_cases same : id = holder
      · -- What the new object refers to is pending now.
        subst same
        cases live.symm.trans present
        exact Or.inr (List.mem_append_left _ member)
      · have apart : id.index ≠ holder.index := fun equal => same (ObjectId.ext_index equal)
        rw [Array.getElem?_set, if_neg apart] at marked
        rcases start holder held marked present referred member alive with done | waiting
        · exact Or.inl (grown referred done)
        · cases waiting with
          | head => exact Or.inl (by rw [Array.getElem?_set, if_pos rfl])
          | tail _ later => exact Or.inr (List.mem_append_right _ later)
  | case4 marks id pending bound marked step =>
      rw [mark, dif_pos bound, dif_neg marked]
      refine step size fun holder object was live referred member alive => ?_
      rcases start holder object was live referred member alive with done | waiting
      · exact Or.inl done
      · cases waiting with
        | head => exact Or.inl (by rw [Array.getElem?_eq_getElem bound, eq_true_of_ne_false marked])
        | tail _ later => exact Or.inr later
  | case5 marks id pending outside step =>
      rw [mark, dif_neg outside]
      refine step size fun holder object was live referred member alive => ?_
      rcases start holder object was live referred member alive with done | waiting
      · exact Or.inl done
      · cases waiting with
        | head =>
            obtain ⟨other, present⟩ := contains_iff.1 alive
            exact absurd (size ▸ index_lt_of_get? present) outside
        | tail _ later => exact Or.inr later

/-! ## Sweeping -/

theorem get?_shapes_foldl_release (freed : List ObjectId) (heap : Heap K) (id : ShapeId) :
    (freed.foldl release heap).shapes.get? id = heap.shapes.get? id := by
  induction freed generalizing heap with
  | nil => rfl
  | cons first rest step =>
      rw [List.foldl_cons, step]
      rfl

/-- The empty shapes of prototypes that are freed are forgotten. -/
theorem mem_roots_foldl_release
    (freed : List ObjectId)
    {heap : Heap K}
    {prototype : Option ObjectId}
    {root : ShapeId}
    (member : (prototype, root) ∈ (freed.foldl release heap).shapes.roots) :
    (prototype, root) ∈ heap.shapes.roots ∧ ∀ id ∈ freed, prototype ≠ some id := by
  induction freed generalizing heap with
  | nil => exact ⟨member, fun id impossible => by cases impossible⟩
  | cons first rest step =>
      obtain ⟨kept, others⟩ := step member
      obtain ⟨old, survives⟩ := List.mem_filter.1 kept
      refine ⟨old, fun id freedId => ?_⟩
      cases freedId with
      | head => exact bne_iff_ne.1 survives
      | tail _ later => exact others id later

/-! ## Collections -/

section Collect

variable (heap : Heap K) (trace : K -> List ObjectId) (roots : List ObjectId)
variable {object : HeapObject K}

/-- What an object that survives refers to is not freed. -/
theorem reference_survives
    {id holder : ObjectId}
    (survives : (heap.collect trace roots).2.get? id = some object)
    (refers : holder ∈ references trace object) :
    holder ∉ heap.freed trace roots := by
  intro freedHolder
  obtain ⟨alive, unmarkedHolder⟩ := mem_unmarked.1 freedHolder
  rw [get?_collect_eq] at survives
  split at survives
  · cases survives
  · next kept =>
      have size : (Array.replicate heap.objects.size false).size = heap.objects.size :=
        Array.size_replicate
      have closed := heap.mark_closed trace (Array.replicate heap.objects.size false) roots size
        fun other held marked => by
          rw [Array.getElem?_replicate] at marked
          split at marked <;> cases marked
      have marked : (heap.mark trace (Array.replicate heap.objects.size false) roots)[
          id.index]? = some true := by
        have within : id.index <
            (heap.mark trace (Array.replicate heap.objects.size false) roots).size := by
          rw [size_mark, size]
          exact index_lt_of_get? survives
        rw [Array.getElem?_eq_getElem within]
        by_contra unmarked
        refine kept (mem_unmarked.2 ⟨contains_iff.2 ⟨object, survives⟩, ?_⟩)
        rw [Array.getElem?_eq_getElem within]
        simpa using unmarked
      rcases closed id object marked survives holder refers alive with done | waiting
      · rw [done] at unmarkedHolder
        cases unmarkedHolder
      · cases waiting

theorem root_survives {id : ObjectId} (root : id ∈ roots) :
    id ∉ heap.freed trace roots := by
  intro freedRoot
  obtain ⟨alive, unmarkedRoot⟩ := mem_unmarked.1 freedRoot
  have marked := heap.marked_of_pending trace (Array.replicate heap.objects.size false) roots
    Array.size_replicate id (Or.inr ⟨root, alive⟩)
  rw [marked] at unmarkedRoot
  cases unmarkedRoot

theorem prototype_survives
    {id holder : ObjectId}
    (survives : (heap.collect trace roots).2.get? id = some object)
    (linked : object.prototype = some holder) :
    holder ∉ heap.freed trace roots := by
  refine heap.reference_survives trace roots survives ?_
  unfold references
  rw [linked]
  exact List.mem_append_left _ (List.mem_append_left _ (.head _))

end Collect

variable {layout : Layout} {heap : Heap K}

/-- A shape in use after a collection has a prototype that was not freed. -/
theorem Laid.usable_prototype
    (laid : heap.Laid layout)
    (trace : K -> List ObjectId)
    (roots : List ObjectId)
    {id : ShapeId}
    (usable : (heap.collect trace roots).2.Usable id)
    {shape : Shape}
    (present : heap.shapes.get? id = some shape)
    {holder : ObjectId}
    (linked : shape.prototype = some holder) :
    holder ∉ heap.freed trace roots := by
  induction usable generalizing shape with
  | used has =>
      obtain ⟨place, object, survives, rfl⟩ := has
      have live := heap.get?_collect trace roots survives
      obtain ⟨known, stands, same⟩ := (laid.objects place object live).prototype
      cases stands.symm.trans present
      exact heap.prototype_survives trace roots survives (same.symm.trans linked)
  | @root prototype root member =>
      obtain ⟨old, kept⟩ := mem_roots_foldl_release (heap.freed trace roots) member
      obtain ⟨_, known, stands, same⟩ := laid.table.roots prototype root old
      cases stands.symm.trans present
      rw [← same, linked] at kept
      exact fun freedHolder => kept holder freedHolder rfl
  | append _ outgoing member step =>
      have before := (get?_shapes_foldl_release (heap.freed trace roots) heap _).symm.trans outgoing
      obtain ⟨_, next, stands, same⟩ := laid.table.transitions _ _ _ _ before member
      cases stands.symm.trans present
      exact step before (same.symm.trans linked)

/-- A collection keeps a heap laid out. -/
theorem Laid.collect
    (laid : heap.Laid layout)
    (trace : K -> List ObjectId)
    (roots : List ObjectId) :
    heap.Follows layout layout (heap.collect trace roots).2 := by
  have shapes : ∀ id, (heap.collect trace roots).2.shapes.get? id = heap.shapes.get? id :=
    get?_shapes_foldl_release (heap.freed trace roots) heap
  have grows : heap.shapes.Grows (heap.collect trace roots).2.shapes := by
    refine ⟨fun id shape present => ⟨shape, (shapes id).trans present, rfl,
      fun _ _ member => Or.inl member⟩, fun id shape absent present => ?_, ?_⟩
    · rw [shapes, absent] at present
      cases present
    · exact fun prototype root member =>
        Or.inl (mem_roots_foldl_release (heap.freed trace roots) member).1
  refine ⟨⟨⟨?_, ?_⟩, ?_, laid.tidy.collect trace roots⟩, fun _ _ _ => rfl, ?_, ?_, ?_⟩
  · intro prototype root member
    obtain ⟨old, _⟩ := mem_roots_foldl_release (heap.freed trace roots) member
    obtain ⟨empty, shape, present, same⟩ := laid.table.roots prototype root old
    exact ⟨empty, shape, (shapes root).trans present, same⟩
  · intro source shape key target present member
    rw [shapes] at present
    obtain ⟨appended, next, stands, same⟩ :=
      laid.table.transitions source shape key target present member
    exact ⟨appended, next, (shapes target).trans stands, same⟩
  · intro id object survives
    have old := laid.objects id object (heap.get?_collect trace roots survives)
    obtain ⟨shape, stands, same⟩ := old.prototype
    exact ⟨old.keys, old.distinct, shape, (shapes _).trans stands, same⟩
  · exact fun id shape present => ⟨shape, (shapes id).trans present, rfl⟩
  · intro id shape present
    refine usable_of_grows grows ?_ present
    rintro used ⟨place, object, survives, rfl⟩
    exact Or.inr (.used ⟨place, object, heap.get?_collect trace roots survives, rfl⟩)
  · intro id shape holder present linked usable alive
    have kept := laid.usable_prototype trace roots usable present linked
    unfold contains
    rw [get?_collect_eq, if_neg kept]
    exact alive

end Heap
end ScriptVM

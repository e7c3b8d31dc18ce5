import Mathlib.Data.List.Nodup
import ScriptVM.Proofs.HeapObjects

/-!
# Free lists and alterations

The handles that a heap hands out again are different from each other, dead, and were
handed out before. So an allocation makes an object under a handle that was dead, and a
collection makes the handles that it frees available once each.
-/

namespace ScriptVM
namespace Heap

variable {K : Type} {heap : Heap K}

theorem contains_iff {id : ObjectId} :
    heap.contains id = true ↔ ∃ object, heap.get? id = some object :=
  Option.isSome_iff_exists

theorem index_lt_of_get?
    {id : ObjectId}
    {object : HeapObject K}
    (live : heap.get? id = some object) :
    id.index < heap.objects.size := by
  obtain ⟨slot, stands, _⟩ := Option.bind_eq_some_iff.1 live
  exact (Array.getElem?_eq_some_iff.1 stands).1

/-- Handles to be given out again are different, dead and not new. -/
structure Tidy (heap : Heap K) : Prop where
  distinct : heap.free.Nodup
  dead : ∀ index ∈ heap.free, heap.get? ⟨index⟩ = none
  issued : ∀ index ∈ heap.free, index < heap.objects.size

theorem tidy_empty : Tidy ({} : Heap K) where
  distinct := .nil
  dead _ member := by cases member
  issued _ member := by cases member

namespace Tidy

/-! ## Changes in place -/

theorem withShapes (tidy : heap.Tidy) (shapes : ShapeTable) :
    ({ heap with shapes } : Heap K).Tidy :=
  ⟨tidy.distinct, tidy.dead, tidy.issued⟩

theorem modify (tidy : heap.Tidy) (id : ObjectId) (change : HeapObject K -> HeapObject K) :
    (heap.modify id change).Tidy where
  distinct := tidy.distinct
  dead index member := by
    rw [get?_modify, tidy.dead index member]
    split <;> rfl
  issued index member := by
    rw [size_modify]
    exact tidy.issued index member

theorem define (tidy : heap.Tidy) (id : ObjectId) (key : PropertyKey) (property : Property) :
    (heap.define id key property).Tidy := by
  unfold Heap.define
  split
  · exact tidy
  · split
    · split
      · exact tidy.modify id _
      · exact (tidy.withShapes _).modify id _
    · exact (tidy.withShapes _).modify id _

theorem remove (tidy : heap.Tidy) (id : ObjectId) (key : PropertyKey) :
    (heap.remove id key).Tidy := by
  unfold Heap.remove
  split
  · exact tidy
  · split
    · exact tidy
    · exact (tidy.withShapes _).modify id _

theorem setPrototype (tidy : heap.Tidy) (id : ObjectId) (prototype : Option ObjectId) :
    (heap.setPrototype id prototype).Tidy := by
  unfold Heap.setPrototype
  split
  · exact tidy
  · split
    · exact tidy
    · exact (tidy.withShapes _).modify id _

/-! ## Allocation -/

/-- The handle that an allocation gives out is dead before. -/
theorem allocated_dead (tidy : heap.Tidy) (prototype : Option ObjectId) (payload : K) :
    heap.get? (heap.allocate prototype payload).1 = none := by
  have dead := tidy.dead
  unfold Heap.allocate
  cases free : heap.free with
  | nil => simp [get?]
  | cons index rest => exact dead index (by simp [free])

/-- What is allocated stands behind the handle that is given out. -/
theorem allocated_live (tidy : heap.Tidy) (prototype : Option ObjectId) (payload : K) :
    (heap.allocate prototype payload).2.get? (heap.allocate prototype payload).1 =
      some (heap.fresh prototype payload) := by
  have issued := tidy.issued
  unfold Heap.allocate fresh get?
  cases free : heap.free with
  | nil => simp
  | cons index rest =>
      have within : index < heap.objects.size := issued index (by simp [free])
      simp [within]

theorem get?_allocate
    (tidy : heap.Tidy)
    (prototype : Option ObjectId)
    (payload : K)
    (id : ObjectId) :
    (heap.allocate prototype payload).2.get? id =
      if (heap.allocate prototype payload).1 = id then some (heap.fresh prototype payload)
      else heap.get? id := by
  split
  · next same =>
      subst same
      exact tidy.allocated_live prototype payload
  · next other => exact get?_allocate_of_ne heap prototype payload other

/-- After an allocation there are fewer handles to be given out again, and not the one
that was given out. -/
theorem free_allocate (tidy : heap.Tidy) (prototype : Option ObjectId) (payload : K) :
    (heap.allocate prototype payload).2.free.Nodup ∧
      ∀ index ∈ (heap.allocate prototype payload).2.free,
        index ∈ heap.free ∧ (heap.allocate prototype payload).1 ≠ ⟨index⟩ := by
  have distinct := tidy.distinct
  unfold Heap.allocate
  cases free : heap.free with
  | nil => simp
  | cons index rest =>
      rw [free] at distinct
      obtain ⟨missing, rest⟩ := List.nodup_cons.1 distinct
      refine ⟨rest, fun other member => ⟨.tail _ member, fun same => ?_⟩⟩
      cases same
      exact missing member

theorem allocate (tidy : heap.Tidy) (prototype : Option ObjectId) (payload : K) :
    (heap.allocate prototype payload).2.Tidy where
  distinct := (tidy.free_allocate prototype payload).1
  dead index member := by
    obtain ⟨old, apart⟩ := (tidy.free_allocate prototype payload).2 index member
    rw [get?_allocate_of_ne heap prototype payload apart]
    exact tidy.dead index old
  issued index member := by
    obtain ⟨old, _⟩ := (tidy.free_allocate prototype payload).2 index member
    exact Nat.lt_of_lt_of_le (tidy.issued index old) (heap.size_allocate prototype payload)

end Tidy

/-! ## Collection -/

theorem mem_unmarked {marks : Array Bool} {id : ObjectId} :
    id ∈ heap.unmarked marks ↔
      heap.contains id = true ∧ (marks[id.index]?).getD false = false := by
  unfold unmarked
  rw [List.mem_filter, Bool.and_eq_true, Bool.not_eq_true']
  refine ⟨And.right, fun kept => ⟨?_, kept⟩⟩
  obtain ⟨object, live⟩ := contains_iff.1 kept.1
  exact List.mem_map.2 ⟨id.index, List.mem_range.2 (index_lt_of_get? live), rfl⟩

theorem nodup_unmarked (heap : Heap K) (marks : Array Bool) :
    (heap.unmarked marks).Nodup := by
  unfold unmarked
  refine List.Nodup.filter _ (List.Nodup.map ?_ List.nodup_range)
  intro left right same
  exact congrArg ObjectId.index same

theorem free_foldl_release (freed : List ObjectId) (heap : Heap K) :
    (freed.foldl release heap).free = (freed.map ObjectId.index).reverse ++ heap.free := by
  induction freed generalizing heap with
  | nil => rfl
  | cons first rest step =>
      rw [List.foldl_cons, step, List.map_cons, List.reverse_cons, List.append_assoc]
      rfl

/-- The handles that a collection frees. -/
def freed
    (heap : Heap K)
    (trace : K -> List ObjectId)
    (roots : List ObjectId) : List ObjectId :=
  heap.unmarked (heap.mark trace (Array.replicate heap.objects.size false) roots)

theorem get?_collect_eq
    (heap : Heap K)
    (trace : K -> List ObjectId)
    (roots : List ObjectId)
    (id : ObjectId) :
    (heap.collect trace roots).2.get? id =
      if id ∈ heap.freed trace roots then none else heap.get? id :=
  get?_foldl_release (heap.freed trace roots) heap id

/-- A collection frees what is alive, each handle once. -/
theorem Tidy.collect (tidy : heap.Tidy) (trace : K -> List ObjectId) (roots : List ObjectId) :
    (heap.collect trace roots).2.Tidy := by
  have free : (heap.collect trace roots).2.free =
      ((heap.freed trace roots).map ObjectId.index).reverse ++ heap.free :=
    free_foldl_release (heap.freed trace roots) heap
  have alive : ∀ id ∈ heap.freed trace roots, heap.contains id = true :=
    fun id member => (mem_unmarked.1 member).1
  refine ⟨?_, ?_, ?_⟩
  · rw [free]
    refine List.nodup_append.2 ⟨List.nodup_reverse.2 (List.Nodup.map ?_ (nodup_unmarked _ _)),
      tidy.distinct, ?_⟩
    · exact fun _ _ same => ObjectId.ext_index same
    · intro index member other old equal
      subst equal
      obtain ⟨id, freedId, rfl⟩ := List.mem_map.1 (List.mem_reverse.1 member)
      have living := alive id freedId
      unfold contains at living
      rw [tidy.dead id.index old] at living
      cases living
  · intro index member
    rw [get?_collect_eq]
    split
    · rfl
    · next kept =>
        rw [free] at member
        rcases List.mem_append.1 member with new | old
        · obtain ⟨id, freedId, rfl⟩ := List.mem_map.1 (List.mem_reverse.1 new)
          exact absurd freedId kept
        · exact tidy.dead index old
  · intro index member
    rw [size_collect]
    rw [free] at member
    rcases List.mem_append.1 member with new | old
    · obtain ⟨id, freedId, rfl⟩ := List.mem_map.1 (List.mem_reverse.1 new)
      obtain ⟨object, live⟩ := contains_iff.1 (alive id freedId)
      exact index_lt_of_get? live
    · exact tidy.issued index old

end Heap
/-!
## Alterations of a heap

Every operation of the heap but allocation and collection alters at most the object that it
names, and hands out no handle. Here is what each of them makes of that object.
-/

namespace PropertyTable

variable {entry : PropertyKey × Property} {table : PropertyTable} {property : Property}

/-- The entries of a table in which one property is replaced. -/
theorem mem_setAt
    {offset : Nat}
    (member : entry ∈ (table.setAt offset property).entries) :
    entry ∈ table.entries ∨ entry.2 = property := by
  obtain ⟨index, present⟩ := Array.mem_iff_getElem?.1 member
  unfold setAt at present
  rw [Array.getElem?_modify] at present
  split at present
  · obtain ⟨old, _, rfl⟩ := Option.map_eq_some_iff.1 present
    exact Or.inr rfl
  · exact Or.inl (Array.mem_of_getElem? present)

theorem mem_append
    {key : PropertyKey}
    (member : entry ∈ (table.append key property).entries) :
    entry ∈ table.entries ∨ entry.2 = property :=
  (Array.mem_push.1 member).imp_right fun same => congrArg Prod.snd same

theorem mem_eraseAt {offset : Nat} (member : entry ∈ (table.eraseAt offset).entries) :
    entry ∈ table.entries := by
  unfold eraseAt Array.eraseIdxIfInBounds at member
  dsimp only at member
  split at member
  · exact Array.mem_of_mem_eraseIdx member
  · exact member

end PropertyTable

namespace Heap

variable {K : Type}

/-- One object is altered in place. -/
structure Alters (before after : Heap K) (id : ObjectId)
    (change : HeapObject K -> HeapObject K) : Prop where
  get? : ∀ other, after.get? other =
    if id = other then (before.get? other).map change else before.get? other
  free : after.free = before.free
  size : after.objects.size = before.objects.size

namespace Alters

variable {before after : Heap K} {id : ObjectId} {change : HeapObject K -> HeapObject K}

theorem modify
    (heap : Heap K)
    (shapes : ShapeTable)
    (id : ObjectId)
    (change : HeapObject K -> HeapObject K) :
    Alters heap (({ heap with shapes } : Heap K).modify id change) id change where
  get? other := by rw [get?_modify, get?_withShapes]
  free := rfl
  size := size_modify ..

/-- Nothing changes if the object is as it should be. -/
theorem refl (heap : Heap K) (id : ObjectId) :
    Alters heap heap id (fun object => object) where
  get? other := by
    split
    · exact (Option.map_id' ..).symm
    · rfl
  free := rfl
  size := rfl

/-- What stands where something is altered. -/
theorem altered
    (alters : Alters before after id change)
    {other : ObjectId}
    {object : HeapObject K}
    (live : after.get? other = some object) :
    ∃ old, before.get? other = some old ∧
      (id = other ∧ object = change old ∨ id ≠ other ∧ object = old) := by
  rw [alters.get?] at live
  split at live
  · next same =>
      obtain ⟨old, standing, rfl⟩ := Option.map_eq_some_iff.1 live
      exact ⟨old, standing, Or.inl ⟨same, rfl⟩⟩
  · next distinct => exact ⟨object, live, Or.inr ⟨distinct, rfl⟩⟩

theorem tidy (alters : Alters before after id change) (tidy : before.Tidy) :
    after.Tidy where
  distinct := alters.free ▸ tidy.distinct
  dead index member := by
    rw [alters.free] at member
    rw [alters.get?, tidy.dead index member]
    split <;> rfl
  issued index member := by
    rw [alters.size]
    rw [alters.free] at member
    exact tidy.issued index member

end Alters

/-- An alteration that leaves prototype and internal slots alone, and adds at most one
property. -/
structure Furnishes (change : HeapObject K -> HeapObject K)
    (property : Option Property) : Prop where
  prototype : ∀ object, (change object).prototype = object.prototype
  payload : ∀ object, (change object).payload = object.payload
  entries : ∀ object, ∀ entry ∈ (change object).properties.entries,
    entry ∈ object.properties.entries ∨ property = some entry.2

theorem Furnishes.refl (property : Option Property) :
    Furnishes (fun object : HeapObject K => object) property where
  prototype _ := rfl
  payload _ := rfl
  entries _ _ member := Or.inl member

theorem alters_define
    (heap : Heap K)
    (id : ObjectId)
    (key : PropertyKey)
    (property : Property) :
    ∃ change, Alters heap (heap.define id key property) id change ∧
      Furnishes change (some property) := by
  unfold define
  split
  · exact ⟨_, .refl heap id, .refl _⟩
  · split
    · split
      · refine ⟨_, .modify heap heap.shapes id _, fun _ => rfl, fun _ => rfl, ?_⟩
        exact fun object entry member => (PropertyTable.mem_setAt member).imp_right fun same =>
          congrArg some same.symm
      · refine ⟨_, .modify heap _ id _, fun _ => rfl, fun _ => rfl, ?_⟩
        exact fun object entry member => (PropertyTable.mem_setAt member).imp_right fun same =>
          congrArg some same.symm
    · refine ⟨_, .modify heap _ id _, fun _ => rfl, fun _ => rfl, ?_⟩
      exact fun object entry member => (PropertyTable.mem_append member).imp_right fun same =>
        congrArg some same.symm

theorem alters_remove (heap : Heap K) (id : ObjectId) (key : PropertyKey) :
    ∃ change, Alters heap (heap.remove id key) id change ∧ Furnishes change none := by
  unfold remove
  split
  · exact ⟨_, .refl heap id, .refl _⟩
  · split
    · exact ⟨_, .refl heap id, .refl _⟩
    · refine ⟨_, .modify heap _ id _, fun _ => rfl, fun _ => rfl, ?_⟩
      exact fun object entry member => Or.inl (PropertyTable.mem_eraseAt member)

theorem alters_preventExtensions (heap : Heap K) (id : ObjectId) :
    ∃ change, Alters heap (heap.preventExtensions id) id change ∧ Furnishes change none :=
  ⟨_, .modify heap heap.shapes id _, fun _ => rfl, fun _ => rfl, fun _ _ => Or.inl⟩

/-- A new prototype link, and nothing else. -/
theorem alters_setPrototype (heap : Heap K) (id : ObjectId) (prototype : Option ObjectId) :
    ∃ change, Alters heap (heap.setPrototype id prototype) id change ∧
      ∀ object, heap.get? id = some object ->
        (change object).prototype = prototype ∧ (change object).payload = object.payload ∧
          (change object).properties = object.properties := by
  unfold setPrototype
  split
  · next dead =>
      refine ⟨_, .refl heap id, fun object live => ?_⟩
      rw [dead] at live
      cases live
  · next object live =>
      split
      · next same =>
          refine ⟨_, .refl heap id, fun other stands => ?_⟩
          cases live.symm.trans stands
          exact ⟨beq_iff_eq.1 same, rfl, rfl⟩
      · exact ⟨_, .modify heap _ id _, fun _ _ => ⟨rfl, rfl, rfl⟩⟩

theorem alters_modifyPayload (heap : Heap K) (id : ObjectId) (change : K -> K) :
    Alters heap (heap.modifyPayload id change) id fun object =>
      { object with payload := change object.payload } :=
  .modify heap heap.shapes id _

end Heap
end ScriptVM

import Mathlib.Data.Finset.Card
import Mathlib.Data.Finset.Range
import ScriptVM.Proofs.Collection
import ScriptVM.Proofs.ShapeCounts

/-!
# What a collection frees

An object survives a collection exactly when it can be reached from the roots, and it
survives as it is. The counters of a heap count its objects, and the handles to be given
out again are those of the empty slots. Both hold after every history, so an allocation
never gives out the handle of an object that is alive.
-/

namespace ScriptVM

variable {K : Type}

/-! ## References -/

/-- An object holds a reference to a handle: in its link to a prototype, in the value or
an accessor of an own property, or in its internal slots. -/
inductive HeapObject.RefersTo
    (trace : K -> List ObjectId)
    (object : HeapObject K) : ObjectId -> Prop
  | prototype {id : ObjectId} : object.prototype = some id -> RefersTo trace object id
  | value {key : PropertyKey} {property : Property} {value : Value} {writable : Bool}
      {id : ObjectId} :
      (key, property) ∈ object.properties.entries -> property.slot = .data value writable ->
      value.objectId? = some id -> RefersTo trace object id
  | getter {key : PropertyKey} {property : Property} {getter setter : Value}
      {id : ObjectId} :
      (key, property) ∈ object.properties.entries ->
      property.slot = .accessor getter setter ->
      getter.objectId? = some id -> RefersTo trace object id
  | setter {key : PropertyKey} {property : Property} {getter setter : Value}
      {id : ObjectId} :
      (key, property) ∈ object.properties.entries ->
      property.slot = .accessor getter setter ->
      setter.objectId? = some id -> RefersTo trace object id
  | internal {id : ObjectId} : id ∈ trace object.payload -> RefersTo trace object id

namespace Heap

/-- Marking follows every reference and nothing else. -/
theorem mem_references_iff
    {trace : K -> List ObjectId}
    {object : HeapObject K}
    {id : ObjectId} :
    id ∈ references trace object ↔ object.RefersTo trace id := by
  unfold references PropertyTable.values
  simp only [List.mem_append, Option.mem_toList, List.mem_filterMap, List.mem_flatMap,
    Array.mem_toList_iff]
  constructor
  · rintro ((linked | ⟨value, ⟨⟨key, property⟩, member, held⟩, named⟩) | traced)
    · exact .prototype linked
    · unfold Property.values at held
      split at held
      · next stored writable slot =>
          cases List.mem_singleton.1 held
          exact .value member slot named
      · next getter setter slot =>
          rcases List.mem_cons.1 held with rfl | last
          · exact .getter member slot named
          · cases List.mem_singleton.1 last
            exact .setter member slot named
    · exact .internal traced
  · have held : ∀ {key property} {value : Value}, (key, property) ∈ object.properties.entries ->
        value ∈ property.values -> value.objectId? = some id ->
          ∃ value, (∃ entry ∈ object.properties.entries, value ∈ entry.2.values) ∧
            value.objectId? = some id :=
      fun member stored named => ⟨_, ⟨_, member, stored⟩, named⟩
    rintro (linked | ⟨member, slot, named⟩ | ⟨member, slot, named⟩ | ⟨member, slot, named⟩ |
      traced)
    · exact Or.inl (Or.inl linked)
    · exact Or.inl (Or.inr (held member (by simp [Property.values, slot]) named))
    · exact Or.inl (Or.inr (held member (by simp [Property.values, slot]) named))
    · exact Or.inl (Or.inr (held member (by simp [Property.values, slot]) named))
    · exact Or.inr traced

/-- An object that is alive and can be reached from the roots, by references of objects
that are alive. -/
inductive Reachable
    (heap : Heap K)
    (trace : K -> List ObjectId)
    (roots : List ObjectId) : ObjectId -> Prop
  | root {id : ObjectId} :
      id ∈ roots -> heap.contains id = true -> Reachable heap trace roots id
  | step {holder id : ObjectId} {object : HeapObject K} :
      Reachable heap trace roots holder -> heap.get? holder = some object ->
      object.RefersTo trace id -> heap.contains id = true -> Reachable heap trace roots id

/-! ## Marking -/

section Marking

variable (heap : Heap K) (trace : K -> List ObjectId) (roots : List ObjectId)

/-- Marking gets to nothing that cannot be reached. -/
theorem reachable_of_mark
    (marks : Array Bool)
    (pending : List ObjectId)
    (marked : ∀ id : ObjectId, marks[id.index]? = some true -> heap.Reachable trace roots id)
    (waiting : ∀ id ∈ pending, heap.contains id = true -> heap.Reachable trace roots id)
    (id : ObjectId)
    (reached : (heap.mark trace marks pending)[id.index]? = some true) :
    heap.Reachable trace roots id := by
  induction marks, pending using mark.induct heap trace with
  | case1 marks =>
      rw [mark] at reached
      exact marked id reached
  | case2 marks first pending bound unmarked dead step =>
      rw [mark, dif_pos bound, dif_pos unmarked, dead] at reached
      exact step marked (fun other member => waiting other (.tail _ member)) reached
  | case3 marks first pending bound unmarked object live step =>
      rw [mark, dif_pos bound, dif_pos unmarked, live] at reached
      have alive := contains_iff.2 ⟨object, live⟩
      have found := waiting first (.head _) alive
      refine step (fun other now => ?_) (fun other member alive => ?_) reached
      · rw [Array.getElem?_set] at now
        split at now
        · next same =>
            cases ObjectId.ext_index same
            exact found
        · exact marked other now
      · rcases List.mem_append.1 member with referred | later
        · exact .step found live (mem_references_iff.1 referred) alive
        · exact waiting other (.tail _ later) alive
  | case4 marks first pending bound known step =>
      rw [mark, dif_pos bound, dif_neg known] at reached
      exact step marked (fun other member => waiting other (.tail _ member)) reached
  | case5 marks first pending outside step =>
      rw [mark, dif_neg outside] at reached
      exact step marked (fun other member => waiting other (.tail _ member)) reached

/-- The marks at the end of marking. -/
def marks : Array Bool :=
  heap.mark trace (Array.replicate heap.objects.size false) roots

@[simp] theorem size_marks : (heap.marks trace roots).size = heap.objects.size :=
  (heap.size_mark trace _ _).trans Array.size_replicate

theorem unmarked_before (id : ObjectId) :
    (Array.replicate heap.objects.size false)[id.index]? ≠ some true := by
  rw [Array.getElem?_replicate]
  split <;> simp

/-- Everything that can be reached is marked, and nothing else. -/
theorem marked_iff (id : ObjectId) :
    (heap.marks trace roots)[id.index]? = some true ↔ heap.Reachable trace roots id := by
  constructor
  · refine heap.reachable_of_mark trace roots _ _ (fun other now => ?_)
      (fun other member alive => .root member alive) id
    exact absurd now (heap.unmarked_before other)
  · intro reachable
    have size : (Array.replicate heap.objects.size false).size = heap.objects.size :=
      Array.size_replicate
    induction reachable with
    | root member alive =>
        exact heap.marked_of_pending trace _ _ size _ (Or.inr ⟨member, alive⟩)
    | step _ live refers alive marked =>
        have closed := heap.mark_closed trace _ roots size fun other _ now =>
          absurd now (heap.unmarked_before other)
        exact (closed _ _ marked live _ (mem_references_iff.2 refers) alive).resolve_right
          List.not_mem_nil

theorem mem_freed_iff (id : ObjectId) :
    id ∈ heap.freed trace roots ↔
      heap.contains id = true ∧ ¬heap.Reachable trace roots id := by
  refine mem_unmarked.trans (and_congr_right fun alive => ?_)
  rw [← marked_iff]
  obtain ⟨object, live⟩ := contains_iff.1 alive
  have within : id.index < (heap.marks trace roots).size := by
    rw [size_marks]
    exact index_lt_of_get? live
  change (((heap.marks trace roots)[id.index]?).getD false = false) ↔ _
  rw [Array.getElem?_eq_getElem within]
  simp

/-- What survives a collection is what can be reached, unchanged. -/
theorem get?_collect_iff (id : ObjectId) (object : HeapObject K) :
    (heap.collect trace roots).2.get? id = some object ↔
      heap.get? id = some object ∧ heap.Reachable trace roots id := by
  rw [get?_collect_eq]
  constructor
  · intro survives
    split at survives
    · cases survives
    · next kept =>
        rw [mem_freed_iff] at kept
        exact ⟨survives, not_not.1 (not_and.1 kept (contains_iff.2 ⟨object, survives⟩))⟩
  · rintro ⟨live, reachable⟩
    have kept : id ∉ heap.freed trace roots := fun freed =>
      ((heap.mem_freed_iff trace roots id).1 freed).2 reachable
    rw [if_neg kept, live]

end Marking

/-! ## Counting -/

/-- The slots of an array that pass a test, counted by their indices. -/
theorem countP_eq_card {α : Type} (test : α -> Bool) (slots : Array α) :
    slots.countP test =
      ((Finset.range slots.size).filter fun index => (slots[index]?).any test).card := by
  rw [← Array.countP_toList, ← Array.length_toList]
  simp only [← Array.getElem?_toList]
  induction slots.toList using List.reverseRecOn with
  | nil => rfl
  | append_singleton front last inductionHypothesis =>
      have before : ((Finset.range front.length).filter fun index =>
          ((front ++ [last])[index]?).any test) =
          (Finset.range front.length).filter fun index => (front[index]?).any test :=
        Finset.filter_congr fun index member => by
          rw [List.getElem?_append_left (Finset.mem_range.1 member)]
      rw [List.countP_append, List.length_append, List.length_singleton, Finset.range_add_one,
        Finset.filter_insert, before, inductionHypothesis]
      simp only [List.getElem?_concat_length, Option.any_some, List.countP_singleton]
      split
      · rw [Finset.card_insert_of_notMem (by simp)]
      · rfl

/-- The number of slots that hold an object. -/
def occupied (heap : Heap K) : Nat :=
  heap.objects.countP Option.isSome

/-- The indices of the objects that are alive. -/
def living (heap : Heap K) : Finset Nat :=
  (Finset.range heap.objects.size).filter fun index => heap.contains ⟨index⟩

theorem mem_living {heap : Heap K} {index : Nat} :
    index ∈ heap.living ↔ heap.contains ⟨index⟩ = true := by
  unfold living
  rw [Finset.mem_filter, Finset.mem_range]
  refine ⟨And.right, fun alive => ⟨?_, alive⟩⟩
  obtain ⟨object, live⟩ := contains_iff.1 alive
  exact index_lt_of_get? live

theorem occupied_eq_card (heap : Heap K) : heap.occupied = heap.living.card := by
  unfold occupied living
  rw [countP_eq_card]
  refine congrArg Finset.card (Finset.filter_congr fun index _ => ?_)
  unfold contains get?
  cases heap.objects[index]? with
  | none => simp
  | some slot => cases slot <;> simp

theorem occupied_congr
    {heap after : Heap K}
    (same : ∀ id, after.contains id = heap.contains id) :
    after.occupied = heap.occupied := by
  rw [occupied_eq_card, occupied_eq_card]
  refine congrArg Finset.card (Finset.ext fun index => ?_)
  rw [mem_living, mem_living, same]

theorem contains_modify
    (heap : Heap K)
    (id other : ObjectId)
    (change : HeapObject K -> HeapObject K) :
    (heap.modify id change).contains other = heap.contains other := by
  unfold contains
  rw [get?_modify]
  split
  · exact Option.isSome_map
  · rfl

/-! ## Accounts -/

/-- The counter of objects is right, and the handles to be given out again are those of
the empty slots, each once. -/
structure Accounts (heap : Heap K) : Prop where
  live : heap.stats.live = heap.occupied
  distinct : heap.free.Nodup
  free : ∀ index, index ∈ heap.free ↔ index < heap.objects.size ∧ heap.get? ⟨index⟩ = none

namespace Accounts

variable {heap : Heap K}

theorem tidy (accounts : heap.Accounts) : heap.Tidy where
  distinct := accounts.distinct
  dead index member := ((accounts.free index).1 member).2
  issued index member := ((accounts.free index).1 member).1

theorem empty : Accounts ({} : Heap K) where
  live := rfl
  distinct := .nil
  free index := by simp

theorem withShapes (accounts : heap.Accounts) (shapes : ShapeTable) :
    ({ heap with shapes } : Heap K).Accounts :=
  ⟨accounts.live, accounts.distinct, accounts.free⟩

theorem modify
    (accounts : heap.Accounts)
    (id : ObjectId)
    (change : HeapObject K -> HeapObject K) :
    (heap.modify id change).Accounts where
  live := accounts.live.trans (occupied_congr (heap.contains_modify id · change)).symm
  distinct := accounts.distinct
  free index := by
    rw [free_modify, size_modify, accounts.free, get?_modify]
    split
    · rw [Option.map_eq_none_iff]
    · rfl

theorem define
    (accounts : heap.Accounts)
    (id : ObjectId)
    (key : PropertyKey)
    (property : Property) :
    (heap.define id key property).Accounts := by
  unfold Heap.define
  split
  · exact accounts
  · split
    · split
      · exact accounts.modify id _
      · exact (accounts.withShapes _).modify id _
    · exact (accounts.withShapes _).modify id _

theorem remove (accounts : heap.Accounts) (id : ObjectId) (key : PropertyKey) :
    (heap.remove id key).Accounts := by
  unfold Heap.remove
  split
  · exact accounts
  · split
    · exact accounts
    · exact (accounts.withShapes _).modify id _

theorem setPrototype (accounts : heap.Accounts) (id : ObjectId) (prototype : Option ObjectId) :
    (heap.setPrototype id prototype).Accounts := by
  unfold Heap.setPrototype
  split
  · exact accounts
  · split
    · exact accounts
    · exact (accounts.withShapes _).modify id _

/-! ### Allocation -/

/-- An allocation fills one slot that was empty. -/
theorem living_allocate (accounts : heap.Accounts) (prototype : Option ObjectId) (payload : K) :
    (heap.allocate prototype payload).2.living =
      insert (heap.allocate prototype payload).1.index heap.living := by
  ext index
  rw [Finset.mem_insert, mem_living, mem_living]
  unfold contains
  rw [accounts.tidy.get?_allocate]
  split
  · next same => simp [same]
  · next apart =>
      have distinct : index ≠ (heap.allocate prototype payload).1.index := fun equal =>
        apart (ObjectId.ext_index equal.symm)
      simp [distinct]

theorem live_allocate (accounts : heap.Accounts) (prototype : Option ObjectId) (payload : K) :
    (heap.allocate prototype payload).2.stats.live =
      (heap.allocate prototype payload).2.occupied := by
  have counted : (heap.allocate prototype payload).2.stats.live = heap.stats.live + 1 := by
    unfold Heap.allocate
    cases heap.free <;> rfl
  have vacant : (heap.allocate prototype payload).1.index ∉ heap.living := by
    rw [mem_living]
    unfold contains
    rw [accounts.tidy.allocated_dead]
    exact Bool.false_ne_true
  rw [counted, accounts.live, occupied_eq_card, occupied_eq_card, accounts.living_allocate,
    Finset.card_insert_of_notMem vacant]

theorem free_allocate
    (accounts : heap.Accounts)
    (prototype : Option ObjectId)
    (payload : K)
    {index : Nat}
    (within : index < (heap.allocate prototype payload).2.objects.size)
    (vacant : (heap.allocate prototype payload).2.get? ⟨index⟩ = none) :
    index ∈ (heap.allocate prototype payload).2.free := by
  rw [accounts.tidy.get?_allocate] at vacant
  split at vacant
  · cases vacant
  · next apart =>
      revert within apart
      have known := accounts.free index
      unfold Heap.allocate
      cases free : heap.free with
      | nil =>
          intro within apart
          rw [free] at known
          have fresh : index ≠ heap.objects.size := fun equal => apart (by rw [equal])
          have old : index < heap.objects.size := by
            rw [Array.size_push] at within
            omega
          exact known.2 ⟨old, vacant⟩
      | cons first rest =>
          intro within apart
          rw [free] at known
          have old : index < heap.objects.size := by
            rwa [Array.size_setIfInBounds] at within
          refine (List.mem_cons.1 (known.2 ⟨old, vacant⟩)).resolve_left fun same => ?_
          exact apart (by rw [same])

theorem allocate (accounts : heap.Accounts) (prototype : Option ObjectId) (payload : K) :
    (heap.allocate prototype payload).2.Accounts := by
  have tidy := accounts.tidy.allocate prototype payload
  refine ⟨accounts.live_allocate prototype payload, tidy.distinct, fun index => ⟨?_, ?_⟩⟩
  · exact fun member => ⟨tidy.issued index member, tidy.dead index member⟩
  · exact fun ⟨within, vacant⟩ => accounts.free_allocate prototype payload within vacant

end Accounts

/-! ### Collection -/

section Collection

variable (heap : Heap K) (trace : K -> List ObjectId) (roots : List ObjectId)

theorem living_collect :
    (heap.collect trace roots).2.living ⊆ heap.living := by
  intro index survives
  rw [mem_living, contains_iff] at survives ⊢
  obtain ⟨object, present⟩ := survives
  exact ⟨object, heap.get?_collect trace roots present⟩

/-- The marks count the survivors. -/
theorem marked_eq_occupied :
    (heap.collect trace roots).1.marked = (heap.collect trace roots).2.occupied := by
  change (heap.marks trace roots).countP (· == true) = _
  rw [countP_eq_card, occupied_eq_card]
  refine congrArg Finset.card (Finset.ext fun index => ?_)
  have marked : ((heap.marks trace roots)[index]?).any (· == true) = true ↔
      heap.Reachable trace roots ⟨index⟩ := by
    rw [← marked_iff]
    cases (heap.marks trace roots)[index]? <;> simp
  rw [Finset.mem_filter, Finset.mem_range, marked, mem_living, contains_iff, size_marks]
  simp only [get?_collect_iff]
  constructor
  · rintro ⟨_, reachable⟩
    have alive : heap.contains ⟨index⟩ = true := by cases reachable <;> assumption
    obtain ⟨object, live⟩ := contains_iff.1 alive
    exact ⟨object, live, reachable⟩
  · rintro ⟨object, live, reachable⟩
    exact ⟨index_lt_of_get? live, reachable⟩

theorem freed_eq_card :
    (heap.collect trace roots).1.freed =
      (heap.living \ (heap.collect trace roots).2.living).card := by
  change (heap.freed trace roots).length = _
  have distinct : ((heap.freed trace roots).map ObjectId.index).Nodup :=
    List.Nodup.map (fun _ _ => ObjectId.ext_index) (heap.nodup_unmarked _)
  rw [← List.length_map ObjectId.index, ← List.toFinset_card_of_nodup distinct]
  refine congrArg Finset.card (Finset.ext fun index => ?_)
  have same : index ∈ (heap.freed trace roots).map ObjectId.index ↔
      ⟨index⟩ ∈ heap.freed trace roots := by
    refine ⟨fun member => ?_, fun member => List.mem_map.2 ⟨_, member, rfl⟩⟩
    obtain ⟨id, freed, rfl⟩ := List.mem_map.1 member
    exact freed
  rw [List.mem_toFinset, same, Finset.mem_sdiff, mem_living, mem_living]
  unfold contains
  rw [get?_collect_eq]
  split
  · next freed =>
      have alive : (heap.get? ⟨index⟩).isSome = true :=
        ((heap.mem_freed_iff trace roots _).1 freed).1
      simp [freed, alive]
  · next kept =>
      refine iff_of_false kept fun ⟨alive, gone⟩ => gone alive

theorem marked_add_freed :
    (heap.collect trace roots).1.marked + (heap.collect trace roots).1.freed =
      heap.occupied := by
  rw [marked_eq_occupied, freed_eq_card, occupied_eq_card, occupied_eq_card, Nat.add_comm]
  exact Finset.card_sdiff_add_card_eq_card (heap.living_collect trace roots)

theorem live_foldl_release (freed : List ObjectId) (heap : Heap K) :
    (freed.foldl release heap).stats.live = heap.stats.live - freed.length := by
  induction freed generalizing heap with
  | nil => rfl
  | cons first rest inductionHypothesis =>
      rw [List.foldl_cons, inductionHypothesis, List.length_cons, Nat.add_comm, ← Nat.sub_sub]
      rfl

variable {heap}

theorem Accounts.collect (accounts : heap.Accounts) : (heap.collect trace roots).2.Accounts := by
  have tidy := accounts.tidy.collect trace roots
  have free : (heap.collect trace roots).2.free =
      ((heap.freed trace roots).map ObjectId.index).reverse ++ heap.free :=
    free_foldl_release (heap.freed trace roots) heap
  refine ⟨?_, tidy.distinct, fun index => ⟨?_, ?_⟩⟩
  · have counted : (heap.collect trace roots).2.stats.live =
        heap.stats.live - (heap.collect trace roots).1.freed :=
      live_foldl_release (heap.freed trace roots) heap
    rw [counted, accounts.live, ← marked_add_freed, ← marked_eq_occupied, Nat.add_sub_cancel]
  · exact fun member => ⟨tidy.issued index member, tidy.dead index member⟩
  · rintro ⟨within, vacant⟩
    rw [free, List.mem_append]
    rw [get?_collect_eq] at vacant
    split at vacant
    · next freed => exact Or.inl (List.mem_reverse.2 (List.mem_map.2 ⟨_, freed, rfl⟩))
    · rw [size_collect] at within
      exact Or.inr ((accounts.free index).2 ⟨within, vacant⟩)

end Collection

theorem Accounts.apply
    {heap : Heap K}
    (accounts : heap.Accounts)
    (trace : K -> List ObjectId)
    (operation : HeapOperation K) :
    (heap.apply trace operation).Accounts := by
  cases operation with
  | allocate prototype payload => exact accounts.allocate prototype payload
  | define id key property => exact accounts.define id key property
  | setValueAt id offset value => exact accounts.modify id _
  | remove id key => exact accounts.remove id key
  | setPrototype id prototype => exact accounts.setPrototype id prototype
  | preventExtensions id => exact accounts.modify id _
  | modifyPayload id change => exact accounts.modify id _
  | collect roots => exact accounts.collect trace roots

/-- The accounts of a heap are right after every history. -/
theorem accounts_after (trace : K -> List ObjectId) (history : List (HeapOperation K)) :
    (({} : Heap K).after trace history).Accounts :=
  holds_after .empty (fun _ operation accounts => accounts.apply trace operation) history

/-- What a collection leaves of a heap and reports about it. -/
structure Swept
    (trace : K -> List ObjectId)
    (roots : List ObjectId)
    (before : Heap K)
    (result : CollectionStats × Heap K) : Prop where
  /-- An object is left exactly when it could be reached, and it is unchanged. -/
  survivors : ∀ id object, result.2.get? id = some object ↔
    before.get? id = some object ∧ before.Reachable trace roots id
  marked : result.1.marked = result.2.occupied
  /-- The number of slots that became empty. -/
  freed : result.1.freed = (before.living \ result.2.living).card
  total : result.1.marked + result.1.freed = before.stats.live
  accounts : result.2.Accounts

/-- After every history of a heap, a collection frees exactly the objects that cannot be
reached from the roots, whatever the roots are, and no later allocation gives out the
handle of an object that is alive. -/
theorem collect_frees_unreachable
    (trace : K -> List ObjectId)
    (history : List (HeapOperation K))
    (roots : List ObjectId)
    (later : List (HeapOperation K))
    (prototype : Option ObjectId)
    (payload : K) :
    let heap := ({} : Heap K).after trace history
    let result := heap.collect trace roots
    let reused := result.2.after trace later
    heap.Swept trace roots result ∧
      reused.get? (reused.allocate prototype payload).1 = none := by
  intro heap result reused
  have accounts : heap.Accounts := accounts_after trace history
  have swept : result.2.Accounts := accounts.collect trace roots
  refine ⟨⟨heap.get?_collect_iff trace roots, heap.marked_eq_occupied trace roots,
    heap.freed_eq_card trace roots, ?_, swept⟩, ?_⟩
  · rw [accounts.live]
    exact heap.marked_add_freed trace roots
  · have known : reused.Accounts :=
      holds_after swept (fun _ operation accounts => accounts.apply trace operation) later
    exact known.tidy.allocated_dead prototype payload

end Heap
end ScriptVM

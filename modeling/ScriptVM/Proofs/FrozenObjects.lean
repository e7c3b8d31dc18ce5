import ScriptVM.Proofs.Collection
import ScriptVM.Proofs.Discipline.Properties
import ScriptVM.Proofs.KeptObjects
import ScriptVM.Proofs.Numerals

/-!
# Frozen objects

Freezing an object leaves it frozen, and an object is frozen just if a machine says so. What
is kept of an object is kept of its own properties and of its own keys, with the elements and
the length of arrays among them.
-/

namespace ScriptVM

variable {σ : Type}

/-! ## Array indices -/

/-- Only one key names an array index. -/
theorem PropertyKey.index_of_arrayIndex?
    {key : PropertyKey}
    {place : Nat}
    (named : key.arrayIndex? = some place) :
    PropertyKey.index place = key := by
  cases key with
  | symbol id => cases named
  | string name =>
      dsimp only [arrayIndex?] at named
      split at named
      · unfold canonicalIndex? at named
        split_ifs at named with text canonical
        dsimp only at named
        split at named
        · cases named
          simp only [Bool.or_eq_true, List.isEmpty_iff, Bool.not_eq_true',
            List.all_eq_false, not_or, not_exists, not_and, not_not] at text
          unfold index
          rw [Number.digitChars_digitsValue text.1 text.2 (by simpa using canonical),
            String.ofList_toList]
        · cases named
      · cases named

/-! ## Own properties -/

namespace HeapObject

variable {before after : HeapObject ObjectKind} {key : PropertyKey}

/-- What the table tells or not does not change. -/
theorem Keeps.tells_after
    {key? : Option PropertyKey}
    (keeps : before.Keeps key? after)
    (tells : before.Tells key) :
    after.Tells key := by
  intro store array
  have endures := keeps.payload
  rw [array] at endures
  generalize present : before.payload = payload at endures
  cases endures with
  | same => exact tells store present
  | array store => exact tells store present
  | plain _ _ _ impossible => cases impossible

end HeapObject

namespace Machine

variable {machine before after : Machine σ} {id : ObjectId}
  {object later : HeapObject ObjectKind} {key : PropertyKey} {property : Property}

theorem ordinaryOwnProperty?_of_tells
    (live : machine.heap.get? id = some object)
    (tells : object.Tells key) :
    machine.ordinaryOwnProperty? id key = object.properties.get? key := by
  rw [ordinaryOwnProperty?_of_table, Heap.getOwn?_of_live live]
  intro array
  unfold arrayStatus? at array
  rw [kind?_of_live live] at array
  cases present : object.payload with
  | array store => exact tells store present
  | _ =>
      rw [present] at array
      cases array

/-- What the table does not tell is fixed just if the array is frozen. -/
theorem ordinaryOwnProperty?_of_not_tells
    (live : machine.heap.get? id = some object)
    (untold : ¬ object.Tells key) :
    ∃ store, object.payload = .array store ∧
      (∀ property, machine.ordinaryOwnProperty? id key = some property ->
        (property.Fixed ↔ store.frozen = true)) ∧
      ((key == lengthKey) = true ∨ ∃ place, key.arrayIndex? = some place) := by
  have writable : ∀ (frozen : Bool) (value : Value) (enumerable configurable : Bool),
      (configurable = true -> frozen = false) ->
        ((Property.ofData value (!frozen) enumerable configurable).Fixed ↔ frozen = true) := by
    intro frozen value enumerable configurable loose
    cases frozen with
    | false =>
        refine ⟨fun fixed => ?_, fun impossible => ?_⟩
        · cases fixed.writable
        · cases impossible
    | true =>
        cases configurable with
        | false => exact ⟨fun _ => rfl, fun _ => ⟨rfl, rfl⟩⟩
        | true => cases loose rfl
  unfold HeapObject.Tells at untold
  push Not at untold
  obtain ⟨store, array, untold⟩ := untold
  refine ⟨store, array, fun property held => ?_, ?_⟩
  · unfold ordinaryOwnProperty? at held
    rw [kind?_of_live live, array] at held
    dsimp only at held
    split at held
    · split at held
      · cases held
      · cases held
      · cases held
        exact writable _ _ _ _ (by simp)
    · next named =>
        rw [if_pos (by simpa using untold named)] at held
        cases held
        exact writable _ _ _ _ (by simp)
  · cases named : key.arrayIndex? with
    | none => exact Or.inl (by simpa using untold named)
    | some place => exact Or.inr ⟨place, rfl⟩

/-- An own property of a live object is fixed where a kept object has it, and stays. -/
theorem ordinaryOwnProperty?_stays
    (live : before.heap.get? id = some object)
    (stands : after.heap.get? id = some later)
    {key? : Option PropertyKey}
    (keeps : object.Keeps key? later)
    (covered : ∀ only ∈ key?, only = key)
    (held : before.ordinaryOwnProperty? id key = some property)
    (fixed : property.Fixed) :
    ∃ kept, after.ordinaryOwnProperty? id key = some kept ∧ property.Stays kept := by
  by_cases tells : object.Tells key
  · rw [ordinaryOwnProperty?_of_tells live tells] at held
    rw [ordinaryOwnProperty?_of_tells stands (keeps.tells_after tells)]
    exact keeps.property key property covered held fixed
  · obtain ⟨store, array, locked, other⟩ := ordinaryOwnProperty?_of_not_tells live tells
    have frozen := (locked property held).1 fixed
    have endures := keeps.payload
    rw [array] at endures
    have same : later.payload = .array store := by
      generalize later.payload = payload at endures
      cases endures with
      | same => rfl
      | array _ _ kept => rw [kept frozen]
      | plain _ _ impossible => cases impossible
    refine ⟨property, ?_, .same property⟩
    rw [← held]
    unfold ordinaryOwnProperty?
    rw [kind?_of_live live, kind?_of_live stands, array, same]
    dsimp only
    rcases other with length | ⟨place, named⟩
    · rw [if_pos length, if_pos length]
    · rw [named]

/-! ## Own keys -/

theorem ownKeys_of_live (live : machine.heap.get? id = some object) :
    machine.heap.ownKeys id = object.properties.keys := by
  unfold Heap.ownKeys
  rw [live]
  rfl

/-- Every key in the table is among the own keys. -/
theorem mem_ordinaryOwnKeys
    (live : machine.heap.get? id = some object)
    (member : key ∈ object.properties.keys) :
    key ∈ machine.ordinaryOwnKeys id := by
  unfold ordinaryOwnKeys
  rw [ownKeys_of_live live]
  dsimp only
  cases named : key.arrayIndex? with
  | some place =>
      refine List.mem_append_left _ (List.mem_append_left _ (List.mem_append_left _ ?_))
      refine List.mem_map.2 ⟨place, ?_, PropertyKey.index_of_arrayIndex? named⟩
      exact List.mem_mergeSort.2
        (List.mem_append_right _ (List.mem_filterMap.2 ⟨key, member, named⟩))
  | none =>
      have other : key ∈ object.properties.keys.filter fun key => key.arrayIndex?.isNone :=
        List.mem_filter.2 ⟨member, by rw [named]; rfl⟩
      cases symbol : key.isSymbol with
      | true => exact List.mem_append_right _ (List.mem_filter.2 ⟨other, symbol⟩)
      | false =>
          refine List.mem_append_left _ (List.mem_append_right _ ?_)
          exact List.mem_filter.2 ⟨other, by rw [symbol]; rfl⟩

theorem length_mem_ordinaryOwnKeys
    (live : machine.heap.get? id = some object)
    {store : ArrayStore}
    (array : object.payload = .array store) :
    lengthKey ∈ machine.ordinaryOwnKeys id := by
  unfold ordinaryOwnKeys
  rw [kind?_of_live live, array]
  simp

/-- The keys of a frozen object stay. -/
theorem ordinaryOwnKeys_of_frozen
    (live : before.heap.get? id = some object)
    (stands : after.heap.get? id = some later)
    (keeps : object.Keeps none later)
    (frozen : object.Frozen) :
    after.ordinaryOwnKeys id = before.ordinaryOwnKeys id := by
  unfold ordinaryOwnKeys
  rw [kind?_of_live live, kind?_of_live stands, ownKeys_of_live live, ownKeys_of_live stands,
    (keeps.frozen rfl frozen).2]
  have endures := keeps.payload
  have elements := frozen.elements
  generalize object.payload = first, later.payload = second at endures elements
  cases endures with
  | same => rfl
  | array first second kept => rw [kept (elements first rfl)]
  | plain first second ordinary unchanged =>
      cases first with
      | array | proxy => cases ordinary
      | _ =>
          cases second with
          | array | proxy => cases unchanged
          | _ => rfl

/-! ## Frozen objects -/

/-- All that a frozen object has is fixed. -/
theorem fixed_of_frozen
    (live : machine.heap.get? id = some object)
    (frozen : object.Frozen)
    (held : machine.ordinaryOwnProperty? id key = some property) :
    property.Fixed := by
  by_cases tells : object.Tells key
  · rw [ordinaryOwnProperty?_of_tells live tells] at held
    exact frozen.properties key property tells held
  · obtain ⟨store, array, locked, _⟩ := ordinaryOwnProperty?_of_not_tells live tells
    exact (locked property held).2 (frozen.elements store array)

section Frozen

variable {holder : ObjectId} (behind : machine.behindProxies? holder = some id)
include behind

theorem getOwnProperty?_of_behind (key : PropertyKey) :
    machine.getOwnProperty? holder key = machine.ordinaryOwnProperty? id key := by
  unfold getOwnProperty?
  rw [behind, Option.bind_some]

theorem ownKeys_of_behind : machine.ownKeys holder = machine.ordinaryOwnKeys id := by
  unfold ownKeys
  rw [behind]

/-- A machine says of an object that it is frozen if it does not take new properties and all
that its own keys name is fixed. -/
theorem isFrozen_iff (live : machine.heap.get? id = some object) :
    machine.isFrozen holder = true ↔ object.extensible = false ∧
      ∀ key ∈ machine.ordinaryOwnKeys id, ∀ property,
        machine.ordinaryOwnProperty? id key = some property -> property.Fixed := by
  unfold isFrozen isExtensible Heap.isExtensible
  rw [ownKeys_of_behind behind, behind]
  dsimp only
  rw [live]
  simp only [getOwnProperty?_of_behind behind, Bool.and_eq_true, List.all_eq_true]
  refine and_congr (by simp) (forall₂_congr fun key _ => ?_)
  cases machine.ordinaryOwnProperty? id key with
  | none => simp
  | some property =>
      simp only [Bool.and_eq_true, Bool.not_eq_true', Option.some.injEq, forall_eq']
      exact ⟨fun both => ⟨both.1, both.2⟩, fun fixed => ⟨fixed.configurable, fixed.writable⟩⟩

/-- What a machine says is frozen is frozen. -/
theorem frozen_of_isFrozen
    (live : machine.heap.get? id = some object)
    (frozen : machine.isFrozen holder = true) :
    object.Frozen := by
  obtain ⟨closed, fixed⟩ := (isFrozen_iff behind live).1 frozen
  refine ⟨closed, fun store array => ?_, fun key property tells held => ?_⟩
  · have length : machine.ordinaryOwnProperty? id lengthKey =
        some (.ofData (.ofNat store.elements.size) (!store.frozen) false false) := by
      unfold ordinaryOwnProperty?
      rw [kind?_of_live live, array]
      rfl
    have readOnly := (fixed _ (length_mem_ordinaryOwnKeys live array) _ length).writable
    cases frozen : store.frozen with
    | true => rfl
    | false =>
        rw [frozen] at readOnly
        cases readOnly
  · rw [← ordinaryOwnProperty?_of_tells live tells] at held
    exact fixed key (mem_ordinaryOwnKeys live (PropertyTable.mem_keys_of_get?
      ((ordinaryOwnProperty?_of_tells live tells).symm.trans held))) property held

/-- A machine says of what is frozen that it is. -/
theorem isFrozen_of_frozen
    (live : machine.heap.get? id = some object)
    (frozen : object.Frozen) :
    machine.isFrozen holder = true :=
  (isFrozen_iff behind live).2
    ⟨frozen.closed, fun _ _ _ held => fixed_of_frozen live frozen held⟩

end Frozen

end Machine

/-! ## Freezing -/

namespace HeapObject

/-- All is as before, but the properties of these keys are fixed. -/
structure Fixes
    (keys : List PropertyKey)
    (before after : HeapObject ObjectKind) : Prop where
  payload : after.payload = before.payload
  extensible : after.extensible = before.extensible
  listed : after.properties.keys = before.properties.keys
  property : ∀ key property, after.properties.get? key = some property ->
    property.Fixed ∨ key ∉ keys ∧ before.properties.get? key = some property

namespace Fixes

variable {first second third : HeapObject ObjectKind} {key : PropertyKey}
  {rest : List PropertyKey}

theorem refl (object : HeapObject ObjectKind) : object.Fixes [] object where
  payload := rfl
  extensible := rfl
  listed := rfl
  property _ _ held := Or.inr ⟨List.not_mem_nil, held⟩

theorem trans (earlier : first.Fixes [key] second) (later : second.Fixes rest third) :
    first.Fixes (key :: rest) third where
  payload := later.payload.trans earlier.payload
  extensible := later.extensible.trans earlier.extensible
  listed := later.listed.trans earlier.listed
  property other property held := by
    rcases later.property other property held with fixed | ⟨beyond, stood⟩
    · exact Or.inl fixed
    · refine (earlier.property other property stood).imp_right fun ⟨apart, held⟩ => ⟨?_, held⟩
      exact List.not_mem_cons_of_ne_of_not_mem (fun same => apart (List.mem_singleton.2 same)) beyond

/-- A key that an object does not have needs no step. -/
theorem absent (object : HeapObject ObjectKind) (missing : object.properties.get? key = none) :
    object.Fixes [key] object where
  payload := rfl
  extensible := rfl
  listed := rfl
  property other property held := by
    refine Or.inr ⟨fun member => ?_, held⟩
    cases List.mem_singleton.1 member
    cases missing.symm.trans held

/-- Putting a fixed property in the place of another is one step. -/
theorem put
    (distinct : first.properties.keys.Nodup)
    {existing property : Property}
    (held : first.properties.get? key = some existing)
    (fixed : property.Fixed)
    (shape : ShapeId) :
    first.Fixes [key] { first with shape, properties := first.properties.put key property } := by
  obtain ⟨entry, found, _⟩ := Option.map_eq_some_iff.1 held
  have keys : (first.properties.put key property).keys = first.properties.keys :=
    PropertyTable.keys_put_of_some found
  refine ⟨rfl, rfl, keys, fun other stands placed => ?_⟩
  by_cases same : key = other
  · subst same
    cases placed.symm.trans (PropertyTable.get?_put_self distinct key property)
    exact Or.inl fixed
  · obtain ⟨stood, before⟩ := PropertyTable.exists_get?_of_mem
      (keys ▸ PropertyTable.mem_keys_of_get? placed)
    cases placed.symm.trans (PropertyTable.get?_put_of_ne distinct before same)
    exact Or.inr ⟨fun member => same (List.mem_singleton.1 member).symm, before⟩

end Fixes
end HeapObject

namespace Machine

variable {machine : Machine σ} {id : ObjectId} {heap : Heap ObjectKind}
  {object : HeapObject ObjectKind}

theorem freezeKey_fixes
    (live : heap.get? id = some object)
    (distinct : object.properties.keys.Nodup)
    (key : PropertyKey) :
    ∃ later, (freezeKey heap id key).get? id = some later ∧ object.Fixes [key] later := by
  unfold freezeKey
  rw [Heap.getOwn?_of_live live]
  cases held : object.properties.get? key with
  | none => exact ⟨object, live, .absent object held⟩
  | some property =>
      obtain ⟨shape, made⟩ := Heap.exists_get?_define live key (frozenProperty property)
      exact ⟨_, made, .put distinct held (Property.fixed_frozenProperty property) shape⟩

theorem freezeKeys_fixes
    (keys : List PropertyKey)
    (live : heap.get? id = some object)
    (distinct : object.properties.keys.Nodup) :
    ∃ later, (keys.foldl (fun heap key => freezeKey heap id key) heap).get? id = some later ∧
      object.Fixes keys later := by
  induction keys generalizing heap object with
  | nil => exact ⟨object, live, .refl object⟩
  | cons key rest step =>
      obtain ⟨middle, made, fixes⟩ := freezeKey_fixes live distinct key
      obtain ⟨later, stands, further⟩ := step made (fixes.listed ▸ distinct)
      exact ⟨later, stands, fixes.trans further⟩

/-- What freezing leaves is frozen. -/
theorem frozen_freezeKeys
    (live : heap.get? id = some object)
    (distinct : object.properties.keys.Nodup)
    (closed : object.extensible = false)
    (elements : ∀ store, object.payload = .array store -> store.frozen = true) :
    ∃ later, ((heap.ownKeys id).foldl (fun heap key => freezeKey heap id key) heap).get? id =
      some later ∧ later.payload = object.payload ∧ later.Frozen := by
  obtain ⟨later, stands, fixes⟩ := freezeKeys_fixes (heap.ownKeys id) live distinct
  refine ⟨later, stands, fixes.payload, fixes.extensible.trans closed, fun store array => ?_,
    fun key property _ held => ?_⟩
  · exact elements store (fixes.payload.symm.trans array)
  · refine (fixes.property key property held).resolve_right fun ⟨beyond, before⟩ => beyond ?_
    unfold Heap.ownKeys
    rw [live]
    exact PropertyTable.mem_keys_of_get? before

theorem freeze_of_bare
    (bare : machine.isProxy id = false)
    (froze : (machine.freeze id).1 = true) :
    machine.heap.contains id = true ∧ (machine.freeze id).2 = machine.modifyHeap fun heap =>
      let heap := (heap.preventExtensions id).modifyPayload id freezeElements
      (heap.ownKeys id).foldl (fun heap key => freezeKey heap id key) heap := by
  unfold freeze at froze ⊢
  rw [behindProxies?_of_bare bare] at froze ⊢
  dsimp only at froze ⊢
  split at froze
  · next alive =>
      rw [if_pos alive]
      exact ⟨alive, rfl⟩
  · cases froze

/-- An object that is no proxy is frozen after it was frozen. -/
theorem isFrozen_freeze
    {layout : Layout}
    (laid : machine.heap.Laid layout)
    (bare : machine.isProxy id = false)
    (froze : (machine.freeze id).1 = true) :
    (machine.freeze id).2.isFrozen id = true := by
  obtain ⟨alive, frozen⟩ := freeze_of_bare bare froze
  obtain ⟨object, live⟩ := Heap.contains_iff.1 alive
  have closed : ((machine.heap.preventExtensions id).modifyPayload id freezeElements).get? id =
      some { object with extensible := false, payload := freezeElements object.payload } := by
    unfold Heap.modifyPayload Heap.preventExtensions
    rw [Heap.get?_modify_self, Heap.get?_modify_self, live]
    rfl
  have elements : ∀ store, freezeElements object.payload = .array store ->
      store.frozen = true := by
    intro store array
    cases payload : object.payload with
    | array before =>
        rw [payload] at array
        cases array
        rfl
    | _ =>
        rw [payload] at array
        cases array
  obtain ⟨later, stands, slots, kept⟩ :=
    frozen_freezeKeys closed (laid.objects id object live).distinct rfl elements
  have stood : (machine.freeze id).2.heap.get? id = some later := frozen ▸ stands
  generalize (machine.freeze id).2 = after at stood
  refine isFrozen_of_frozen (behindProxies?_of_bare ?_) stood kept
  have before := isProxy_of_live bare live
  unfold isProxy
  rw [kind?_of_live stood, slots]
  cases payload : object.payload with
  | proxy =>
      rw [payload] at before
      cases before
  | _ => rfl

end Machine
end ScriptVM

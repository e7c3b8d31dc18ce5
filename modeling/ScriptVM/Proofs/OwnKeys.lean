import Mathlib.Data.List.Sort
import ScriptVM.Proofs.CachedReads
import ScriptVM.Proofs.FrozenObjects

/-!
# Own keys

Which keys an object owns, and in which order they are listed. A change of some properties of
one object leaves the others, their order, and all other objects as they are.
-/

namespace ScriptVM

variable {σ : Type}

/-! ## Property tables -/

namespace PropertyTable

variable {table : PropertyTable} {key : PropertyKey} {property : Property}

theorem keys_put_of_none (missing : table.get? key = none) :
    (table.put key property).keys = table.keys ++ [key] := by
  unfold put
  rw [Option.map_eq_none_iff.1 missing]
  exact keys_append table key property

/-- The keys of a table after one of them was put into it. -/
theorem mem_keys_put {other : PropertyKey} :
    other ∈ (table.put key property).keys ↔ other ∈ table.keys ∨ other = key := by
  cases held : table.get? key with
  | none => rw [keys_put_of_none held, List.mem_append, List.mem_singleton]
  | some existing =>
      obtain ⟨entry, found, _⟩ := Option.map_eq_some_iff.1 held
      rw [keys_put_of_some found]
      refine ⟨.inl, fun listed => listed.elim id ?_⟩
      rintro rfl
      exact mem_keys_of_get? held

theorem get?_eq_none_iff : table.get? key = none ↔ key ∉ table.keys := by
  refine ⟨fun missing listed => ?_, fun absent => ?_⟩
  · obtain ⟨property, held⟩ := exists_get?_of_mem listed
    cases missing.symm.trans held
  · cases held : table.get? key with
    | none => rfl
    | some property => exact absurd (mem_keys_of_get? held) absent

/-- Putting a property into a table concerns its key alone. -/
theorem get?_put (distinct : table.keys.Nodup) {other : PropertyKey} (apart : other ≠ key) :
    (table.put key property).get? other = table.get? other := by
  cases held : table.get? other with
  | some found => exact get?_put_of_ne distinct held apart.symm
  | none =>
      rw [get?_eq_none_iff, mem_keys_put, not_or]
      exact ⟨get?_eq_none_iff.1 held, apart⟩

end PropertyTable

/-! ## Elements -/

/-- An element of an array that is not missing. -/
def ArrayStore.own? (store : ArrayStore) (index : Nat) : Option Value :=
  store.elements[index]?.filter fun value => !value.isHole

theorem ArrayStore.own?_of_size_le
    {store : ArrayStore}
    {place : Nat}
    (beyond : store.elements.size <= place) :
    store.own? place = none := by
  unfold own?
  rw [Array.getElem?_eq_none beyond]
  rfl

namespace Machine

variable {store : ArrayStore} {object : HeapObject ObjectKind}

variable {machine before after : Machine σ} {id : ObjectId} {key : PropertyKey}
  {changed : PropertyKey -> Prop}

/-- What an array owns under an index. -/
theorem ordinaryOwnProperty?_of_index
    (array : machine.kind? id = some (.array store))
    {index : Nat}
    (indexed : key.arrayIndex? = some index) :
    machine.ordinaryOwnProperty? id key = (store.own? index).map fun value =>
      .ofData value (!store.frozen) true (!store.frozen) := by
  unfold ordinaryOwnProperty? ArrayStore.own?
  rw [array]
  dsimp only
  rw [indexed]
  dsimp only
  cases store.elements[index]? with
  | none => rfl
  | some value => cases value <;> rfl

theorem ordinaryOwnProperty?_of_length
    (array : machine.kind? id = some (.array store)) :
    machine.ordinaryOwnProperty? id lengthKey =
      some (.ofData (.ofNat store.elements.size) (!store.frozen) false false) := by
  unfold ordinaryOwnProperty?
  rw [array]
  rfl

theorem mem_elementIndices {start place : Nat} {elements : List Value} :
    place ∈ elementIndices start elements ↔ start <= place ∧
      (elements[place - start]?.filter fun value => !value.isHole).isSome = true := by
  induction elements generalizing start with
  | nil => simp [elementIndices]
  | cons first rest step =>
      have later : ∀ {place}, start + 1 <= place ->
          (first :: rest)[place - start]? = rest[place - (start + 1)]? := fun {place} beyond => by
        rw [show place - start = place - (start + 1) + 1 by omega, List.getElem?_cons_succ]
      cases hole : first.isHole with
      | true =>
          have skipped : elementIndices start (first :: rest) =
              elementIndices (start + 1) rest := by
            cases first <;> first | rfl | cases hole
          rw [skipped, step]
          rcases Nat.lt_trichotomy place start with below | rfl | above
          · simp [Nat.not_le_of_lt below, Nat.not_le_of_lt (Nat.lt_succ_of_lt below)]
          · simp [hole]
          · simp [later above, Nat.le_of_lt above, Nat.succ_le_of_lt above]
      | false =>
          have listed : elementIndices start (first :: rest) =
              start :: elementIndices (start + 1) rest := by
            cases first <;> first | rfl | cases hole
          rw [listed, List.mem_cons, step]
          rcases Nat.lt_trichotomy place start with below | rfl | above
          · simp [Nat.ne_of_lt below, Nat.not_le_of_lt below,
              Nat.not_le_of_lt (Nat.lt_succ_of_lt below)]
          · simp [hole]
          · simp [later above, Nat.ne_of_gt above, Nat.le_of_lt above, Nat.succ_le_of_lt above]

theorem pairwise_elementIndices (start : Nat) (elements : List Value) :
    (elementIndices start elements).Pairwise (· < ·) := by
  induction elements generalizing start with
  | nil => exact .nil
  | cons first rest step =>
      cases first with
      | hole => exact step (start + 1)
      | _ =>
          refine .cons (fun place member => ?_) (step (start + 1))
          exact Nat.lt_of_succ_le (mem_elementIndices.1 member).1

theorem mem_elementIndices_store {store : ArrayStore} {place : Nat} :
    place ∈ elementIndices 0 store.elements.toList ↔ (store.own? place).isSome = true := by
  rw [mem_elementIndices]
  unfold ArrayStore.own?
  simp

/-- Of the indices, those are the same whose elements are missing before and after. -/
theorem filter_elementIndices
    {first second : ArrayStore}
    {kept : Nat -> Bool}
    (same : ∀ place, kept place = true ->
      ((second.own? place).isSome = true ↔ (first.own? place).isSome = true)) :
    (elementIndices 0 second.elements.toList).filter kept =
      (elementIndices 0 first.elements.toList).filter kept := by
  refine List.Pairwise.eq_of_mem_iff ((pairwise_elementIndices 0 _).filter _)
    ((pairwise_elementIndices 0 _).filter _) fun place => ?_
  simp only [List.mem_filter, mem_elementIndices_store]
  exact ⟨fun ⟨owned, keep⟩ => ⟨(same place keep).1 owned, keep⟩,
    fun ⟨owned, keep⟩ => ⟨(same place keep).2 owned, keep⟩⟩

/-! ## The order of own keys -/

/-- The order in which keys are listed: the indices of elements and of other keys ascending, the
length, strings and symbols. -/
def arrangeKeys (elements : List Nat) (length keys : List PropertyKey) : List PropertyKey :=
  let indices := (elements ++ keys.filterMap PropertyKey.arrayIndex?).mergeSort
  let others := keys.filter fun key => key.arrayIndex?.isNone
  indices.map PropertyKey.index ++ length ++
    others.filter (fun key => !key.isSymbol) ++ others.filter PropertyKey.isSymbol

/-- The indices of the elements that an object owns. -/
def ownElements (machine : Machine σ) (id : ObjectId) : List Nat :=
  match machine.kind? id with
  | some (.array store) => elementIndices 0 store.elements.toList
  | _ => []

/-- The length, for an array. -/
def ownLength (machine : Machine σ) (id : ObjectId) : List PropertyKey :=
  match machine.kind? id with
  | some (.array _) => [lengthKey]
  | _ => []

theorem ordinaryOwnKeys_eq (machine : Machine σ) (id : ObjectId) :
    machine.ordinaryOwnKeys id =
      arrangeKeys (machine.ownElements id) (machine.ownLength id) (machine.heap.ownKeys id) := by
  unfold ordinaryOwnKeys ownElements ownLength
  cases machine.kind? id with
  | none => rfl
  | some kind => cases kind <;> rfl

theorem filter_mergeSort (kept : Nat -> Bool) (places : List Nat) :
    places.mergeSort.filter kept = (places.filter kept).mergeSort := by
  have perm : (places.mergeSort.filter kept).Perm (places.filter kept).mergeSort :=
    ((List.mergeSort_perm places _).filter kept).trans (List.mergeSort_perm _ _).symm
  exact perm.eq_of_pairwise' ((List.pairwise_mergeSort' (· <= ·) _).filter _)
    (List.pairwise_mergeSort' (· <= ·) _)

/-- Leaving out keys does not change the order of the others. -/
theorem filter_arrangeKeys
    (kept : PropertyKey -> Bool)
    (elements : List Nat)
    (length keys : List PropertyKey) :
    (arrangeKeys elements length keys).filter kept =
      arrangeKeys (elements.filter fun place => kept (.index place)) (length.filter kept)
        (keys.filter kept) := by
  have indices :
      (keys.filterMap PropertyKey.arrayIndex?).filter (fun place => kept (.index place)) =
        (keys.filter kept).filterMap PropertyKey.arrayIndex? := by
    induction keys with
    | nil => rfl
    | cons key rest step =>
        cases indexed : key.arrayIndex? with
        | none =>
            rw [List.filterMap_cons_none indexed, step, List.filter_cons]
            split
            · rw [List.filterMap_cons_none indexed]
            · rfl
        | some place =>
            rw [List.filterMap_cons_some indexed, List.filter_cons, List.filter_cons, step,
              PropertyKey.index_of_arrayIndex? indexed]
            split
            · rw [List.filterMap_cons_some indexed]
            · rfl
  have others : ∀ some : PropertyKey -> Bool,
      ((keys.filter fun key => key.arrayIndex?.isNone).filter some).filter kept =
        ((keys.filter kept).filter fun key => key.arrayIndex?.isNone).filter some := by
    intro some
    simp only [List.filter_filter]
    refine List.filter_congr fun key _ => ?_
    rw [Bool.and_comm, Bool.and_assoc]
  unfold arrangeKeys
  simp only [List.filter_append, List.filter_map, others]
  rw [← indices, ← List.filter_append, ← filter_mergeSort]
  rfl

theorem mem_arrangeKeys {elements : List Nat} {length keys : List PropertyKey} :
    key ∈ arrangeKeys elements length keys ↔
      (∃ place ∈ elements, PropertyKey.index place = key) ∨ key ∈ length ∨ key ∈ keys := by
  have listed : key ∈ keys ↔ (∃ place ∈ keys.filterMap PropertyKey.arrayIndex?,
      PropertyKey.index place = key) ∨ key ∈ keys ∧ key.arrayIndex? = none := by
    constructor
    · intro member
      cases indexed : key.arrayIndex? with
      | none => exact .inr ⟨member, rfl⟩
      | some place =>
          exact .inl ⟨place, List.mem_filterMap.2 ⟨key, member, indexed⟩,
            PropertyKey.index_of_arrayIndex? indexed⟩
    · rintro (⟨place, member, rfl⟩ | ⟨member, -⟩)
      · obtain ⟨key, member, indexed⟩ := List.mem_filterMap.1 member
        exact PropertyKey.index_of_arrayIndex? indexed ▸ member
      · exact member
  rw [listed]
  unfold arrangeKeys
  simp only [List.mem_append, List.mem_map, List.mem_mergeSort, List.mem_filter,
    Option.isNone_iff_eq_none]
  cases key.isSymbol <;> grind

/-- What an object owns: for an array its length and the elements that are not missing, and all
that is in its table. -/
theorem mem_ordinaryOwnKeys_iff
    (live : machine.heap.get? id = some object) :
    key ∈ machine.ordinaryOwnKeys id ↔
      (∃ store, object.payload = .array store ∧ (key = lengthKey ∨
        ∃ place, PropertyKey.index place = key ∧ (store.own? place).isSome = true)) ∨
      key ∈ object.properties.keys := by
  rw [ordinaryOwnKeys_eq, mem_arrangeKeys, ownKeys_of_live live, ← or_assoc]
  refine or_congr_left ?_
  unfold ownElements ownLength
  rw [kind?_of_live live]
  cases object.payload with
  | array store =>
      simp only [mem_elementIndices_store, List.mem_singleton]
      grind
  | _ => simp

/-- What an object has a property for is among its own keys. -/
theorem mem_ownKeys_of_own
    {holder : ObjectId}
    {property : Property}
    (held : machine.getOwnProperty? holder key = some property) :
    key ∈ machine.ownKeys holder := by
  unfold getOwnProperty? at held
  obtain ⟨id, behind, held⟩ := Option.bind_eq_some_iff.1 held
  rw [ownKeys_of_behind behind]
  cases found : machine.heap.get? id with
  | none =>
      unfold ordinaryOwnProperty? kind? Heap.payload? Heap.getOwn? at held
      rw [found] at held
      cases held
  | some object =>
      rw [mem_ordinaryOwnKeys_iff found]
      by_cases tells : object.Tells key
      · rw [ordinaryOwnProperty?_of_tells found tells] at held
        exact .inr (PropertyTable.mem_keys_of_get? held)
      · obtain ⟨store, array, _, exotic⟩ := ordinaryOwnProperty?_of_not_tells found tells
        refine .inl ⟨store, array, ?_⟩
        rcases exotic with length | ⟨place, named⟩
        · exact .inl (eq_of_beq length)
        · refine .inr ⟨place, PropertyKey.index_of_arrayIndex? named, ?_⟩
          rw [ordinaryOwnProperty?_of_index
            ((kind?_of_live found).trans (congrArg some array)) named] at held
          cases owned : store.own? place with
          | some value => rfl
          | none =>
              rw [owned] at held
              cases held

/-! ## Changes of some properties -/

/-- All that differs between two machines are properties of one object under some keys. Any
choice of other keys is listed in the same order. -/
structure ChangesOnly (changed : PropertyKey -> Prop) (id : ObjectId)
    (before after : Machine σ) : Prop where
  outside : after = { before with heap := after.heap }
  objects : ∀ other, other ≠ id -> after.heap.get? other = before.heap.get? other
  prototype : after.heap.prototypeOf id = before.heap.prototypeOf id
  extensible : after.isExtensible id = before.isExtensible id
  /-- Internal slots stay, up to the elements of an array. -/
  slots : ∀ kind, before.kind? id = some kind -> after.kind? id = some kind ∨
    ∃ store elements, kind = .array store ∧ after.kind? id = some (.array { store with elements })
  property : ∀ key, ¬ changed key ->
    after.getOwnProperty? id key = before.getOwnProperty? id key
  keys : ∀ kept : PropertyKey -> Bool, (∀ key, changed key -> kept key = false) ->
    (after.ownKeys id).filter kept = (before.ownKeys id).filter kept

theorem ChangesOnly.refl (machine : Machine σ) : machine.ChangesOnly changed id machine where
  outside := rfl
  objects _ _ := rfl
  prototype := rfl
  extensible := rfl
  slots _ present := .inl present
  property _ _ := rfl
  keys _ _ := rfl

/-- An object that is no proxy before a change that keeps its kind is none afterwards. -/
theorem getOwnProperty?_of_kind?
    (kind : after.kind? id = before.kind? id)
    (bare : before.isProxy id = false)
    (key : PropertyKey) :
    after.getOwnProperty? id key = after.ordinaryOwnProperty? id key := by
  refine getOwnProperty?_of_behind (behindProxies?_of_bare ?_) key
  unfold isProxy
  rw [kind]
  exact bare

/-- The property that a definition leaves in the table. -/
theorem getOwn?_defineRaw
    (live : machine.heap.get? id = some object)
    (distinct : object.properties.keys.Nodup)
    (key : PropertyKey)
    (property : Property) :
    (machine.defineRaw id key property).heap.getOwn? id key = some property := by
  obtain ⟨shape, made⟩ : ∃ shape, (machine.defineRaw id key property).heap.get? id =
      some { object with shape, properties := object.properties.put key property } :=
    Heap.exists_get?_define live key property
  rw [Heap.getOwn?_of_live made]
  exact PropertyTable.get?_put_self distinct key property

namespace ChangesOnly

variable {object : HeapObject ObjectKind}

/-- It is enough to look at the object and at what it was. -/
theorem of_live
    {object later : HeapObject ObjectKind}
    (live : before.heap.get? id = some object)
    (stands : after.heap.get? id = some later)
    (bare : object.payload.isProxy = false)
    (slots : later.payload = object.payload ∨ ∃ store elements,
      object.payload = .array store ∧ later.payload = .array { store with elements })
    (outside : after = { before with heap := after.heap })
    (objects : ∀ other, other ≠ id -> after.heap.get? other = before.heap.get? other)
    (prototype : later.prototype = object.prototype)
    (extensible : later.extensible = object.extensible)
    (property : ∀ key, ¬ changed key ->
      after.ordinaryOwnProperty? id key = before.ordinaryOwnProperty? id key)
    (keys : ∀ kept : PropertyKey -> Bool, (∀ key, changed key -> kept key = false) ->
      (after.ordinaryOwnKeys id).filter kept = (before.ordinaryOwnKeys id).filter kept) :
    before.ChangesOnly changed id after := by
  have behind : before.behindProxies? id = some id := by
    refine behindProxies?_of_bare ?_
    unfold isProxy
    rw [kind?_of_live live]
    exact bare
  have itself : after.behindProxies? id = some id := by
    refine behindProxies?_of_bare ?_
    unfold isProxy
    rw [kind?_of_live stands]
    rcases slots with same | ⟨store, elements, _, same⟩
    · rw [same]
      exact bare
    · rw [same]
      rfl
  refine ⟨outside, objects, ?_, ?_, fun kind present => ?_, fun key same => ?_,
    fun kept drops => ?_⟩
  · unfold Heap.prototypeOf
    rw [live, stands]
    exact prototype
  · unfold isExtensible Heap.isExtensible
    rw [behind, itself]
    dsimp only
    rw [live, stands]
    exact congrArg (fun flag => (some flag).getD false) extensible
  · rw [kind?_of_live stands]
    cases present.symm.trans (kind?_of_live live)
    rcases slots with same | ⟨store, elements, array, same⟩
    · exact .inl (congrArg some same)
    · exact .inr ⟨store, elements, array, congrArg some same⟩
  · rw [getOwnProperty?_of_behind behind, getOwnProperty?_of_behind itself]
    exact property key same
  · rw [ownKeys_of_behind behind, ownKeys_of_behind itself]
    exact keys kept drops

/-- One change after another is a change under the keys of both. -/
theorem trans
    {middle : Machine σ}
    {first second : PropertyKey -> Prop}
    (earlier : before.ChangesOnly first id middle)
    (later : middle.ChangesOnly second id after)
    (within : ∀ key, first key -> changed key)
    (also : ∀ key, second key -> changed key) :
    before.ChangesOnly changed id after where
  outside := by
    rw [later.outside, earlier.outside]
  objects other apart := (later.objects other apart).trans (earlier.objects other apart)
  prototype := later.prototype.trans earlier.prototype
  extensible := later.extensible.trans earlier.extensible
  slots kind present := by
    rcases earlier.slots kind present with same | ⟨store, elements, rfl, set⟩
    · exact later.slots kind same
    · rcases later.slots _ set with same | ⟨_, others, array, again⟩
      · exact .inr ⟨store, elements, rfl, same⟩
      · cases array
        exact .inr ⟨store, others, rfl, again⟩
  property key apart := (later.property key fun altered => apart (also key altered)).trans
    (earlier.property key fun altered => apart (within key altered))
  keys kept drops := (later.keys kept fun key altered => drops key (also key altered)).trans
    (earlier.keys kept fun key altered => drops key (within key altered))

/-- Putting a property into the table of an object that is no proxy changes nothing else. -/
theorem defineRaw
    (live : machine.heap.get? id = some object)
    (distinct : object.properties.keys.Nodup)
    (bare : object.payload.isProxy = false)
    (key : PropertyKey)
    (property : Property) :
    machine.ChangesOnly (· = key) id (machine.defineRaw id key property) := by
  obtain ⟨shape, made⟩ : ∃ shape, (machine.defineRaw id key property).heap.get? id =
      some { object with shape, properties := object.properties.put key property } :=
    Heap.exists_get?_define live key property
  have kind : (machine.defineRaw id key property).kind? id = machine.kind? id :=
    Heap.payload?_define ..
  have table : ∀ kept : PropertyKey -> Bool, kept key = false ->
      (object.properties.put key property).keys.filter kept =
        object.properties.keys.filter kept := by
    intro kept drops
    cases held : object.properties.get? key with
    | none =>
        rw [PropertyTable.keys_put_of_none held, List.filter_append]
        simp [drops]
    | some existing =>
        obtain ⟨entry, found, _⟩ := Option.map_eq_some_iff.1 held
        rw [PropertyTable.keys_put_of_some found]
  refine .of_live live made bare (.inl rfl) rfl (fun other apart => ?_) rfl rfl
    (fun other apart => ?_) fun kept drops => ?_
  · exact Heap.get?_define_of_ne apart.symm key property
  · have own : (machine.defineRaw id key property).heap.getOwn? id other =
        machine.heap.getOwn? id other := by
      rw [Heap.getOwn?_of_live live, Heap.getOwn?_of_live made]
      exact PropertyTable.get?_put distinct apart
    unfold ordinaryOwnProperty?
    rw [kind, own]
  · rw [ordinaryOwnKeys_eq, ordinaryOwnKeys_eq, filter_arrangeKeys, filter_arrangeKeys,
      ownKeys_of_live live, ownKeys_of_live made, table kept (drops key rfl)]
    unfold ownElements ownLength
    rw [kind]

/-- A change of the elements of an array concerns its length and those elements. -/
theorem modifyElements
    (live : machine.heap.get? id = some object)
    {store : ArrayStore}
    (array : object.payload = .array store)
    (change : Array Value -> Array Value)
    (length : changed lengthKey)
    (elements : ∀ index, ¬ changed (.index index) ->
      ArrayStore.own? { store with elements := change store.elements } index = store.own? index) :
    machine.ChangesOnly changed id (machine.modifyElements id change) := by
  have made : (machine.modifyElements id change).heap.get? id =
      some { object with payload := .array { store with elements := change store.elements } } := by
    unfold Machine.modifyElements modifyHeap Heap.modifyPayload
    rw [Heap.get?_modify_self, live, Option.map_some, array]
  have before : machine.kind? id = some (.array store) := (kind?_of_live live).trans
    (congrArg some array)
  have after : (machine.modifyElements id change).kind? id =
      some (.array { store with elements := change store.elements }) := kind?_of_live made
  refine .of_live live made (by rw [array]; rfl) (.inr ⟨store, _, array, rfl⟩) rfl
    (fun other apart => ?_) rfl rfl (fun key same => ?_) fun kept drops => ?_
  · exact Heap.get?_modify_of_ne _ apart.symm _
  · cases indexed : key.arrayIndex? with
    | some index =>
        rw [ordinaryOwnProperty?_of_index before indexed,
          ordinaryOwnProperty?_of_index after indexed,
          elements index (by rw [PropertyKey.index_of_arrayIndex? indexed]; exact same)]
    | none =>
        have other : ¬ (key == lengthKey) = true :=
          fun equal => same (eq_of_beq equal ▸ length)
        unfold ordinaryOwnProperty?
        rw [before, after]
        dsimp only
        rw [indexed]
        dsimp only
        rw [if_neg other, if_neg other, Heap.getOwn?_of_live live, Heap.getOwn?_of_live made]
  · rw [ordinaryOwnKeys_eq, ordinaryOwnKeys_eq, filter_arrangeKeys, filter_arrangeKeys,
      ownKeys_of_live live, ownKeys_of_live made]
    unfold ownElements ownLength
    rw [before, after]
    dsimp only
    have owned : ∀ place, kept (.index place) = true ->
        ((ArrayStore.own? { store with elements := change store.elements } place).isSome = true ↔
          (store.own? place).isSome = true) := by
      intro place keep
      have unchanged : ¬ changed (.index place) := fun altered => by
        rw [drops _ altered] at keep
        cases keep
      rw [elements place unchanged]
    have indices := filter_elementIndices owned
    dsimp only at indices
    rw [indices]

/-- What is no proxy does not become one. -/
theorem isProxy
    (changes : before.ChangesOnly changed id after)
    (live : before.heap.contains id = true)
    (bare : before.isProxy id = false) :
    after.isProxy id = false := by
  obtain ⟨object, live⟩ := Heap.contains_iff.1 live
  have present := kind?_of_live live
  unfold Machine.isProxy at bare ⊢
  rcases changes.slots _ present with same | ⟨store, elements, _, same⟩
  · rw [same, ← present]
    exact bare
  · rw [same]
    rfl

theorem mem_ownKeys (changes : before.ChangesOnly changed id after) (apart : ¬ changed key) :
    key ∈ after.ownKeys id ↔ key ∈ before.ownKeys id := by
  have same := changes.keys (fun other => other == key) fun other altered =>
    beq_eq_false_iff_ne.2 fun equal => apart (equal ▸ altered)
  have listed : ∀ keys : List PropertyKey, key ∈ keys.filter (· == key) ↔ key ∈ keys :=
    fun keys => List.mem_filter.trans (and_iff_left (beq_self_eq_true key))
  rw [← listed, same, listed]

end ChangesOnly
end Machine

/-- The heap of a visible sight is in order. -/
theorem Sight.Visible.laid {sight : Sight σ} (visible : sight.Visible) :
    ∃ layout, sight.machine.heap.Laid layout := by
  obtain ⟨_, _, _, layout, remembers⟩ := visible.reached.2.remembers
  exact ⟨layout, remembers.laid⟩

end ScriptVM

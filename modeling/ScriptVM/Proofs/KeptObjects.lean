import Mathlib
import ScriptVM.Machine.Objects
import ScriptVM.Proofs.Collection
import ScriptVM.Proofs.Discipline

/-!
# Fixed properties and what objects keep

What cannot be changed about a property, and which guarded changes of the heap keep it so.
-/

/-!
## Fixed properties

A property is fixed if it is neither configurable nor writable. What freezing or a compatible
descriptor makes of a fixed property is the property itself, or at most an accessor with
halves that count as equal.
-/

namespace ScriptVM

/-! ## Same values -/

namespace Value

variable {left right : Value}

theorem eq_of_strictlyEquals
    (other : ∀ number, left ≠ .number number)
    (equal : left.strictlyEquals right = true) :
    left = right := by
  cases left <;> cases right <;> simp_all [strictlyEquals]

/-- Values are the same only if they are equal: there is one number that is none, and the
zeros differ in their signs. -/
theorem eq_of_same (same : left.same right = true) : left = right := by
  have positive : Number.isNegative 0 = false := by decide +kernel
  have negative : Number.isNegative (-0) = true := by decide +kernel
  cases left with
  | number left =>
      cases right with
      | number right =>
          simp only [Value.same, Bool.or_eq_true, Bool.and_eq_true, Float.isNaN_eq_decide_eq_nan,
            decide_eq_true_eq, Float.beq_iff_ne_nan_and_eq, beq_iff_eq] at same
          rcases same with ⟨rfl, rfl⟩ | ⟨⟨-, -, rfl | ⟨rfl, rfl⟩ | ⟨rfl, rfl⟩⟩, signs⟩
          · rfl
          · rfl
          · rw [positive, negative] at signs
            cases signs
          · rw [positive, negative] at signs
            cases signs
      | _ => cases same
  | _ => exact eq_of_strictlyEquals (by simp) same

/-- Values that are one, or numbers that are equal. -/
inductive Alike : Value -> Value -> Prop
  | refl (value : Value) : Alike value value
  | numbers (left right : Float) : (left == right) = true -> Alike (.number left) (.number right)

theorem alike_of_strictlyEquals (equal : left.strictlyEquals right = true) : left.Alike right := by
  cases left with
  | number left =>
      cases right with
      | number right => exact .numbers left right equal
      | _ => cases equal
  | _ => exact eq_of_strictlyEquals (by simp) equal ▸ .refl _

theorem Alike.trans
    {first second third : Value}
    (earlier : first.Alike second)
    (later : second.Alike third) :
    first.Alike third := by
  cases earlier with
  | refl => exact later
  | numbers left middle equal =>
      cases later with
      | refl => exact .numbers left middle equal
      | numbers _ right next =>
          refine .numbers left right ?_
          rw [Float.beq_iff_ne_nan_and_eq] at equal next ⊢
          obtain ⟨some, _, equal⟩ := equal
          obtain ⟨_, other, next⟩ := next
          refine ⟨some, other, ?_⟩
          rcases equal with rfl | ⟨rfl, rfl⟩ | ⟨rfl, rfl⟩
          · exact next
          · rcases next with rfl | ⟨_, rfl⟩ | ⟨_, rfl⟩
            · exact Or.inr (Or.inl ⟨rfl, rfl⟩)
            · exact Or.inr (Or.inl ⟨rfl, rfl⟩)
            · exact Or.inl rfl
          · rcases next with rfl | ⟨_, rfl⟩ | ⟨_, rfl⟩
            · exact Or.inr (Or.inr ⟨rfl, rfl⟩)
            · exact Or.inl rfl
            · exact Or.inr (Or.inr ⟨rfl, rfl⟩)

end Value

/-! ## Properties -/

namespace Property

/-- Nothing may change the property any more. -/
structure Fixed (property : Property) : Prop where
  configurable : property.configurable = false
  writable : property.isWritable = false

/-- What a fixed property may turn into: data stays as it is, and an accessor keeps its
attributes and halves that are alike. -/
inductive Stays : Property -> Property -> Prop
  | same (property : Property) : Stays property property
  | accessors {getter setter laterGetter laterSetter : Value}
      (enumerable configurable : Bool) :
      laterGetter.Alike getter -> laterSetter.Alike setter ->
      Stays (.ofAccessors getter setter enumerable configurable)
        (.ofAccessors laterGetter laterSetter enumerable configurable)

namespace Stays

variable {first second third : Property}

theorem trans (earlier : first.Stays second) (later : second.Stays third) :
    first.Stays third := by
  cases earlier with
  | same => exact later
  | accessors enumerable configurable getters setters =>
      cases later with
      | same => exact .accessors enumerable configurable getters setters
      | accessors _ _ laterGetters laterSetters =>
          exact .accessors enumerable configurable (laterGetters.trans getters)
            (laterSetters.trans setters)

theorem fixed (stays : first.Stays second) (fixed : first.Fixed) :
    second.Fixed := by
  cases stays with
  | same => exact fixed
  | accessors => exact ⟨fixed.configurable, rfl⟩

theorem eq_of_isData (stays : first.Stays second) (data : first.isData = true) :
    second = first := by
  cases stays with
  | same => rfl
  | accessors => cases data

end Stays

/-- Freezing finds nothing to do. -/
theorem Fixed.frozen {property : Property} (fixed : property.Fixed) :
    Machine.frozenProperty property = property := by
  obtain ⟨slot, enumerable, configurable⟩ := property
  obtain ⟨rfl, writable⟩ := fixed
  cases slot with
  | data value flag =>
      cases writable
      rfl
  | accessor getter setter => rfl

theorem fixed_frozenProperty (property : Property) : (Machine.frozenProperty property).Fixed := by
  obtain ⟨slot, enumerable, configurable⟩ := property
  cases slot <;> exact ⟨rfl, rfl⟩

end Property

namespace Descriptor

variable {descriptor : Descriptor} {current : Property} {enumerable : Bool}

/-- What a field comes to that may only ask for what is there. -/
theorem getD_of_all
    {α : Type}
    {asked : Option α}
    {held : α}
    (same : ∀ answer, asked = some answer -> answer = held) :
    asked.getD held = held := by
  cases asked with
  | none => rfl
  | some answer => exact same answer rfl

theorem attributes_merge
    (locked : current.configurable = false)
    (compatible : descriptor.isCompatible current = true) :
    (descriptor.merge (some current)).enumerable = current.enumerable ∧
      (descriptor.merge (some current)).configurable = false := by
  unfold isCompatible at compatible
  rw [if_neg (by simp [locked])] at compatible
  split at compatible
  · cases compatible
  · next configures =>
      split at compatible
      · cases compatible
      · next enumerates =>
          unfold merge
          constructor
          · cases asked : descriptor.enumerable with
            | none => rfl
            | some answer => simpa [asked] using enumerates
          · cases asked : descriptor.configurable with
            | none => exact locked
            | some answer => simpa [asked] using configures

/-- A compatible descriptor leaves data that is fixed. -/
theorem mergeSlot_data
    {value : Value}
    (compatible : descriptor.isCompatible ⟨.data value false, enumerable, false⟩ = true) :
    descriptor.mergeSlot (some (.data value false)) = .data value false := by
  simp only [isCompatible, Bool.false_eq_true, if_false, Bool.if_false_left, Bool.and_eq_true,
    Bool.not_eq_true', decide_eq_false_iff_not] at compatible
  obtain ⟨-, -, data, writes, asks⟩ := compatible
  unfold mergeSlot
  rw [if_neg data]
  dsimp only
  rw [getD_of_all fun answer asked => ?_, getD_of_all fun answer asked => ?_]
  · simpa [asked] using writes
  · rw [asked] at asks
    exact Value.eq_of_same asks

/-- A compatible descriptor leaves an accessor with halves that are alike. -/
theorem mergeSlot_accessor
    {getter setter : Value}
    (compatible : descriptor.isCompatible ⟨.accessor getter setter, enumerable, false⟩ = true) :
    ∃ laterGetter laterSetter, laterGetter.Alike getter ∧ laterSetter.Alike setter ∧
      descriptor.mergeSlot (some (.accessor getter setter)) =
        .accessor laterGetter laterSetter := by
  simp only [isCompatible, Bool.false_eq_true, if_false, Bool.if_false_left, Bool.and_eq_true,
    Bool.not_eq_true', decide_eq_false_iff_not] at compatible
  obtain ⟨-, -, data, gets, sets⟩ := compatible
  have alike : ∀ (half : Option Value) (held : Value),
      half.all (fun asked => asked.strictlyEquals held) = true ->
        (half.getD held).Alike held := by
    intro half held equal
    cases half with
    | none => exact .refl held
    | some asked => exact Value.alike_of_strictlyEquals equal
  unfold mergeSlot
  split
  · exact ⟨_, _, alike _ _ gets, alike _ _ sets, rfl⟩
  · exact ⟨_, _, .refl getter, .refl setter, rfl⟩

theorem stays_merge
    (fixed : current.Fixed)
    (compatible : descriptor.isCompatible current = true) :
    current.Stays (descriptor.merge (some current)) := by
  obtain ⟨listed, locked⟩ := attributes_merge fixed.configurable compatible
  obtain ⟨slot, enumerable, configurable⟩ := current
  obtain ⟨rfl, readOnly⟩ := fixed
  have merged : descriptor.merge (some ⟨slot, enumerable, false⟩) =
      ⟨descriptor.mergeSlot (some slot), enumerable, false⟩ := by
    show Property.mk _ (descriptor.merge _).enumerable (descriptor.merge _).configurable = _
    rw [listed, locked]
    rfl
  rw [merged]
  cases slot with
  | data value flag =>
      cases readOnly
      rw [mergeSlot_data compatible]
      exact .same _
  | accessor getter setter =>
      obtain ⟨_, _, getters, setters, same⟩ := mergeSlot_accessor compatible
      rw [same]
      exact .accessors enumerable false getters setters

end Descriptor

/-!
## What objects keep

Every guarded change of the heap keeps the fixed properties of an object, and an object that
is frozen keeps its keys as well.
-/

/-! ## Property tables -/

namespace PropertyTable

variable {table : PropertyTable} {key : PropertyKey} {property : Property} {other : PropertyKey}
variable {found : Property}

/-- Under distinct keys, a property is found where its key stands. -/
theorem get?_eq_some_iff (distinct : table.keys.Nodup) :
    table.get? key = some property ↔ ∃ offset, table.at? offset = some (key, property) := by
  unfold get?
  constructor
  · intro found
    obtain ⟨⟨offset, _⟩, placed, rfl⟩ := Option.map_eq_some_iff.1 found
    exact ⟨offset, at?_of_lookup? placed⟩
  · rintro ⟨offset, stands⟩
    rw [lookup?_of_at? distinct stands]
    rfl

theorem at?_setAt (offset place : Nat) :
    (table.setAt offset property).at? place =
      if offset = place then (table.at? place).map fun entry => (entry.1, property)
      else table.at? place := by
  unfold setAt at?
  rw [Array.getElem?_modify]

theorem at?_append (place : Nat) :
    (table.append key property).at? place =
      if place = table.size then some (key, property) else table.at? place := by
  unfold append at? size
  rw [Array.getElem?_push]

theorem at?_eraseAt (offset place : Nat) :
    (table.eraseAt offset).at? place =
      if place < offset then table.at? place else table.at? (place + 1) := by
  unfold eraseAt at?
  rw [← Array.getElem?_toList, ← Array.getElem?_toList, ← Array.getElem?_toList,
    Array.toList_eraseIdxIfInBounds, List.getElem?_eraseIdx]

/-- Replace the property of a key, or append it. -/
def put
    (table : PropertyTable)
    (key : PropertyKey)
    (property : Property) : PropertyTable :=
  match table.lookup? key with
  | some (offset, _) => table.setAt offset property
  | none => table.append key property

theorem keys_put_of_some {entry : Nat × Property} (found : table.lookup? key = some entry) :
    (table.put key property).keys = table.keys := by
  unfold put
  rw [found]
  exact keys_setAt _ _ _

theorem nodup_keys_put (distinct : table.keys.Nodup) : (table.put key property).keys.Nodup := by
  unfold put
  split
  · rwa [keys_setAt]
  · next missing =>
      rw [keys_append]
      refine List.nodup_append.2 ⟨distinct, List.nodup_singleton key, ?_⟩
      rintro other member _ single rfl
      exact lookup?_eq_none_iff.1 missing (List.mem_singleton.1 single ▸ member)

/-- What stands under a key after it was put into the table. -/
theorem get?_put_self (distinct : table.keys.Nodup) (key : PropertyKey) (property : Property) :
    (table.put key property).get? key = some property := by
  refine (get?_eq_some_iff (nodup_keys_put distinct)).2 ?_
  unfold put
  split
  · next offset existing found =>
      refine ⟨offset, ?_⟩
      rw [at?_setAt, if_pos rfl, at?_of_lookup? found]
      rfl
  · exact ⟨table.size, by rw [at?_append, if_pos rfl]⟩

/-- Other keys keep their properties. -/
theorem get?_put_of_ne
    (distinct : table.keys.Nodup)
    (held : table.get? other = some found)
    (apart : key ≠ other) :
    (table.put key property).get? other = some found := by
  obtain ⟨place, stands⟩ := (get?_eq_some_iff distinct).1 held
  refine (get?_eq_some_iff (nodup_keys_put distinct)).2 ⟨place, ?_⟩
  unfold put
  split
  · next offset existing placed =>
      have elsewhere : offset ≠ place := by
        rintro rfl
        cases stands.symm.trans (at?_of_lookup? placed)
        exact apart rfl
      rw [at?_setAt, if_neg elsewhere, stands]
  · have within : place ≠ table.size := by
      rintro rfl
      unfold at? size at stands
      rw [Array.getElem?_size] at stands
      cases stands
    rw [at?_append, if_neg within, stands]

/-- Removing a key leaves the properties of the others. -/
theorem get?_eraseAt_of_ne
    (distinct : table.keys.Nodup)
    {offset : Nat}
    {removed : Property}
    (stands : table.at? offset = some (key, removed))
    (held : table.get? other = some found)
    (apart : key ≠ other) :
    (table.eraseAt offset).get? other = some found := by
  obtain ⟨place, standing⟩ := (get?_eq_some_iff distinct).1 held
  have fewer : (table.eraseAt offset).keys.Nodup := by
    rw [keys_eraseAt]
    exact distinct.sublist (List.eraseIdx_sublist _ _)
  have elsewhere : place ≠ offset := by
    rintro rfl
    cases standing.symm.trans stands
    exact apart rfl
  rcases Nat.lt_or_gt_of_ne elsewhere with before | after
  · refine (get?_eq_some_iff fewer).2 ⟨place, ?_⟩
    rw [at?_eraseAt, if_pos before, standing]
  · obtain ⟨previous, rfl⟩ := Nat.exists_eq_add_one_of_ne_zero (Nat.ne_zero_of_lt after)
    refine (get?_eq_some_iff fewer).2 ⟨previous, ?_⟩
    rw [at?_eraseAt, if_neg (Nat.not_lt.2 (Nat.le_of_lt_succ after)), standing]

theorem exists_get?_of_mem (member : key ∈ table.keys) :
    ∃ property, table.get? key = some property := by
  cases found : table.get? key with
  | some property => exact ⟨property, rfl⟩
  | none => exact absurd member (lookup?_eq_none_iff.1 (Option.map_eq_none_iff.1 found))

theorem mem_keys_of_get? (found : table.get? key = some property) : key ∈ table.keys := by
  by_contra absent
  unfold get? at found
  rw [lookup?_eq_none_iff.2 absent] at found
  cases found

end PropertyTable

/-! ## Objects -/

/-- How internal slots change that say something about properties: a frozen array stays, and
an object neither becomes an array or a proxy nor ceases to be one. -/
inductive ObjectKind.Endures : ObjectKind -> ObjectKind -> Prop
  | same (kind : ObjectKind) : Endures kind kind
  | array (before after : ArrayStore) :
      (before.frozen = true -> after = before) -> Endures (.array before) (.array after)
  | plain (before after : ObjectKind) :
      before.isExotic = false -> after.isExotic = false -> Endures before after

theorem ObjectKind.isProxy_of_ordinary {kind : ObjectKind} (ordinary : kind.isExotic = false) :
    kind.isProxy = false := by
  cases kind with
  | array | proxy => cases ordinary
  | _ => rfl

namespace ObjectKind.Endures

variable {first second third : ObjectKind}

theorem trans (earlier : first.Endures second) (later : second.Endures third) :
    first.Endures third := by
  cases earlier with
  | same => exact later
  | array before middle kept =>
      cases later with
      | same => exact .array before middle kept
      | array _ after still =>
          refine .array before after fun frozen => ?_
          have same := kept frozen
          subst same
          exact still frozen
      | plain _ _ impossible => cases impossible
  | plain _ _ ordinary unchanged =>
      cases later with
      | same => exact .plain _ _ ordinary unchanged
      | array => cases unchanged
      | plain _ _ _ still => exact .plain _ _ ordinary still

theorem of_advances (advances : first.Advances second) : first.Endures second := by
  cases advances with
  | same => exact .same _
  | array before after frozen => exact .array before after frozen
  | _ => exact .plain _ _ rfl rfl

/-- Proxies stay as they are. -/
theorem eq_of_proxy
    {target handler : Value}
    (endures : (ObjectKind.proxy target handler).Endures second) :
    second = .proxy target handler := by
  cases endures with
  | same => rfl
  | plain _ _ impossible => cases impossible

theorem isProxy (endures : first.Endures second) : second.isProxy = first.isProxy := by
  cases endures with
  | same => rfl
  | array => rfl
  | plain _ _ ordinary unchanged =>
      rw [isProxy_of_ordinary ordinary, isProxy_of_ordinary unchanged]

end ObjectKind.Endures

namespace HeapObject

/-- For elements and length of an array it does not count what the property table says. -/
def Tells
    (object : HeapObject ObjectKind)
    (key : PropertyKey) : Prop :=
  ∀ store, object.payload = .array store ->
    key.arrayIndex? = none ∧ (key == Machine.lengthKey) = false

/-- Nothing may be added to the object, and all that it has is fixed. -/
structure Frozen (object : HeapObject ObjectKind) : Prop where
  closed : object.extensible = false
  elements : ∀ store, object.payload = .array store -> store.frozen = true
  properties : ∀ key property, object.Tells key -> object.properties.get? key = some property ->
    property.Fixed

/-- What an object keeps: one fixed property, or all of them, and in the latter case also its
keys if it is frozen. -/
structure Keeps
    (key? : Option PropertyKey)
    (before after : HeapObject ObjectKind) : Prop where
  payload : before.payload.Endures after.payload
  property : ∀ key property, (∀ only ∈ key?, only = key) ->
    before.properties.get? key = some property -> property.Fixed ->
      ∃ later, after.properties.get? key = some later ∧ property.Stays later
  frozen : key? = none -> before.Frozen ->
    after.extensible = false ∧ after.properties.keys = before.properties.keys

namespace Keeps

variable {offset : Nat}

variable {key? : Option PropertyKey} {first second third : HeapObject ObjectKind}
  {key : PropertyKey}

theorem refl (object : HeapObject ObjectKind) : object.Keeps key? object where
  payload := .same _
  property _ property _ held _ := ⟨property, held, .same property⟩
  frozen _ frozen := ⟨frozen.closed, rfl⟩

/-- What the table does not tell stays untold. -/
theorem tells (keeps : first.Keeps key? second) (tells : second.Tells key) :
    first.Tells key := by
  intro store array
  have endures := keeps.payload
  rw [array] at endures
  generalize present : second.payload = payload at endures
  cases endures with
  | same => exact tells store present
  | array _ after => exact tells after present
  | plain _ _ impossible => cases impossible

/-- A frozen object stays frozen. -/
theorem stays_frozen (keeps : first.Keeps none second) (frozen : first.Frozen) :
    second.Frozen where
  closed := (keeps.frozen rfl frozen).1
  elements store array := by
    have endures := keeps.payload
    rw [array] at endures
    generalize present : first.payload = payload at endures
    cases endures with
    | same => exact frozen.elements store present
    | array before _ kept =>
        have fixed := frozen.elements before present
        rw [kept fixed]
        exact fixed
    | plain _ _ _ impossible => cases impossible
  properties key property tells held := by
    have listed := PropertyTable.mem_keys_of_get? held
    rw [(keeps.frozen rfl frozen).2] at listed
    obtain ⟨earlier, stood⟩ := PropertyTable.exists_get?_of_mem listed
    have fixed := frozen.properties key earlier (keeps.tells tells) stood
    obtain ⟨later, stands, stays⟩ := keeps.property key earlier (by simp) stood fixed
    cases held.symm.trans stands
    exact stays.fixed fixed

theorem trans (earlier : first.Keeps key? second) (later : second.Keeps key? third) :
    first.Keeps key? third where
  payload := earlier.payload.trans later.payload
  property key property covered held fixed := by
    obtain ⟨middle, found, stays⟩ := earlier.property key property covered held fixed
    obtain ⟨last, stands, again⟩ := later.property key middle covered found (stays.fixed fixed)
    exact ⟨last, stands, stays.trans again⟩
  frozen whole frozen := by
    subst whole
    obtain ⟨closed, keys⟩ := later.frozen rfl (earlier.stays_frozen frozen)
    exact ⟨closed, keys.trans (earlier.frozen rfl frozen).2⟩

/-- A change that leaves the property table and the extensibility alone. -/
theorem of_payload
    (payload : first.payload.Endures second.payload)
    (properties : second.properties = first.properties)
    (extensible : first.extensible = false -> second.extensible = false) :
    first.Keeps key? second where
  payload := payload
  property _ property _ held _ := ⟨property, properties ▸ held, .same property⟩
  frozen _ frozen := ⟨extensible frozen.closed, congrArg PropertyTable.keys properties⟩

variable (distinct : first.properties.keys.Nodup)
include distinct

/-- A property may be put where nothing is lost that is to be kept, and where there is room
for a new one. -/
theorem put
    (shape : ShapeId)
    {key : PropertyKey}
    {property : Property}
    (allowed : (∀ only ∈ key?, only = key) -> ∀ existing,
      first.properties.get? key = some existing -> existing.Fixed -> existing.Stays property)
    (room : key? = none -> first.properties.get? key = none -> first.extensible = true) :
    first.Keeps key? { first with shape, properties := first.properties.put key property } where
  payload := .same _
  property other existing covered held fixed := by
    by_cases same : key = other
    · subst same
      exact ⟨property, PropertyTable.get?_put_self distinct key property,
        allowed covered existing held fixed⟩
    · exact ⟨existing, PropertyTable.get?_put_of_ne distinct held same, .same existing⟩
  frozen whole frozen := by
    refine ⟨frozen.closed, ?_⟩
    cases found : first.properties.lookup? key with
    | some entry => exact PropertyTable.keys_put_of_some found
    | none =>
        have extensible := room whole (Option.map_eq_none_iff.2 found)
        rw [frozen.closed] at extensible
        cases extensible

/-- A value may be overwritten at a place where nothing fixed is to be kept. -/
theorem setAt
    {existing property : Property}
    (stands : first.properties.at? offset = some (key, existing))
    (loose : (∀ only ∈ key?, only = key) -> ¬ existing.Fixed) :
    first.Keeps key? { first with properties := first.properties.setAt offset property } := by
  have placed : first.properties.put key property = first.properties.setAt offset property := by
    unfold PropertyTable.put
    rw [PropertyTable.lookup?_of_at? distinct stands]
  rw [← placed]
  refine put distinct first.shape (fun covered found held fixed => ?_) fun _ absent => ?_
  · cases held.symm.trans ((PropertyTable.get?_eq_some_iff distinct).2 ⟨offset, stands⟩)
    exact absurd fixed (loose covered)
  · cases absent.symm.trans ((PropertyTable.get?_eq_some_iff distinct).2 ⟨offset, stands⟩)

/-- A configurable property may be removed. -/
theorem erase
    (shape : ShapeId)
    {removed : Property}
    (stands : first.properties.at? offset = some (key, removed))
    (configurable : removed.configurable = true)
    (tells : first.Tells key) :
    first.Keeps key? { first with shape, properties := first.properties.eraseAt offset } where
  payload := .same _
  property other existing _ held fixed := by
    have apart : key ≠ other := by
      rintro rfl
      cases held.symm.trans ((PropertyTable.get?_eq_some_iff distinct).2 ⟨offset, stands⟩)
      rw [fixed.configurable] at configurable
      cases configurable
    exact ⟨existing, PropertyTable.get?_eraseAt_of_ne distinct stands held apart, .same existing⟩
  frozen _ frozen := by
    have held := (PropertyTable.get?_eq_some_iff distinct).2 ⟨offset, stands⟩
    have fixed := frozen.properties key removed tells held
    rw [fixed.configurable] at configurable
    cases configurable

end Keeps

/-- What a guarded change may make of an object: a property is put where nothing fixed is lost
and where there is room for a new one, or a configurable one is removed. -/
inductive Step (before : HeapObject ObjectKind) : HeapObject ObjectKind -> Prop
  /-- Internal slots, the prototype and the extensibility are no properties. -/
  | inner {after : HeapObject ObjectKind} :
      before.payload.Endures after.payload -> after.properties = before.properties ->
      (before.extensible = false -> after.extensible = false) -> Step before after
  | put {key : PropertyKey} {property : Property} (shape : ShapeId) :
      (∀ existing, before.properties.get? key = some existing -> existing.Fixed ->
        existing.Stays property) ->
      (before.properties.get? key = none -> before.extensible = true) ->
      Step before { before with shape, properties := before.properties.put key property }
  | erase {key : PropertyKey} {offset : Nat} {removed : Property} (shape : ShapeId) :
      before.properties.at? offset = some (key, removed) -> removed.configurable = true ->
      before.Tells key ->
      Step before { before with shape, properties := before.properties.eraseAt offset }

theorem Step.refl (object : HeapObject ObjectKind) : object.Step object :=
  .inner (.same _) rfl id

theorem Step.keeps
    {first second : HeapObject ObjectKind}
    (step : first.Step second)
    (distinct : first.properties.keys.Nodup)
    (key? : Option PropertyKey) :
    first.Keeps key? second := by
  cases step with
  | inner payload properties extensible => exact .of_payload payload properties extensible
  | put shape allowed room => exact .put distinct shape (fun _ => allowed) fun _ => room
  | erase shape stands configurable tells => exact .erase distinct shape stands configurable tells

end HeapObject

/-! ## Guarded changes -/

/-- No handle is taken back. -/
theorem HeapChange.size_le
    {origins : Origins}
    {before after : Heap ObjectKind}
    (change : HeapChange origins before after) :
    before.objects.size <= after.objects.size := by
  cases change with
  | allocate prototype kind => exact before.size_allocate prototype kind
  | define id key property =>
      unfold Heap.define
      split
      · exact Nat.le_refl _
      · split
        · split <;> simp
        · simp
  | setValueAt id offset value =>
      unfold Heap.setValueAt
      simp
  | remove id key =>
      unfold Heap.remove
      split
      · exact Nat.le_refl _
      · split <;> simp
  | setPrototype id prototype =>
      unfold Heap.setPrototype
      split
      · exact Nat.le_refl _
      · split <;> simp
  | preventExtensions id => simp [Heap.preventExtensions]
  | modifyPayload id change => simp [Heap.modifyPayload]

namespace Heap

variable {heap : Heap ObjectKind} {id : ObjectId} {object : HeapObject ObjectKind}

theorem getOwn?_of_live (live : heap.get? id = some object) (key : PropertyKey) :
    heap.getOwn? id key = object.properties.get? key := by
  unfold getOwn?
  rw [live]
  rfl

/-- A definition puts the property into the table of the object. -/
theorem exists_get?_define
    (live : heap.get? id = some object)
    (key : PropertyKey)
    (property : Property) :
    ∃ shape, (heap.define id key property).get? id =
      some { object with shape, properties := object.properties.put key property } := by
  unfold PropertyTable.put
  cases found : object.properties.lookup? key with
  | none =>
      rw [define_append heap id key property live found, get?_modify_self, get?_withShapes, live]
      exact ⟨_, rfl⟩
  | some entry =>
      cases same : entry.2.sameLayout property with
      | true =>
          rw [define_sameLayout heap id key property live found same, get?_modify_self, live]
          exact ⟨object.shape, rfl⟩
      | false =>
          rw [define_otherLayout heap id key property live found same, get?_modify_self,
            get?_withShapes, live]
          exact ⟨_, rfl⟩

theorem get?_define_of_ne
    {other : ObjectId}
    (apart : id ≠ other)
    (key : PropertyKey)
    (property : Property) :
    (heap.define id key property).get? other = heap.get? other := by
  unfold define
  split
  · rfl
  · split
    · split
      · exact get?_modify_of_ne _ apart _
      · exact get?_modify_of_ne _ apart _
    · exact get?_modify_of_ne _ apart _

theorem get?_remove_of_ne {other : ObjectId} (apart : id ≠ other) (key : PropertyKey) :
    (heap.remove id key).get? other = heap.get? other := by
  unfold remove
  split
  · rfl
  · split
    · rfl
    · exact get?_modify_of_ne _ apart _

/-- The prototype is no property. -/
theorem exists_get?_setPrototype
    (live : heap.get? id = some object)
    (other : ObjectId)
    (prototype : Option ObjectId) :
    ∃ shape link, (heap.setPrototype other prototype).get? id =
      some { object with shape, prototype := link } := by
  unfold setPrototype
  split
  · exact ⟨_, _, live⟩
  · split
    · exact ⟨_, _, live⟩
    · by_cases same : other = id
      · subst same
        rw [get?_modify_self, get?_withShapes, live]
        exact ⟨_, _, rfl⟩
      · rw [get?_modify_of_ne _ same, get?_withShapes, live]
        exact ⟨_, _, rfl⟩

end Heap

namespace GuardedChange

variable {unguarded : ObjectId -> Prop} {before after : Heap ObjectKind} {id : ObjectId}
  {object : HeapObject ObjectKind}

/-- A definition is a step if it overwrites nothing fixed and puts nothing new where there is no
room. -/
theorem step_define
    (live : before.get? id = some object)
    (other : ObjectId)
    (key : PropertyKey)
    (property : Property)
    (allowed : other = id ->
      (∀ existing, before.getOwn? id key = some existing -> existing.Fixed ->
        existing.Stays property) ∧
      (before.getOwn? id key = none -> object.extensible = true)) :
    ∃ later, (before.define other key property).get? id = some later ∧ object.Step later := by
  by_cases same : other = id
  · subst same
    obtain ⟨shape, made⟩ := Heap.exists_get?_define live key property
    simp only [Heap.getOwn?_of_live live] at allowed
    exact ⟨_, made, .put shape (allowed trivial).1 (allowed trivial).2⟩
  · exact ⟨object, (Heap.get?_define_of_ne same key property).trans live, .refl object⟩

/-- Every guarded change is a step for a guarded object that is no proxy. -/
theorem step
    (change : GuardedChange unguarded before after)
    (live : before.get? id = some object)
    (guarded : ¬ unguarded id)
    (bare : object.payload.isProxy = false) :
    ∃ later, after.get? id = some later ∧ object.Step later := by
  cases change with
  | define other key property free =>
      exact step_define live other key property fun same => absurd (same ▸ free) guarded
  | append other key property absent extensible =>
      refine step_define live other key property fun same => ?_
      subst same
      refine ⟨fun existing held => ?_, fun _ => ?_⟩
      · rw [absent] at held
        cases held
      · unfold Heap.isExtensible at extensible
        rw [live] at extensible
        exact extensible
  | redefine other key current descriptor held compatible =>
      refine step_define live other key _ fun same => ?_
      subst same
      refine ⟨fun existing own fixed => ?_, fun absent => ?_⟩
      · cases held.symm.trans own
        exact Descriptor.stays_merge fixed compatible
      · rw [absent] at held
        cases held
  | overwrite other key current property held writable =>
      refine step_define live other key _ fun same => ?_
      subst same
      refine ⟨fun existing own fixed => ?_, fun absent => ?_⟩
      · cases held.symm.trans own
        rcases writable with writable | ⟨target, handler, proxy⟩
        · rw [fixed.writable] at writable
          cases writable
        · unfold Heap.payload? at proxy
          rw [live] at proxy
          rw [Option.some.inj proxy] at bare
          cases bare
      · rw [absent] at held
        cases held
  | freeze other key current held =>
      refine step_define live other key _ fun same => ?_
      subst same
      refine ⟨fun existing own fixed => ?_, fun absent => ?_⟩
      · cases held.symm.trans own
        rw [fixed.frozen]
        exact .same _
      · rw [absent] at held
        cases held
  | remove other key current held configurable tells =>
      by_cases same : other = id
      · subst same
        obtain ⟨⟨offset, _⟩, found, rfl⟩ : ∃ entry, object.properties.lookup? key = some entry ∧
            entry.2 = current := by
          rw [Heap.getOwn?_of_live live] at held
          exact Option.map_eq_some_iff.1 held
        have placed : object.properties.offset? key = some offset := by
          obtain ⟨place, placed, rest⟩ := Option.bind_eq_some_iff.1 found
          obtain ⟨_, _, same⟩ := Option.bind_eq_some_iff.1 rest
          cases same
          exact placed
        rw [Heap.remove_of_present before other key live placed, Heap.get?_modify_self,
          Heap.get?_withShapes, live]
        refine ⟨_, rfl, .erase _ (PropertyTable.at?_of_lookup? found) configurable ?_⟩
        intro store array
        refine tells store ?_
        unfold Heap.payload?
        rw [live]
        exact congrArg some array
      · exact ⟨object, (Heap.get?_remove_of_ne same key).trans live, .refl object⟩
  | setPrototype other prototype =>
      obtain ⟨shape, link, made⟩ := Heap.exists_get?_setPrototype live other prototype
      exact ⟨_, made, .inner (.same _) rfl fun closed => closed⟩
  | preventExtensions other =>
      unfold Heap.preventExtensions
      rw [Heap.get?_modify, live]
      split
      · exact ⟨_, rfl, .inner (.same _) rfl fun _ => rfl⟩
      · exact ⟨object, rfl, .refl object⟩
  | modifyPayload other change advances =>
      unfold Heap.modifyPayload
      rw [Heap.get?_modify, live]
      split
      · next same =>
          subst same
          refine ⟨_, rfl, .inner (.of_advances (advances _ ?_)) rfl fun closed => closed⟩
          unfold Heap.payload?
          rw [live]
          rfl
      · exact ⟨object, rfl, .refl object⟩

/-- The internal slots of every object endure. -/
theorem endures
    (change : GuardedChange unguarded before after)
    {kind : ObjectKind}
    (present : before.payload? id = some kind) :
    ∃ later, after.payload? id = some later ∧ kind.Endures later := by
  cases change with
  | define | append | redefine | overwrite | freeze =>
      exact ⟨kind, (Heap.payload?_define ..).trans present, .same kind⟩
  | remove => exact ⟨kind, (Heap.payload?_remove ..).trans present, .same kind⟩
  | setPrototype => exact ⟨kind, (Heap.payload?_setPrototype ..).trans present, .same kind⟩
  | preventExtensions =>
      exact ⟨kind, (Heap.payload?_preventExtensions ..).trans present, .same kind⟩
  | modifyPayload other change advances =>
      rw [Heap.payload?_modifyPayload]
      split
      · next same =>
          subst same
          rw [present]
          exact ⟨_, rfl, .of_advances (advances kind present)⟩
      · exact ⟨kind, present, .same kind⟩

end GuardedChange

end ScriptVM

import Mathlib.Data.List.InsertIdx
import Mathlib.Data.List.Nodup
import Mathlib.Logic.Function.Basic
import ScriptVM.Proofs.HeapObjects

/-!
# Layouts

Each shape stands for one list of keys and one prototype for good. Objects of the shape
have just these keys, in this order, and this prototype. A shape that no object has and
that no object can come to by appending keys stays out of use for ever.
-/

namespace ScriptVM

/-! ## Property tables -/

namespace PropertyTable

variable (table : PropertyTable) (key : PropertyKey) (property : Property)

theorem getElem?_keys (offset : Nat) : table.keys[offset]? = (table.at? offset).map Prod.fst := by
  unfold keys at?
  rw [List.getElem?_map, Array.getElem?_toList]

@[simp] theorem length_keys : table.keys.length = table.size := by
  unfold keys size
  rw [List.length_map, Array.length_toList]

@[simp] theorem keys_setAt (offset : Nat) : (table.setAt offset property).keys = table.keys := by
  refine List.ext_getElem? fun index => ?_
  rw [getElem?_keys, getElem?_keys]
  unfold setAt at?
  rw [Array.getElem?_modify]
  split
  · next same =>
      subst same
      cases table.entries[offset]? <;> rfl
  · rfl

@[simp] theorem keys_append : (table.append key property).keys = table.keys ++ [key] := by
  simp [append, keys]

@[simp] theorem keys_eraseAt (offset : Nat) :
    (table.eraseAt offset).keys = table.keys.eraseIdx offset := by
  unfold eraseAt keys
  rw [Array.toList_eraseIdxIfInBounds, List.eraseIdx_map]

/-- What is found under a key stands at its offset. -/
theorem at?_of_lookup?
    {table : PropertyTable}
    {key : PropertyKey}
    {offset : Nat}
    {property : Property}
    (found : table.lookup? key = some (offset, property)) :
    table.at? offset = some (key, property) := by
  obtain ⟨place, placed, rest⟩ := Option.bind_eq_some_iff.1 found
  obtain ⟨entry, stands, same⟩ := Option.bind_eq_some_iff.1 rest
  cases same
  obtain ⟨within, matching, _⟩ := Array.findIdx?_eq_some_iff_getElem.1 placed
  obtain ⟨_, present⟩ := Array.getElem?_eq_some_iff.1 stands
  rw [present] at matching
  rw [stands, ← eq_of_beq matching]

theorem lookup?_eq_none_iff {table : PropertyTable} {key : PropertyKey} :
    table.lookup? key = none ↔ key ∉ table.keys := by
  constructor
  · intro missing member
    obtain ⟨entry, present, rfl⟩ := List.mem_map.1 member
    have searched : table.offset? entry.1 ≠ none := by
      intro absent
      have distinct := Array.findIdx?_eq_none_iff.1 absent entry (Array.mem_toList_iff.1 present)
      simp at distinct
    obtain ⟨offset, placed⟩ := Option.ne_none_iff_exists'.1 searched
    obtain ⟨within, _⟩ := Array.findIdx?_eq_some_iff_getElem.1 placed
    unfold lookup? at missing
    rw [placed] at missing
    simp [at?, within] at missing
  · intro missing
    cases found : table.lookup? key with
    | none => rfl
    | some entry =>
        have stands := getElem?_keys table entry.1
        rw [at?_of_lookup? found] at stands
        exact absurd (List.mem_of_getElem? stands) missing

/-- Under distinct keys, what stands at an offset is found under its key. -/
theorem lookup?_of_at?
    {table : PropertyTable}
    (distinct : table.keys.Nodup)
    {key : PropertyKey}
    {offset : Nat}
    {property : Property}
    (stands : table.at? offset = some (key, property)) :
    table.lookup? key = some (offset, property) := by
  have named : table.keys[offset]? = some key := by
    rw [getElem?_keys, stands]
    rfl
  cases found : table.lookup? key with
  | none => exact absurd (List.mem_of_getElem? named) (lookup?_eq_none_iff.1 found)
  | some entry =>
      have earlier := at?_of_lookup? found
      have listed : table.keys[entry.1]? = some key := by
        rw [getElem?_keys, earlier]
        rfl
      obtain ⟨within, _⟩ := List.getElem?_eq_some_iff.1 listed
      have same : entry.1 = offset :=
        (List.getElem?_inj within distinct).1 (listed.trans named.symm)
      rw [same] at earlier
      have property := congrArg Prod.snd (Option.some.inj (earlier.symm.trans stands))
      exact congrArg some (Prod.ext same property)

end PropertyTable
/-! ## Shape tables -/

/-- The keys of the objects of each shape. -/
abbrev Layout := ShapeId -> List PropertyKey

namespace ShapeTable

/-- Every empty shape is empty and has its prototype, and a transition appends its key
under the same prototype. -/
structure Laid
    (layout : Layout)
    (table : ShapeTable) : Prop where
  roots : ∀ prototype root, (prototype, root) ∈ table.roots ->
    layout root = [] ∧ ∃ shape, table.get? root = some shape ∧ shape.prototype = prototype
  transitions : ∀ source shape key target, table.get? source = some shape ->
    (key, target) ∈ shape.transitions ->
      layout target = layout source ++ [key] ∧
        ∃ next, table.get? target = some next ∧ next.prototype = shape.prototype

/-- A table has more shapes than before. Old shapes keep their prototypes and get
transitions to new shapes only, and new shapes have no transitions yet. -/
structure Grows (before after : ShapeTable) : Prop where
  kept : ∀ id shape, before.get? id = some shape ->
    ∃ later, after.get? id = some later ∧ later.prototype = shape.prototype ∧
      ∀ key target, (key, target) ∈ later.transitions ->
        (key, target) ∈ shape.transitions ∨ before.get? target = none
  fresh : ∀ id shape, before.get? id = none -> after.get? id = some shape ->
    shape.transitions = []
  roots : ∀ prototype root, (prototype, root) ∈ after.roots ->
    (prototype, root) ∈ before.roots ∨ before.get? root = none

/-- Shapes in use: those given, the empty shapes, and what appending keys leads to. -/
inductive Usable
    (table : ShapeTable)
    (used : ShapeId -> Prop) : ShapeId -> Prop
  | used {id : ShapeId} : used id -> Usable table used id
  | root {prototype : Option ObjectId} {id : ShapeId} :
      (prototype, id) ∈ table.roots -> Usable table used id
  | append {source target : ShapeId} {shape : Shape} {key : PropertyKey} :
      Usable table used source -> table.get? source = some shape ->
      (key, target) ∈ shape.transitions -> Usable table used target

/-- A shape is not in the table yet, or it is in use. -/
def Available
    (table : ShapeTable)
    (used : ShapeId -> Prop)
    (id : ShapeId) : Prop :=
  table.get? id = none ∨ table.Usable used id

/-- A table that answered a request for a shape with a prototype and keys. Layouts of old
shapes stay. -/
structure Issued
    (layout later : Layout)
    (used : ShapeId -> Prop)
    (table : ShapeTable)
    (prototype : Option ObjectId)
    (keys : List PropertyKey)
    (result : ShapeId × ShapeTable) : Prop where
  laid : result.2.Laid later
  grows : table.Grows result.2
  agrees : ∀ id shape, table.get? id = some shape -> later id = layout id
  keys : later result.1 = keys
  prototype : ∃ shape, result.2.get? result.1 = some shape ∧ shape.prototype = prototype
  available : table.Available used result.1

namespace Grows

@[refl] theorem refl (table : ShapeTable) : table.Grows table where
  kept _ shape present := ⟨shape, present, rfl, fun _ _ member => Or.inl member⟩
  fresh _ _ absent present := by
    rw [absent] at present
    cases present
  roots _ _ member := Or.inl member

/-- What is in use later was in use before, if it was there. -/
theorem available
    {before after : ShapeTable}
    (grows : before.Grows after)
    {used usedLater : ShapeId -> Prop}
    (earlier : ∀ id, usedLater id -> before.Available used id)
    {id : ShapeId}
    (usable : after.Usable usedLater id) :
    before.Available used id := by
  induction usable with
  | used given => exact earlier _ given
  | root member =>
      rcases grows.roots _ _ member with old | new
      · exact Or.inr (.root old)
      · exact Or.inl new
  | append _ present member step =>
      rcases step with new | usable
      · rw [grows.fresh _ _ new present] at member
        cases member
      · cases old : before.get? _ with
        | none =>
            rw [grows.fresh _ _ old present] at member
            cases member
        | some shape =>
            obtain ⟨later, stands, _, targets⟩ := grows.kept _ shape old
            cases stands.symm.trans present
            rcases targets _ _ member with known | new
            · exact Or.inr (.append usable old known)
            · exact Or.inl new

end Grows

variable {layout : Layout} {table : ShapeTable} {used : ShapeId -> Prop} {shape : Shape}

/-- The identity of the next shape. -/
def nextId (table : ShapeTable) : ShapeId := ⟨table.size⟩

@[simp] theorem get?_nextId : table.get? table.nextId = none :=
  Array.getElem?_eq_none (Nat.le_refl _)

theorem get?_add (shape : Shape) (id : ShapeId) :
    (table.add shape).2.get? id = if id = table.nextId then some shape else table.get? id := by
  unfold add get? nextId size
  dsimp only
  rw [Array.getElem?_push]
  cases id
  simp

theorem ne_nextId {id : ShapeId} (present : table.get? id = some shape) :
    id ≠ table.nextId := by
  rintro rfl
  rw [get?_nextId] at present
  cases present

theorem get?_add_of_some (added : Shape) {id : ShapeId} (present : table.get? id = some shape) :
    (table.add added).2.get? id = some shape := by
  rw [get?_add, if_neg (ne_nextId present), present]

theorem get?_add_nextId (shape : Shape) : (table.add shape).2.get? table.nextId = some shape := by
  rw [get?_add, if_pos rfl]

/-- The layout with the keys of the next shape. -/
def Laid.extend
    (layout : Layout)
    (table : ShapeTable)
    (keys : List PropertyKey) : Layout :=
  Function.update layout table.nextId keys

namespace Laid

theorem extend_of_some
    (keys : List PropertyKey)
    {id : ShapeId}
    {shape : Shape}
    (present : table.get? id = some shape) :
    extend layout table keys id = layout id :=
  Function.update_of_ne (ne_nextId present) _ _

theorem extend_nextId (keys : List PropertyKey) : extend layout table keys table.nextId = keys :=
  Function.update_self _ _ _

/-- A shape without transitions is added. -/
theorem add
    (laid : table.Laid layout)
    (keys : List PropertyKey)
    {shape : Shape}
    (leaf : shape.transitions = []) :
    (table.add shape).2.Laid (extend layout table keys) where
  roots prototype root member := by
    obtain ⟨empty, known, present, same⟩ := laid.roots prototype root member
    rw [extend_of_some keys present]
    exact ⟨empty, known, get?_add_of_some shape present, same⟩
  transitions source known key target present member := by
    rw [get?_add] at present
    split at present
    · cases present
      rw [leaf] at member
      cases member
    · obtain ⟨appended, next, stands, same⟩ :=
        laid.transitions source known key target present member
      rw [extend_of_some keys present, extend_of_some keys stands]
      exact ⟨appended, next, get?_add_of_some shape stands, same⟩

end Laid

theorem Grows.add (leaf : shape.transitions = []) :
    table.Grows (table.add shape).2 where
  kept id known present :=
    ⟨known, get?_add_of_some shape present, rfl, fun _ _ member => Or.inl member⟩
  fresh id known absent present := by
    rw [get?_add] at present
    split at present
    · cases present
      exact leaf
    · rw [absent] at present
      cases present
  roots _ _ member := Or.inl member

/-- A shape that no other object shares. -/
theorem issued_unique
    (laid : table.Laid layout)
    (prototype : Option ObjectId)
    (count : Nat)
    (keys : List PropertyKey) :
    ∃ later, Issued layout later used table prototype keys (table.unique prototype count) :=
  ⟨Laid.extend layout table keys,
    { laid := laid.add keys rfl
      grows := .add rfl
      agrees := fun _ _ present => Laid.extend_of_some keys present
      keys := Laid.extend_nextId keys
      prototype := ⟨_, get?_add_nextId _, rfl⟩
      available := Or.inl get?_nextId }⟩

theorem mem_of_lookup
    {α β : Type}
    [BEq α]
    [LawfulBEq α]
    {entries : List (α × β)}
    {key : α}
    {value : β}
    (found : entries.lookup key = some value) :
    (key, value) ∈ entries := by
  obtain ⟨before, after, rfl, _⟩ := List.lookup_eq_some_iff.1 found
  simp

/-- The empty shape of a prototype. -/
theorem issued_root (laid : table.Laid layout) (prototype : Option ObjectId) :
    ∃ later, Issued layout later used table prototype [] (table.root prototype) := by
  unfold root
  split
  · next id found =>
      have member := mem_of_lookup found
      obtain ⟨empty, shape, present, same⟩ := laid.roots prototype id member
      exact ⟨layout, laid, .refl table, fun _ _ _ => rfl, empty, ⟨shape, present, same⟩,
        Or.inr (.root member)⟩
  · -- The new empty shape is added and noted for the prototype.
    let leaf : Shape := ⟨prototype, 0, [], false⟩
    have added : (table.add leaf).2.Laid (Laid.extend layout table []) := laid.add [] rfl
    have grows : table.Grows (table.add leaf).2 := .add rfl
    refine ⟨Laid.extend layout table [], ⟨?_, added.transitions⟩,
      ⟨grows.kept, grows.fresh, ?_⟩, fun _ _ present => Laid.extend_of_some [] present,
      Laid.extend_nextId [], ⟨_, get?_add_nextId _, rfl⟩, Or.inl get?_nextId⟩
    · intro other id member
      cases member with
      | head => exact ⟨Laid.extend_nextId [], _, get?_add_nextId _, rfl⟩
      | tail _ old => exact added.roots other id old
    · intro other id member
      cases member with
      | head => exact Or.inr get?_nextId
      | tail _ old => exact grows.roots other id old

/-- The table with one more transition. -/
def link
    (table : ShapeTable)
    (source : ShapeId)
    (key : PropertyKey)
    (target : ShapeId) : ShapeTable :=
  { table with
    shapes := table.shapes.modify source.index fun shape =>
      { shape with transitions := (key, target) :: shape.transitions } }

section Link

variable {source target : ShapeId} {key : PropertyKey}

theorem get?_link (id : ShapeId) :
    (table.link source key target).get? id =
      if source = id then
        (table.get? id).map fun shape =>
          { shape with transitions := (key, target) :: shape.transitions }
      else table.get? id := by
  unfold link get?
  dsimp only
  rw [Array.getElem?_modify]
  cases source
  cases id
  simp

theorem get?_link_of_some
    {id : ShapeId}
    {shape : Shape}
    (present : table.get? id = some shape) :
    ∃ linked, (table.link source key target).get? id = some linked ∧
      linked.prototype = shape.prototype ∧
        ∀ entry ∈ linked.transitions,
          entry ∈ shape.transitions ∨ id = source ∧ entry = (key, target) := by
  rw [get?_link, present]
  split
  · next same =>
      refine ⟨_, rfl, rfl, fun entry member => ?_⟩
      cases member with
      | head => exact Or.inr ⟨same.symm, rfl⟩
      | tail _ old => exact Or.inl old
  · exact ⟨shape, rfl, rfl, fun _ member => Or.inl member⟩

theorem get?_of_link
    {id : ShapeId}
    {linked : Shape}
    (present : (table.link source key target).get? id = some linked) :
    ∃ shape, table.get? id = some shape := by
  rw [get?_link] at present
  split at present
  · obtain ⟨shape, stands, _⟩ := Option.map_eq_some_iff.1 present
    exact ⟨shape, stands⟩
  · exact ⟨linked, present⟩

/-- A transition that appends its key under the same prototype is added. -/
theorem Laid.link
    (laid : table.Laid layout)
    {shape next : Shape}
    (outgoing : table.get? source = some shape)
    (incoming : table.get? target = some next)
    (prototype : next.prototype = shape.prototype)
    (appended : layout target = layout source ++ [key]) :
    (table.link source key target).Laid layout where
  roots other root member := by
    obtain ⟨empty, known, present, same⟩ := laid.roots other root member
    obtain ⟨linked, stands, kept, _⟩ := get?_link_of_some present
    exact ⟨empty, linked, stands, kept.trans same⟩
  transitions from' linked other reached present member := by
    obtain ⟨known, before⟩ := get?_of_link present
    obtain ⟨_, stands, kept, entries⟩ := get?_link_of_some before
    cases stands.symm.trans present
    rcases entries _ member with old | ⟨rfl, new⟩
    · obtain ⟨layouts, last, found, same⟩ :=
        laid.transitions from' known other reached before old
      obtain ⟨lastLinked, there, keptLast, _⟩ := get?_link_of_some found
      exact ⟨layouts, lastLinked, there, keptLast.trans (same.trans kept.symm)⟩
    · cases new
      cases before.symm.trans outgoing
      obtain ⟨nextLinked, there, keptNext, _⟩ := get?_link_of_some incoming
      exact ⟨appended, nextLinked, there, keptNext.trans (prototype.trans kept.symm)⟩

theorem Grows.link
    {before : ShapeTable}
    {shape : Shape}
    (grows : before.Grows table)
    (outgoing : before.get? source = some shape)
    (new : before.get? target = none) :
    before.Grows (table.link source key target) where
  kept id known present := by
    obtain ⟨later, stands, same, targets⟩ := grows.kept id known present
    obtain ⟨linked, there, kept, entries⟩ := get?_link_of_some stands
    refine ⟨linked, there, kept.trans same, fun other reached member => ?_⟩
    rcases entries _ member with old | ⟨_, added⟩
    · exact targets other reached old
    · cases added
      exact Or.inr new
  fresh id linked absent present := by
    obtain ⟨known, stands⟩ := get?_of_link present
    obtain ⟨_, there, _, entries⟩ := get?_link_of_some stands
    cases there.symm.trans present
    refine List.eq_nil_iff_forall_not_mem.2 fun entry member => ?_
    rcases entries entry member with old | ⟨rfl, _⟩
    · rw [grows.fresh id known absent stands] at old
      cases old
    · rw [absent] at outgoing
      cases outgoing
  roots := grows.roots

end Link

/-- The shape reached from a shape in use by appending a key. -/
theorem issued_transition
    (laid : table.Laid layout)
    {source : ShapeId}
    (present : table.get? source = some shape)
    (usable : table.Usable used source)
    (key : PropertyKey) :
    ∃ later, Issued layout later used table shape.prototype (layout source ++ [key])
      (table.transition source key) := by
  unfold transition
  rw [present]
  dsimp only [Option.bind_some, bind]
  split
  · next target found =>
      have member := mem_of_lookup found
      obtain ⟨appended, next, stands, same⟩ :=
        laid.transitions source shape key target present member
      exact ⟨layout, laid, .refl table, fun _ _ _ => rfl, appended, ⟨next, stands, same⟩,
        Or.inr (.append usable present member)⟩
  · -- The new shape is added, and the transition to it after that.
    let leaf : Shape := ⟨shape.prototype, shape.propertyCount + 1, [], false⟩
    have added : (table.add leaf).2.Laid (Laid.extend layout table (layout source ++ [key])) :=
      laid.add _ rfl
    have grows : table.Grows (table.add leaf).2 := .add rfl
    have incoming : (table.add leaf).2.get? table.nextId = some leaf := get?_add_nextId leaf
    obtain ⟨linked, there, kept, _⟩ := get?_link_of_some incoming
    have appended : Laid.extend layout table (layout source ++ [key]) table.nextId =
        Laid.extend layout table (layout source ++ [key]) source ++ [key] := by
      rw [Laid.extend_nextId, Laid.extend_of_some _ present]
    exact ⟨Laid.extend layout table (layout source ++ [key]),
      added.link (get?_add_of_some leaf present) incoming rfl appended,
      grows.link present get?_nextId, fun _ _ known => Laid.extend_of_some _ known,
      Laid.extend_nextId _, ⟨linked, there, kept⟩, Or.inl get?_nextId⟩

end ShapeTable
end ScriptVM

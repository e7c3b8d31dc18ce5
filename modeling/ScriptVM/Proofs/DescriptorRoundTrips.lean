import ScriptVM.Proofs.CachedWrites
import ScriptVM.Proofs.DefinedProperties
import ScriptVM.Proofs.DescriptorRules
import ScriptVM.Proofs.PrototypeChains

/-!
# Descriptors and back

A property is turned into a descriptor, and that into an object with the fields of the
descriptor. Where a property is defined, the fields of such an object are read again, those that
it lacks along the prototype chain that it shares with all plain objects. If the fields are not
found there, the descriptor that is read is the one that was written, and what it asks for is the
property that there was.
-/

namespace ScriptVM

variable {σ : Type} {machine : Machine σ}

/-! ## Descriptors of properties -/

/-- What a half of an accessor should be. -/
def Value.IsHalf (value : Value) : Prop :=
  value.isUndefined = true ∨ value.isCallable = true

theorem Value.IsHalf.strictlyEquals_self {value : Value} (half : value.IsHalf) :
    value.strictlyEquals value = true := by
  cases value with
  | undefined => rfl
  | function id => exact beq_self_eq_true id
  | _ => rcases half with undefined | callable <;> contradiction

/-- Every value is the same as itself, not-a-number included. -/
theorem Value.same_self (value : Value) : value.same value = true := by
  cases value with
  | number number =>
      simpa [same] using Classical.em (number = Float.nan)
  | undefined | null | hole => rfl
  | boolean value | string value => exact beq_self_eq_true value
  | symbol id | object id | function id => exact beq_self_eq_true id

/-- Both halves are what they should be; data has none. -/
def Property.HasHalves (property : Property) : Prop :=
  (Property.halves (some property)).1.IsHalf ∧ (Property.halves (some property)).2.IsHalf

namespace Descriptor

variable {property : Property} {descriptor : Descriptor}

/-- A descriptor that an object can describe: it does not mix both kinds of fields, and its
halves are what they should be. -/
structure WellFormed (descriptor : Descriptor) : Prop where
  unmixed : descriptor.isAccessor = true -> descriptor.isData = false
  getter : ∀ half, descriptor.get = some half -> half.IsHalf
  setter : ∀ half, descriptor.set = some half -> half.IsHalf

theorem wellFormed_ofProperty (halves : property.HasHalves) : (ofProperty property).WellFormed := by
  obtain ⟨slot, enumerable, configurable⟩ := property
  cases slot with
  | data value writable => exact ⟨nofun, nofun, nofun⟩
  | accessor getter setter =>
      refine ⟨fun _ => rfl, ?_, ?_⟩
      · rintro _ ⟨⟩
        exact halves.1
      · rintro _ ⟨⟩
        exact halves.2

/-- The descriptor of a property asks for that property, whatever is there. -/
theorem merge_ofProperty (property : Property) (current : Option Property) :
    (ofProperty property).merge current = property := by
  obtain ⟨slot, enumerable, configurable⟩ := property
  cases slot with
  | data value writable => exact merge_ofData ..
  | accessor getter setter =>
      cases current with
      | none => rfl
      | some current =>
          obtain ⟨slot, _, _⟩ := current
          cases slot <;> rfl

/-- A property may always be changed into what it is. -/
theorem isCompatible_ofProperty (halves : property.HasHalves) :
    (ofProperty property).isCompatible property = true := by
  obtain ⟨slot, enumerable, configurable⟩ := property
  cases slot with
  | data value writable =>
      simp [isCompatible, ofProperty, ofData, isAccessor, Value.same_self]
  | accessor getter setter =>
      have gets : getter.strictlyEquals getter = true := halves.1.strictlyEquals_self
      have sets : setter.strictlyEquals setter = true := halves.2.strictlyEquals_self
      cases configurable <;> simp [isCompatible, ofProperty, isData, gets, sets]

end Descriptor

theorem Property.sameLayout_self (property : Property) : property.sameLayout property = true := by
  obtain ⟨slot, enumerable, configurable⟩ := property
  cases slot <;> simp [sameLayout]

/-- Defining a property as it is changes nothing. -/
theorem Heap.define_of_held
    {K : Type}
    {heap : Heap K}
    {id : ObjectId}
    {object : HeapObject K}
    {key : PropertyKey}
    {property : Property}
    (live : heap.get? id = some object)
    (held : object.properties.get? key = some property) :
    heap.define id key property = heap := by
  obtain ⟨⟨offset, existing⟩, found, rfl⟩ := Option.map_eq_some_iff.1 held
  rw [define_sameLayout heap id key existing live found existing.sameLayout_self]
  refine modify_of_unchanged live ?_
  rw [PropertyTable.setAt_of_at? (PropertyTable.at?_of_lookup? found)]

/-! ## Later machines -/

namespace Machine

/-- A later machine that has all the objects of an earlier one as they were, and maybe more. -/
structure Extends (before later : Machine σ) : Prop where
  objects : ∀ id object, before.heap.get? id = some object -> later.heap.get? id = some object
  intrinsics : later.intrinsics = before.intrinsics
  config : later.config = before.config

namespace Extends

variable {before later : Machine σ} {id : ObjectId} {objects : List ObjectId} {key : PropertyKey}
variable {middle : Machine σ}

theorem get? (extension : before.Extends later) (live : before.heap.contains id = true) :
    later.heap.get? id = before.heap.get? id := by
  obtain ⟨object, live⟩ := Heap.contains_iff.1 live
  rw [live]
  exact extension.objects id object live

theorem kind? (extension : before.Extends later) (live : before.heap.contains id = true) :
    later.kind? id = before.kind? id := by
  unfold Machine.kind? Heap.payload?
  rw [extension.get? live]

theorem prototypeOf (extension : before.Extends later) (live : before.heap.contains id = true) :
    later.heap.prototypeOf id = before.heap.prototypeOf id := by
  unfold Heap.prototypeOf
  rw [extension.get? live]

theorem isProxy (extension : before.Extends later) (live : before.heap.contains id = true) :
    later.isProxy id = before.isProxy id := by
  unfold Machine.isProxy
  rw [extension.kind? live]

section

variable (extension : before.Extends later)
include extension

/-- Objects that are no proxies own what they owned. -/
theorem getOwnProperty?
    (live : before.heap.contains id = true)
    (bare : before.isProxy id = false)
    (key : PropertyKey) :
    later.getOwnProperty? id key = before.getOwnProperty? id key := by
  have own : later.heap.getOwn? id key = before.heap.getOwn? id key := by
    unfold Heap.getOwn?
    rw [extension.get? live]
  rw [getOwnProperty?_of_kind? (extension.kind? live) bare,
    getOwnProperty?_of_behind (behindProxies?_of_bare bare)]
  unfold ordinaryOwnProperty?
  rw [extension.kind? live, own]

theorem heads
    (heads : before.Heads id objects)
    (live : ∀ object ∈ objects, before.heap.contains object = true) :
    later.Heads id objects := by
  induction heads with
  | last ends => exact .last ((extension.prototypeOf (live _ List.mem_cons_self)).trans ends)
  | link linked _ step =>
      exact .link ((extension.prototypeOf (live _ List.mem_cons_self)).trans linked)
        (step fun object member => live object (List.mem_cons_of_mem _ member))

theorem passes
    (passes : before.Passes key objects)
    (live : ∀ object ∈ objects, before.heap.contains object = true) :
    later.Passes key objects := by
  intro object member
  obtain ⟨bare, missing⟩ := passes object member
  rw [extension.isProxy (live object member),
    extension.getOwnProperty? (live object member) bare]
  exact ⟨bare, missing⟩

end

theorem contains (extension : before.Extends later) (live : before.heap.contains id = true) :
    later.heap.contains id = true := by
  unfold Heap.contains
  rw [extension.get? live]
  exact live

theorem refl (machine : Machine σ) : machine.Extends machine where
  objects _ _ live := live
  intrinsics := rfl
  config := rfl

theorem trans
    (earlier : before.Extends middle)
    (extension : middle.Extends later) :
    before.Extends later where
  objects id object live := extension.objects id object (earlier.objects id object live)
  intrinsics := extension.intrinsics.trans earlier.intrinsics
  config := extension.config.trans earlier.config

/-- An allocation adds an object. -/
theorem allocate (tidy : before.heap.Tidy) (prototype : Option ObjectId) (kind : ObjectKind) :
    before.Extends (before.allocate prototype kind).2 where
  objects id object live := by
    refine (Heap.get?_allocate_of_ne before.heap prototype kind fun same => ?_).trans live
    cases (tidy.allocated_dead prototype kind).symm.trans (same ▸ live)
  intrinsics := rfl
  config := rfl

/-- So do changes of the object that was added. -/
theorem trans_changesOnly
    {changed : PropertyKey -> Prop}
    (extension : before.Extends middle)
    (changes : middle.ChangesOnly changed id later)
    (dead : before.heap.get? id = none) :
    before.Extends later where
  objects other object live := by
    refine (changes.objects other fun same => ?_).trans (extension.objects other object live)
    subst same
    cases dead.symm.trans live
  intrinsics := by
    rw [changes.outside]
    exact extension.intrinsics
  config := by
    rw [changes.outside]
    exact extension.config

end Extends
end Machine

/-! ## Descriptor objects -/

/-- The names of the fields of a descriptor object. -/
def Descriptor.fieldNames : List String :=
  ["value", "writable", "get", "set", "enumerable", "configurable"]

namespace Machine

variable {before later : Machine σ}

/-- The prototype of plain objects heads a chain of live objects that has no field of a
descriptor, and the bound leaves room for one more object in front of it. -/
structure LacksFields (machine : Machine σ) (ancestors : List ObjectId) : Prop where
  heads : machine.Heads machine.intrinsics.objectPrototype ancestors
  live : ∀ ancestor ∈ ancestors, machine.heap.contains ancestor = true
  passes : ∀ name ∈ Descriptor.fieldNames, machine.Passes name ancestors
  room : ancestors.length < machine.config.maxPrototypeChain

theorem LacksFields.of_extends
    {ancestors : List ObjectId}
    (lacks : before.LacksFields ancestors)
    (extension : before.Extends later) :
    later.LacksFields ancestors where
  heads := by
    rw [extension.intrinsics]
    exact extension.heads lacks.heads lacks.live
  live ancestor member := extension.contains (lacks.live ancestor member)
  passes name field := extension.passes (lacks.passes name field) lacks.live
  room := by
    rw [extension.config]
    exact lacks.room

/-- A plain object has the fields of a descriptor and no others of their names. -/
structure Describes (machine : Machine σ) (id : ObjectId) (descriptor : Descriptor) : Prop where
  live : machine.heap.contains id = true
  bare : machine.isProxy id = false
  prototype : machine.heap.prototypeOf id = some machine.intrinsics.objectPrototype
  fields : ∀ entry ∈ Builtins.descriptorFields descriptor,
    machine.getOwnProperty? id entry.1 = entry.2.map Property.plain

theorem Describes.of_extends
    {id : ObjectId}
    {descriptor : Descriptor}
    (describes : before.Describes id descriptor)
    (extension : before.Extends later) :
    later.Describes id descriptor where
  live := extension.contains describes.live
  bare := (extension.isProxy describes.live).trans describes.bare
  prototype := by
    rw [extension.prototypeOf describes.live, extension.intrinsics]
    exact describes.prototype
  fields entry member :=
    (extension.getOwnProperty? describes.live describes.bare _).trans
      (describes.fields entry member)

end Machine

namespace Builtins

variable {object : HeapObject ObjectKind} {name : Value} {target : Value} {holder : ObjectId}
variable {property : Property}

open Exec

variable {machine : Machine σ} {id : ObjectId} {descriptor : Descriptor} {env : Env σ}
  {ancestors : List ObjectId}

/-! ### Reading -/

/-- A field is read as it was written: one that is missing is not found anywhere. -/
theorem descriptorField_of_describes
    (lacks : machine.LacksFields ancestors)
    (describes : machine.Describes id descriptor)
    {name : String}
    {field : Option Value}
    (member : (name, field) ∈ descriptorFields descriptor)
    (env : Env σ) :
    descriptorField id (.object id) name env machine = .ok field machine := by
  have held := describes.fields _ member
  unfold descriptorField
  cases field with
  | none =>
      have named : name ∈ (descriptorFields descriptor).map Prod.fst :=
        List.mem_map_of_mem member
      have passes : machine.Passes name (id :: ancestors) := fun other listed => by
        rcases List.mem_cons.1 listed with rfl | listed
        · exact ⟨describes.bare, held⟩
        · exact lacks.passes name named other listed
      have missing : hasProperty id name env machine = .ok false machine := by
        rw [hasProperty_of_heads (.link describes.prototype lacks.heads) passes]
        exact if_neg (Nat.not_lt.2 lacks.room)
      exact bind_of_ok _ missing
  | some value =>
      have chain : 1 <= machine.config.maxPrototypeChain := Nat.one_le_of_lt lacks.room
      have present : hasProperty id name env machine = .ok true machine := by
        obtain ⟨limit, bound⟩ := Nat.exists_eq_add_one.2 chain
        unfold hasProperty
        rw [ask_bind, bound, Machine.lookup_of_held describes.bare held]
        rfl
      rw [bind_of_ok _ present]
      have reads : getProperty (.object id) name env machine = .ok value machine :=
        getWithReceiver_of_own chain describes.bare held rfl _ env
      exact bind_of_ok _ reads

theorem requireAccessor_of_isHalf
    {accessor : Option Value}
    (half : ∀ value, accessor = some value -> value.IsHalf)
    (name : String)
    (env : Env σ)
    (machine : Machine σ) :
    requireAccessor name accessor env machine = .ok () machine := by
  unfold requireAccessor
  cases accessor with
  | none => rfl
  | some value =>
      have passes : (!value.isUndefined && !value.isCallable) = false := by
        rcases half value rfl with undefined | callable
        · simp [undefined]
        · simp [callable]
      dsimp only
      rw [if_neg (Bool.eq_false_iff.1 passes)]
      rfl

/-- The descriptor that is read is the one that was written. -/
theorem toDescriptor_of_describes
    (lacks : machine.LacksFields ancestors)
    (describes : machine.Describes id descriptor)
    (formed : descriptor.WellFormed)
    (env : Env σ) :
    toDescriptor (.object id) env machine = .ok descriptor machine := by
  have field (name : String) (field : Option Value)
      (member : (name, field) ∈ descriptorFields descriptor) :=
    descriptorField_of_describes lacks describes member env
  have enumerable := field "enumerable" (descriptor.enumerable.map .boolean) (by
    simp [descriptorFields])
  have configurable := field "configurable" (descriptor.configurable.map .boolean) (by
    simp [descriptorFields])
  have value := field "value" descriptor.value (by simp [descriptorFields])
  have writable := field "writable" (descriptor.writable.map .boolean) (by
    simp [descriptorFields])
  have getter := field "get" descriptor.get (by simp [descriptorFields])
  have setter := field "set" descriptor.set (by simp [descriptorFields])
  have truth (asked : Option Bool) : (asked.map Value.boolean).map Value.isTruthy = asked := by
    cases asked <;> rfl
  unfold toDescriptor
  dsimp only [Value.objectId?]
  rw [bind_of_ok _ enumerable, bind_of_ok _ configurable, bind_of_ok _ value,
    bind_of_ok _ writable, bind_of_ok _ getter, bind_of_ok _ setter,
    bind_of_ok _ (requireAccessor_of_isHalf formed.getter ..),
    bind_of_ok _ (requireAccessor_of_isHalf formed.setter ..), truth, truth, truth]
  have apart : (descriptor.isAccessor && descriptor.isData) = false := by
    cases accessor : descriptor.isAccessor with
    | true => exact formed.unmixed accessor
    | false => rfl
  rw [if_neg (Bool.eq_false_iff.1 apart)]
  rfl

/-! ### Writing -/

/-- Fields of different names that an object lacks are defined one after the other. -/
theorem defineFields_of_roomy
    (unwatched : ∀ seen, env.watch seen = false)
    (fields : List (String × Option Value))
    (distinct : (fields.map Prod.fst).Nodup)
    {machine : Machine σ}
    (tidy : machine.heap.Tidy)
    (roomy : machine.Roomy id object)
    (missing : ∀ entry ∈ fields, machine.getOwnProperty? id entry.1 = none) :
    ∃ after later,
      (fields.forM fun (name, field) => do
        match field with
        | some value => defineRaw id name (.plain value)
        | none => pure () : Exec σ Unit) env machine = .ok () after ∧
      after.heap.Tidy ∧ after.Roomy id later ∧
      (∀ entry ∈ fields, after.getOwnProperty? id entry.1 = entry.2.map Property.plain) ∧
      machine.ChangesOnly (fun key => ∃ entry ∈ fields, key = entry.1) id after := by
  induction fields generalizing machine object with
  | nil => exact ⟨machine, object, rfl, tidy, roomy, nofun, .refl machine⟩
  | cons entry rest step =>
      obtain ⟨name, field⟩ := entry
      obtain ⟨apart, distinct⟩ := List.nodup_cons.1 distinct
      have other : ∀ entry ∈ rest, (entry.1 : PropertyKey) ≠ name := fun entry member same =>
        apart (List.mem_map.2 ⟨entry, member, PropertyKey.string.inj same⟩)
      -- The first field leaves the object roomy and without the fields that follow.
      obtain ⟨middle, grown, ran, neat, still, held, changes⟩ : ∃ middle grown,
          (match field with
            | some value => defineRaw id name (.plain value)
            | none => pure () : Exec σ Unit) env machine = .ok () middle ∧
          middle.heap.Tidy ∧ middle.Roomy id grown ∧
          middle.getOwnProperty? id name = field.map Property.plain ∧
          machine.ChangesOnly (· = (name : PropertyKey)) id middle := by
        cases field with
        | none => exact ⟨machine, object, rfl, tidy, roomy, missing _ (.head _), .refl machine⟩
        | some value =>
            obtain ⟨grown, still, held, changes⟩ := roomy.defineRaw name (.plain value)
            have defined := change_of_unwatched unwatched
              (fun machine => ((), machine.defineRaw id name (.plain value))) machine
            exact ⟨_, grown, defined, tidy.define id name _, still, held, changes⟩
      have lacking : ∀ entry ∈ rest, middle.getOwnProperty? id entry.1 = none :=
        fun entry member => (changes.property _ (other entry member)).trans
          (missing entry (.tail _ member))
      obtain ⟨after, later, looped, last, built, fields, more⟩ := step distinct neat still lacking
      refine ⟨after, later, (bind_of_ok _ ran).trans looped, last, built, fun entry member => ?_,
        changes.trans more (fun key same => ⟨_, .head _, same⟩)
          fun key ⟨entry, member, same⟩ => ⟨entry, .tail _ member, same⟩⟩
      rcases List.mem_cons.1 member with rfl | member
      · refine (more.property _ fun ⟨entry, member, same⟩ => ?_).trans held
        exact other entry member same.symm
      · exact fields entry member

/-- A plain object that is added is empty and takes everything. -/
theorem allocateOrdinary_roomy (tidy : machine.heap.Tidy) :
    ∃ made start object, machine.allocateOrdinary = (made, start) ∧
      machine.heap.get? made = none ∧ machine.Extends start ∧ start.heap.Tidy ∧
      start.Roomy made object ∧ object.properties = {} ∧
      start.heap.prototypeOf made = some machine.intrinsics.objectPrototype := by
  let prototype := some machine.intrinsics.objectPrototype
  have live : (machine.allocate prototype .ordinary).2.heap.get? _ = _ :=
    tidy.allocated_live prototype .ordinary
  refine ⟨_, _, _, rfl, tidy.allocated_dead prototype .ordinary,
    .allocate tidy prototype .ordinary, tidy.allocate prototype .ordinary,
    ⟨live, List.nodup_nil, rfl, nofun, rfl⟩, rfl, ?_⟩
  exact congrArg (Option.bind · HeapObject.prototype) live

/-- A descriptor object is new, and all other objects are as before. -/
theorem ofDescriptor_describes
    (tidy : machine.heap.Tidy)
    (descriptor : Descriptor)
    (unwatched : ∀ seen, env.watch seen = false) :
    ∃ made between, ofDescriptor descriptor env machine = .ok (.object made) between ∧
      machine.Extends between ∧ between.heap.Tidy ∧ between.Describes made descriptor := by
  obtain ⟨made, start, object, allocated, dead, extension, neat, roomy, empty, prototype⟩ :=
    allocateOrdinary_roomy tidy
  have distinct : ((descriptorFields descriptor).map Prod.fst).Nodup := by
    show Descriptor.fieldNames.Nodup
    decide
  obtain ⟨between, later, looped, last, built, fields, changes⟩ :=
    defineFields_of_roomy unwatched (descriptorFields descriptor) distinct neat roomy
      fun entry _ => by
        rw [roomy.getOwnProperty?_eq, Heap.getOwn?_of_live roomy.live, empty]
        exact PropertyTable.get?_eq_none_iff.2 List.not_mem_nil
  have added := extension.trans_changesOnly changes dead
  refine ⟨made, between, ?_, added, last, ⟨Heap.contains_iff.2 ⟨_, built.live⟩, built.isProxy,
    ?_, fields⟩⟩
  · have allocates : (change Machine.allocateOrdinary : Exec σ ObjectId) env machine =
        .ok made start := by
      rw [change_of_unwatched unwatched, allocated]
    unfold ofDescriptor
    rw [bind_of_ok _ allocates]
    exact bind_of_ok _ looped
  · rw [changes.prototype, added.intrinsics]
    exact prototype

/-! ### Round trips -/

/-- A primitive names a key by itself. -/
theorem toPropertyKey_of_primitive
    (primitive : name.isObject = false)
    (env : Env σ)
    (machine : Machine σ) :
    toPropertyKey name env machine = .ok name.primitiveKey machine := by
  have kept : toPrimitive name .string env machine = .ok name machine := by
    unfold toPrimitive
    rw [primitive]
    rfl
  exact bind_of_ok _ kept

variable (lacks : machine.LacksFields ancestors)
include lacks

theorem defineProperty_of_describes
    (describes : machine.Describes id descriptor)
    (formed : descriptor.WellFormed)
    (names : target.objectId? = some holder)
    (primitive : name.isObject = false)
    {after : Machine σ}
    (defined : defineOwnProperty holder name.primitiveKey descriptor env machine =
      .ok true after) :
    defineProperty target name (.object id) env machine = .ok target after := by
  have accepted : defineOrThrow holder name.primitiveKey descriptor env machine = .ok () after :=
    bind_of_ok _ defined
  unfold defineProperty
  rw [names]
  dsimp only
  rw [bind_of_ok _ (toPropertyKey_of_primitive primitive env machine),
    bind_of_ok _ (toDescriptor_of_describes lacks describes formed env), bind_of_ok _ accepted]
  rfl

/-- On an object without properties that takes new ones, the descriptor of a property defines
that property. -/
theorem defineProperty_on_empty
    (describes : machine.Describes id (.ofProperty property))
    (halves : property.HasHalves)
    {fresh : ObjectId}
    (roomy : machine.Roomy fresh object)
    (empty : object.properties = {})
    (primitive : name.isObject = false)
    (unwatched : ∀ seen, env.watch seen = false) :
    ∃ after, defineProperty (.object fresh) name (.object id) env machine =
        .ok (.object fresh) after ∧
      after.getOwnProperty? fresh name.primitiveKey = some property ∧
      machine.ChangesOnly (· = name.primitiveKey) fresh after := by
  have missing : machine.heap.getOwn? fresh name.primitiveKey = none := by
    rw [Heap.getOwn?_of_live roomy.live, empty]
    exact PropertyTable.get?_eq_none_iff.2 List.not_mem_nil
  have defined : defineOwnProperty fresh name.primitiveKey (.ofProperty property) env machine =
      .ok true (machine.defineRaw fresh name.primitiveKey property) := by
    rw [defineOwnProperty_of_table roomy.behind roomy.apart, change_of_unwatched unwatched]
    unfold Machine.defineOrdinary
    rw [missing]
    dsimp only
    rw [Machine.isExtensible_of_live roomy.live, roomy.extensible, Descriptor.merge_ofProperty]
    rfl
  obtain ⟨_, _, held, changes⟩ := roomy.defineRaw name.primitiveKey property
  exact ⟨_, defineProperty_of_describes lacks describes (Descriptor.wellFormed_ofProperty halves)
    rfl primitive defined, held, changes⟩

/-- On the object that has the property in its table, its descriptor changes nothing. -/
theorem defineProperty_on_itself
    (describes : machine.Describes id (.ofProperty property))
    (halves : property.HasHalves)
    (names : target.objectId? = some holder)
    (plain : machine.heap.Plain holder)
    (primitive : name.isObject = false)
    (held : machine.getOwnProperty? holder name.primitiveKey = some property)
    (unwatched : ∀ seen, env.watch seen = false) :
    defineProperty target name (.object id) env machine = .ok target machine := by
  rw [Machine.getOwnProperty?_of_plain plain] at held
  obtain ⟨kind, present, ordinary⟩ := plain
  obtain ⟨object, live, rfl⟩ := Option.map_eq_some_iff.1 present
  have unchanged : machine.defineRaw holder name.primitiveKey property = machine := by
    rw [Heap.getOwn?_of_live live] at held
    unfold Machine.defineRaw Machine.modifyHeap
    dsimp only
    rw [Heap.define_of_held live held]
  have defined : defineOwnProperty holder name.primitiveKey (.ofProperty property) env machine =
      .ok true machine := by
    rw [defineOwnProperty_of_ordinary unwatched live ordinary]
    unfold Machine.defineOrdinary
    rw [held]
    dsimp only
    rw [Descriptor.isCompatible_ofProperty halves, if_pos rfl, Descriptor.merge_ofProperty,
      unchanged]
  exact defineProperty_of_describes lacks describes (Descriptor.wellFormed_ofProperty halves)
    names primitive defined

end Builtins

/-- In all that an embedder can come across, if the prototype of plain objects lacks the fields
of descriptors, the descriptor object of an own property defines the same property on a new
object, and changes nothing on the object that it comes from, unless that is an array or a
proxy. -/
theorem descriptors_round_trip
    {sight : Sight σ}
    (visible : sight.Visible)
    {ancestors : List ObjectId}
    (lacks : sight.machine.LacksFields ancestors)
    {target name : Value}
    {id : ObjectId}
    (names : target.objectId? = some id)
    (primitive : name.isObject = false)
    {property : Property}
    (held : sight.machine.getOwnProperty? id name.primitiveKey = some property)
    (halves : property.HasHalves)
    (fuel : Nat) :
    let env := Env.ofFuel fuel
    ∃ descriptor between,
      Builtins.getOwnPropertyDescriptor target name env sight.machine = .ok descriptor between ∧
      sight.machine.Extends between ∧
      (∀ prototype kind, between.Extends (between.allocate prototype kind).2) ∧
      ∀ later, between.Extends later ->
        (∀ fresh object, later.heap.get? fresh = some object -> object.payload = .ordinary ->
          object.extensible = true -> object.properties = {} ->
          ∃ after, Builtins.defineProperty (.object fresh) name descriptor env later =
              .ok (.object fresh) after ∧
            after.getOwnProperty? fresh name.primitiveKey = some property ∧
            later.ChangesOnly (· = name.primitiveKey) fresh after) ∧
        (sight.machine.isPlain id = true ->
          Builtins.defineProperty target name descriptor env later = .ok target later) := by
  obtain ⟨layout, laid⟩ := visible.laid
  have unwatched : ∀ seen, (Env.ofFuel fuel : Env σ).watch seen = false := fun _ => rfl
  obtain ⟨made, between, wrote, extension, tidy, describes⟩ :=
    Builtins.ofDescriptor_describes laid.tidy (.ofProperty property) unwatched
  refine ⟨.object made, between, ?_, extension, .allocate tidy, fun later added => ?_⟩
  · have coercible : Builtins.requireCoercible target (Env.ofFuel fuel) sight.machine =
        .ok () sight.machine := by
      cases target <;> cases names <;> rfl
    unfold Builtins.getOwnPropertyDescriptor
    rw [Exec.bind_of_ok _ coercible,
      Exec.bind_of_ok _ (Builtins.toPropertyKey_of_primitive primitive _ _), Exec.ask_bind, names,
      Option.bind_some, held]
    exact wrote
  · have lacking := (lacks.of_extends extension).of_extends added
    have describing := describes.of_extends added
    refine ⟨fun fresh object live ordinary extensible empty => ?_, fun plain => ?_⟩
    · have roomy : later.Roomy fresh object := by
        refine ⟨live, ?_, ?_, fun store array => ?_, extensible⟩
        · rw [empty]
          exact List.nodup_nil
        · rw [ordinary]
          rfl
        · cases ordinary.symm.trans array
      exact Builtins.defineProperty_on_empty lacking describing halves roomy empty primitive
        unwatched
    · obtain ⟨kind, present, ordinary⟩ := Machine.isPlain_iff.1 plain
      have live : sight.machine.heap.contains id = true := by
        obtain ⟨object, live, _⟩ := Option.map_eq_some_iff.1 present
        exact Heap.contains_iff.2 ⟨object, live⟩
      have bare : sight.machine.isProxy id = false := by
        unfold Machine.isProxy
        rw [show sight.machine.kind? id = some kind from present]
        exact ObjectKind.isProxy_of_ordinary ordinary
      have both := extension.trans added
      have still : later.heap.Plain id := ⟨kind, (both.kind? live).trans present, ordinary⟩
      refine Builtins.defineProperty_on_itself lacking describing halves names still primitive ?_
        unwatched
      exact (both.getOwnProperty? live bare _).trans held

/-- The prototype of plain objects is the end of its chain and has no field of a descriptor. -/
def Machine.hasBarePrototype (machine : Machine σ) : Bool :=
  let root := machine.intrinsics.objectPrototype
  machine.heap.contains root && (machine.heap.prototypeOf root).isNone &&
    !machine.isProxy root && decide (1 < machine.config.maxPrototypeChain) &&
    Descriptor.fieldNames.all fun name => (machine.getOwnProperty? root name).isNone

theorem Machine.lacksFields_of_hasBarePrototype
    (bare : machine.hasBarePrototype = true) :
    machine.LacksFields [machine.intrinsics.objectPrototype] := by
  simp only [hasBarePrototype, Bool.and_eq_true, Option.isNone_iff_eq_none,
    Bool.not_eq_true', decide_eq_true_eq, List.all_eq_true] at bare
  obtain ⟨⟨⟨⟨live, ends⟩, bare⟩, room⟩, missing⟩ := bare
  refine ⟨.last ends, fun ancestor member => ?_, fun name field ancestor member => ?_, room⟩
  · rw [List.mem_singleton.1 member]
    exact live
  · rw [List.mem_singleton.1 member]
    exact ⟨bare, missing name field⟩

/-- An embedder gives an object an accessor with this getter, and makes one more object. -/
def accessorProgram (getter : Value) : HostProgram Unit :=
  .request .createObject fun object =>
    .request (.define (object.objectId?.getD ⟨0⟩) "x" { get := some getter }) fun _ =>
      .request .createObject fun fresh => .finish (.ok fresh)

/-- An accessor without halves that is not configurable comes back on both objects. -/
theorem descriptors_round_trip_accessorProgram :
    ∃ (sight : Sight Unit) (id fresh : ObjectId) (descriptor : Value) (between : Machine Unit),
      sight.Visible ∧
      let name : Value := .string "x"
      let property := Property.ofAccessors .undefined .undefined false false
      sight.machine.getOwnProperty? id "x" = some property ∧
      Builtins.getOwnPropertyDescriptor (.object id) name (Env.ofFuel 0) sight.machine =
        .ok descriptor between ∧
      (∃ after, Builtins.defineProperty (.object fresh) name descriptor (Env.ofFuel 0) between =
          .ok (.object fresh) after ∧
        after.getOwnProperty? fresh "x" = some property) ∧
      Builtins.defineProperty (.object id) name descriptor (Env.ofFuel 0) between =
        .ok (.object id) between := by
  have seen : ∃ ended ∈ Exec.ended?
      ((Builtins.newMachine {} ()).runWithin 20 (accessorProgram .undefined)),
      ∃ fresh ∈ ended.1.objectId?, ∃ object ∈ ended.2.heap.get? fresh,
        (object.payload matches .ordinary) = true ∧ object.extensible = true ∧
        object.properties = {} ∧ ended.2.hasBarePrototype = true ∧
        ended.2.isPlain ⟨fresh.index - 1⟩ = true ∧
        ended.2.getOwnProperty? ⟨fresh.index - 1⟩ "x" =
          some (.ofAccessors .undefined .undefined false false) := by
    decide +kernel
  obtain ⟨⟨_, machine⟩, ended, fresh, _, object, live, slots, extensible, empty, bare, plain,
    held⟩ := seen
  have visible : Sight.Visible { machine } :=
    .between (.returned (.new {} ()) (Exec.eq_of_ended? ended))
  have ordinary : object.payload = .ordinary := by
    cases present : object.payload with
    | ordinary => rfl
    | _ =>
        rw [present] at slots
        cases slots
  have names : (Value.object ⟨fresh.index - 1⟩).objectId? = some ⟨fresh.index - 1⟩ := rfl
  have primitive : (Value.string "x").isObject = false := rfl
  obtain ⟨descriptor, between, wrote, extension, _, defines⟩ :=
    descriptors_round_trip visible (Machine.lacksFields_of_hasBarePrototype bare) names primitive
      held ⟨.inl rfl, .inl rfl⟩ 0
  obtain ⟨anew, again⟩ := defines between (.refl between)
  obtain ⟨after, defined, copied, _⟩ :=
    anew fresh object (extension.objects _ _ live) ordinary extensible empty
  exact ⟨{ machine }, _, fresh, descriptor, between, visible, held, wrote,
    ⟨after, defined, copied⟩, again plain⟩

/-- An object has a property of this name, and the descriptor object of it is thrown back, even
by the object that it comes from. -/
def Machine.ThrowsBack (machine : Machine σ) (id : ObjectId) (name : String) : Prop :=
  ∃ property descriptor between exception after,
    machine.getOwnProperty? id name = some property ∧
    Builtins.getOwnPropertyDescriptor (.object id) (.string name) (Env.ofFuel 0) machine =
      .ok descriptor between ∧
    Builtins.defineProperty (.object id) (.string name) descriptor (Env.ofFuel 0) between =
      .error (.thrown exception) after

/-- The same by a run. -/
def Machine.throwsBack (machine : Machine σ) (id : ObjectId) (name : String) : Bool :=
  (machine.getOwnProperty? id name).isSome &&
    match Builtins.getOwnPropertyDescriptor (.object id) (.string name) (Env.ofFuel 0) machine with
    | .ok descriptor between =>
        match Builtins.defineProperty (.object id) (.string name) descriptor (Env.ofFuel 0)
          between with
        | .error (.thrown _) _ => true
        | _ => false
    | _ => false

theorem Machine.ThrowsBack.of_run
    {id : ObjectId}
    {name : String}
    (run : machine.throwsBack id name = true) :
    machine.ThrowsBack id name := by
  obtain ⟨owns, run⟩ := (Bool.and_eq_true _ _).mp run
  obtain ⟨property, held⟩ := Option.isSome_iff_exists.1 owns
  split at run
  · next descriptor between wrote =>
      split at run
      · next exception after thrown =>
          exact ⟨property, descriptor, between, exception, after, held, wrote, thrown⟩
      · cases run
  · cases run

/-- An embedder makes an object with a property and lets all plain objects inherit from the
handle that comes next. Before that it makes an object without a prototype there, or not. -/
def sharedRootProgram (made : Bool) : HostProgram Unit :=
  .request .createObject fun object =>
    let id := object.objectId?.getD ⟨0⟩
    let root : ObjectId := ⟨id.index + 1⟩
    let link : HostProgram Unit :=
      .request (.prototypeOf id) fun prototype =>
        .request (.setPrototypeOf (prototype.toOption.join.getD ⟨0⟩) (some root)) fun _ =>
          .finish (.ok object)
    .request (.createDataProperty id "x" .null) fun _ =>
      if made then
        .request .createObject fun _ => .request (.setPrototypeOf root none) fun _ => link
      else link

/-- A descriptor object is thrown back if a half of the accessor is no function. So it is if the
prototype of plain objects has a prototype in turn, though none of both has a field of a
descriptor: either the bound is two objects, or the second one is not there yet, so that its
handle goes to the descriptor object itself. -/
theorem descriptor_thrown_back :
    (∃ (sight : Sight Unit) (id : ObjectId), sight.Visible ∧
      sight.machine.LacksFields [sight.machine.intrinsics.objectPrototype] ∧
      sight.machine.isPlain id = true ∧ sight.machine.ThrowsBack id "x") ∧
    ∀ made : Bool, ∃ (sight : Sight Unit) (id root : ObjectId), sight.Visible ∧
      let ancestors := [sight.machine.intrinsics.objectPrototype, root]
      sight.machine.config.maxPrototypeChain = (if made then 2 else 3) ∧
      sight.machine.Heads sight.machine.intrinsics.objectPrototype ancestors ∧
      sight.machine.heap.contains root = made ∧
      (∀ name ∈ Descriptor.fieldNames, sight.machine.Passes name ancestors) ∧
      sight.machine.isPlain id = true ∧ sight.machine.ThrowsBack id "x" := by
  constructor
  · have seen : ∃ ended ∈ Exec.ended?
        ((Builtins.newMachine {} ()).runWithin 20 (accessorProgram (.number 1))),
        ∃ fresh ∈ ended.1.objectId?, ended.2.hasBarePrototype = true ∧
          ended.2.isPlain ⟨fresh.index - 1⟩ = true ∧
          ended.2.throwsBack ⟨fresh.index - 1⟩ "x" = true := by
      decide +kernel
    obtain ⟨⟨_, machine⟩, ended, fresh, _, bare, plain, run⟩ := seen
    exact ⟨{ machine }, _, .between (.returned (.new {} ()) (Exec.eq_of_ended? ended)),
      Machine.lacksFields_of_hasBarePrototype bare, plain, .of_run run⟩
  · intro made
    let config : Config := { maxPrototypeChain := if made then 2 else 3 }
    have seen : ∃ ended ∈ Exec.ended?
        ((Builtins.newMachine config ()).runWithin 20 (sharedRootProgram made)),
        ∃ id ∈ ended.1.objectId?,
          ended.2.config.maxPrototypeChain = (if made then 2 else 3) ∧
          ∃ root ∈ ended.2.heap.prototypeOf ended.2.intrinsics.objectPrototype,
            ended.2.heap.prototypeOf root = none ∧ ended.2.heap.contains root = made ∧
            (∀ name ∈ Descriptor.fieldNames,
              ∀ ancestor ∈ [ended.2.intrinsics.objectPrototype, root],
                ended.2.isProxy ancestor = false ∧
                  ended.2.getOwnProperty? ancestor name = none) ∧
            ended.2.isPlain id = true ∧ ended.2.throwsBack id "x" = true := by
      revert made
      decide +kernel
    obtain ⟨⟨_, machine⟩, ended, id, _, bound, root, linked, ends, live, passes, plain, run⟩ := seen
    exact ⟨{ machine }, id, root, .between (.returned (.new config ()) (Exec.eq_of_ended? ended)),
      bound, .link linked (.last ends), live, passes, plain, .of_run run⟩

end ScriptVM

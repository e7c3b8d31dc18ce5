import ScriptVM.Proofs.CachedReads

/-!
# Cached writes

A write through an inline cache overwrites the data that an object has at a remembered
place. The shape of the object tells the key at that place, but not whether the property
is writable. So a write through a cache does what a write without one does, unless it
overwrites a property that the object holds read-only.
-/

namespace ScriptVM

variable {property : Property} {machine : Machine σ}

/-! ## Overwriting -/

theorem PropertyTable.setAt_of_at?
    {table : PropertyTable}
    {offset : Nat}
    {key : PropertyKey}
    (stands : table.at? offset = some (key, property)) :
    table.setAt offset property = table := by
  refine congrArg PropertyTable.mk (Array.ext_getElem? fun index => ?_)
  rw [Array.getElem?_modify]
  split
  · next here =>
      subst here
      unfold at? at stands
      rw [stands]
      rfl
  · rfl

/-- Data that stays the same under a new value has this value. -/
theorem Property.value?_of_withValue_eq
    {value : Value}
    (data : property.isData = true)
    (same : property.withValue value = property) :
    property.value? = some value := by
  obtain ⟨slot, enumerable, configurable⟩ := property
  cases slot with
  | accessor getter setter => cases data
  | data stored flag =>
      cases same
      rfl

namespace Heap

variable {K : Type} {heap : Heap K} {id : ObjectId} {object : HeapObject K}

theorem modify_of_unchanged
    {change : HeapObject K -> HeapObject K}
    (live : heap.get? id = some object)
    (same : change object = object) :
    heap.modify id change = heap := by
  have objects : heap.objects.modify id.index (Option.map fun object => object) =
      heap.objects := by
    refine Array.ext_getElem? fun index => ?_
    rw [Array.getElem?_modify]
    split <;> simp
  have kept : heap.modify id change = heap.modify id fun object => object :=
    modify_congr live same
  rw [kept]
  unfold modify
  rw [objects]

variable {key : PropertyKey} {offset : Nat} {property : Property}

variable (live : heap.get? id = some object)
include live

theorem setValueAt_eq_modify
    (stands : object.properties.at? offset = some (key, property))
    (value : Value) :
    heap.setValueAt id offset value =
      heap.modify id fun changed =>
        { changed with
          properties := changed.properties.setAt offset (property.withValue value) } := by
  refine modify_congr live ?_
  rw [stands]

/-- Overwriting the value of a writable property defines it anew. -/
theorem setValueAt_eq_define
    (found : object.properties.lookup? key = some (offset, property))
    (writable : property.isWritable = true)
    (value : Value) :
    heap.setValueAt id offset value =
      heap.define id key (.ofData value true property.enumerable property.configurable) := by
  obtain ⟨slot, enumerable, configurable⟩ := property
  cases slot with
  | accessor getter setter => cases writable
  | data stored flag =>
      cases writable
      have alike : Property.sameLayout ⟨.data stored true, enumerable, configurable⟩
          (.ofData value true enumerable configurable) = true := by
        simp [Property.sameLayout, Property.ofData]
      rw [setValueAt_eq_modify live (PropertyTable.at?_of_lookup? found),
        define_sameLayout heap id key _ live found alike]
      rfl

/-- Overwriting a value by itself changes nothing. -/
theorem setValueAt_of_same
    (stands : object.properties.at? offset = some (key, property))
    {value : Value}
    (same : property.value? = some value) :
    heap.setValueAt id offset value = heap := by
  have kept : property.withValue value = property := by
    obtain ⟨slot, enumerable, configurable⟩ := property
    cases slot <;> cases same
    rfl
  rw [setValueAt_eq_modify live stands]
  refine modify_of_unchanged live ?_
  rw [kept, PropertyTable.setAt_of_at? stands]

/-- What an object has under a key after it was overwritten. -/
theorem getOwn?_setValueAt
    (distinct : object.properties.keys.Nodup)
    (stands : object.properties.at? offset = some (key, property))
    (value : Value) :
    (heap.setValueAt id offset value).getOwn? id key = some (property.withValue value) := by
  have placed : (object.properties.setAt offset (property.withValue value)).at? offset =
      some (key, property.withValue value) := by
    unfold PropertyTable.setAt PropertyTable.at?
    rw [Array.getElem?_modify, if_pos rfl]
    unfold PropertyTable.at? at stands
    rw [stands]
    rfl
  have found := PropertyTable.lookup?_of_at? (by rwa [PropertyTable.keys_setAt]) placed
  unfold getOwn? PropertyTable.get?
  rw [setValueAt_eq_modify live stands, get?_modify_self, live, Option.map_some,
    Option.bind_some, found]
  rfl

end Heap

/-! ## Uncached writes -/

variable {σ : Type}

theorem Machine.getOwnProperty?_of_plain
    {id : ObjectId}
    (plain : machine.heap.Plain id)
    (key : PropertyKey) :
    machine.getOwnProperty? id key = machine.heap.getOwn? id key := by
  have own := ordinaryOwnProperty?_of_plain plain key
  obtain ⟨kind, present, ordinary⟩ := plain
  unfold getOwnProperty? behindProxies? throughProxies kind?
  rw [present]
  cases kind with
  | proxy => cases ordinary
  | _ => exact own

theorem Machine.arrayStatus?_of_plain
    {id : ObjectId}
    (plain : machine.heap.Plain id) :
    machine.arrayStatus? id = none := by
  obtain ⟨kind, present, ordinary⟩ := plain
  unfold arrayStatus? kind?
  rw [present]
  cases kind with
  | array => cases ordinary
  | _ => rfl

namespace Exec

variable {env : Env σ} {machine : Machine σ} {target : Value} {id : ObjectId}
  {key : PropertyKey} {property : Property}

/-- A walk from a plain object that owns the property goes no further. -/
theorem lookup_of_own
    (plain : machine.heap.Plain id)
    (own : machine.heap.getOwn? id key = some property) :
    machine.lookup key (machine.config.maxPrototypeChain + 1) id = .found property := by
  rw [Machine.lookup_of_plain plain, own]

/-- A writable property of the receiver is overwritten. -/
theorem setWithReceiver_of_writable
    (unwatched : ∀ seen, env.watch seen = false)
    (named : target.objectId? = some id)
    (plain : machine.heap.Plain id)
    (own : machine.heap.getOwn? id key = some property)
    (writable : property.isWritable = true)
    (value : Value) :
    setWithReceiver id key value target env machine =
      .ok true (machine.defineRaw id key
        (.ofData value true property.enumerable property.configurable)) := by
  have written : writeOwnValue id key value env machine =
      .ok true (machine.defineRaw id key
        (.ofData value true property.enumerable property.configurable)) := by
    have apart : ¬ ((none : Option (Nat × Bool)).isSome && key == Machine.lengthKey) = true :=
      Bool.false_ne_true
    unfold writeOwnValue
    rw [ask_bind, Machine.arrayStatus?_of_plain plain]
    dsimp only
    rw [if_neg apart, change_of_unwatched unwatched, own]
  have assigned : assignOwn target key value env machine =
      .ok true (machine.defineRaw id key
        (.ofData value true property.enumerable property.configurable)) := by
    unfold assignOwn
    rw [named]
    dsimp only
    rw [ask_bind, Machine.getOwnProperty?_of_plain plain, own]
    dsimp only
    rw [if_pos writable, written]
  unfold setWithReceiver
  rw [ask_bind, lookup_of_own plain own]
  dsimp only
  obtain ⟨slot, enumerable, configurable⟩ := property
  cases slot with
  | accessor getter setter => cases writable
  | data stored flag =>
      cases writable
      exact assigned

/-- A read-only property of the receiver refuses the write. -/
theorem setWithReceiver_of_readOnly
    (plain : machine.heap.Plain id)
    (own : machine.heap.getOwn? id key = some property)
    (data : property.isData = true)
    (readOnly : property.isWritable = false)
    (value : Value) :
    setWithReceiver id key value target env machine = .ok false machine := by
  unfold setWithReceiver
  rw [ask_bind, lookup_of_own plain own]
  dsimp only
  obtain ⟨slot, enumerable, configurable⟩ := property
  cases slot with
  | accessor getter setter => cases data
  | data stored flag =>
      cases readOnly
      rfl

theorem setProperty_of_writable
    (unwatched : ∀ seen, env.watch seen = false)
    (named : target.objectId? = some id)
    (plain : machine.heap.Plain id)
    (own : machine.heap.getOwn? id key = some property)
    (writable : property.isWritable = true)
    (value : Value)
    (strict : Bool) :
    setProperty target key value strict env machine =
      .ok () (machine.defineRaw id key
        (.ofData value true property.enumerable property.configurable)) := by
  unfold setProperty
  rw [ask_bind, named]
  exact bind_of_ok _ (setWithReceiver_of_writable unwatched named plain own writable value)

/-- A refused write throws in strict code and does nothing otherwise. -/
theorem setProperty_of_readOnly
    (named : target.objectId? = some id)
    (plain : machine.heap.Plain id)
    (own : machine.heap.getOwn? id key = some property)
    (data : property.isData = true)
    (readOnly : property.isWritable = false)
    (value : Value)
    (strict : Bool) :
    setProperty target key value strict env machine =
      if strict then
        typeError (fun machine =>
          "Cannot assign to read only property '" ++ machine.displayKey key ++ "' of " ++
            machine.display target) env machine
      else .ok () machine := by
  unfold setProperty
  rw [ask_bind, named]
  refine (bind_of_ok _ (setWithReceiver_of_readOnly plain own data readOnly value)).trans ?_
  cases strict <;> rfl

end Exec

/-! ## Agreement -/

/-- Two machines have the same own properties, with their attributes, and the same
elements. -/
def Machine.SameProperties
    (left right : Machine σ) : Prop :=
  ∀ id key, left.ordinaryOwnProperty? id key = right.ordinaryOwnProperty? id key

/-- Two runs have the same outcome and leave the same properties. -/
def Exec.Agree {α : Type} :
    EStateM.Result (Stop σ) (Machine σ) α -> EStateM.Result (Stop σ) (Machine σ) α -> Prop
  | .ok answer after, .ok other later => answer = other ∧ after.SameProperties later
  | .error stop after, .error other later => stop = other ∧ after.SameProperties later
  | _, _ => False

namespace Machine

variable {machine : Machine σ} {id : ObjectId} {key : PropertyKey} {slot : Nat}
variable {template : TemplateId} {offset : Nat}

/-- A slot remembers an own place for the shape of an object. -/
def Recalls
    (machine : Machine σ)
    (id : ObjectId)
    (template : TemplateId)
    (slot offset : Nat) : Prop :=
  ∃ cache shape, machine.cache? template slot = some cache ∧
    machine.heap.shapeOf? id = some shape ∧ cache.lookup? shape = some (.own offset)

/-- A write through a slot has something to overwrite that it must not change: a plain
object for whose shape the slot remembers a place, where the object itself has a read-only
property. In sloppy code no harm is done if the value is the same. -/
structure Clobbers
    (machine : Machine σ)
    (id : ObjectId)
    (key : PropertyKey)
    (value : Value)
    (template : Template)
    (slot : Nat) : Prop where
  caching : machine.config.inlineCaches = true
  plain : machine.heap.Plain id
  recalls : ∃ offset, machine.Recalls id template.id slot offset
  readOnly : ∃ property, machine.heap.getOwn? id key = some property ∧
    property.isData = true ∧ property.isWritable = false ∧
      (template.isStrict = true ∨ property.value? ≠ some value)

/-- A cache stores a value at a place that it remembers, if there is data. -/
theorem cachedStore_cases
    (machine : Machine σ)
    (id : ObjectId)
    (value : Value)
    (template : TemplateId)
    (slot : Nat) :
    machine.cachedStore id value template slot = (false, machine) ∨
      ∃ offset, machine.Recalls id template slot offset ∧
        machine.heap.hasDataAt id offset = true ∧
          machine.cachedStore id value template slot =
            (true, machine.modifyHeap fun heap => heap.setValueAt id offset value) := by
  unfold cachedStore
  dsimp only
  split
  · next offset hit =>
      split
      · next data =>
          obtain ⟨cache, cached, rest⟩ := Option.bind_eq_some_iff.1 hit
          obtain ⟨shape, shaped, remembered⟩ := Option.bind_eq_some_iff.1 rest
          exact Or.inr ⟨offset, ⟨cache, shape, cached, shaped, remembered⟩, data, rfl⟩
      · exact Or.inl rfl
  · exact Or.inl rfl

theorem cachedStore_of_recalls
    (recalls : machine.Recalls id template slot offset)
    (data : machine.heap.hasDataAt id offset = true)
    (value : Value) :
    machine.cachedStore id value template slot =
      (true, machine.modifyHeap fun heap => heap.setValueAt id offset value) := by
  obtain ⟨cache, shape, cached, shaped, remembered⟩ := recalls
  unfold cachedStore
  simp [cached, shaped, remembered, data]

/-- Remembering a place shows in no property. -/
theorem sameProperties_rememberOwn
    (machine : Machine σ)
    (id : ObjectId)
    (key : PropertyKey)
    (template : TemplateId)
    (slot : Nat) :
    (machine.rememberOwn id key template slot).SameProperties machine := by
  unfold rememberOwn
  split
  · split <;> exact fun _ _ => rfl
  · exact fun _ _ => rfl

theorem Recalls.stands
    {layout : Layout}
    (serves : machine.Serves layout key template slot)
    (recalls : machine.Recalls id template slot offset) :
    ∃ object property, machine.heap.get? id = some object ∧
      object.properties.keys.Nodup ∧ object.properties.at? offset = some (key, property) := by
  obtain ⟨cache, shape, cached, shaped, remembered⟩ := recalls
  obtain ⟨object, live, rfl⟩ := Option.map_eq_some_iff.1 shaped
  obtain ⟨_, _, keyed⟩ := serves.right cache cached _ (InlineCache.mem_entries_of_lookup? remembered)
  have old := serves.laid.objects id object live
  dsimp only at keyed
  rw [← old.keys, PropertyTable.getElem?_keys] at keyed
  obtain ⟨⟨other, property⟩, stands, same⟩ := Option.map_eq_some_iff.1 keyed
  cases same
  exact ⟨object, property, live, old.distinct, stands⟩

end Machine

/-! ## Cached writes -/

namespace Exec

variable {value : Value} {layout : Layout}

variable {env : Env σ} {machine : Machine σ} {target : Value} {id : ObjectId}
  {key : PropertyKey} {template : Template} {slot : Nat}

theorem Agree.refl {α : Type} (result : EStateM.Result (Stop σ) (Machine σ) α) :
    Agree result result := by
  cases result <;> exact ⟨rfl, fun _ _ => rfl⟩

section

variable (unwatched : ∀ seen, env.watch seen = false)
include unwatched

/-- What a write to a plain object through a slot does. -/
theorem setNamed_of_plain
    (caching : machine.config.inlineCaches = true)
    (named : target.objectId? = some id)
    (plain : machine.heap.Plain id)
    (key : PropertyKey)
    (value : Value)
    (template : Template)
    (slot : Nat) :
    setNamed target key value template slot env machine =
      (do
        if !(machine.cachedStore id value template.id slot).1 then
          setProperty target key value template.isStrict
          update fun machine => machine.rememberOwn id key template.id slot)
        env (machine.cachedStore id value template.id slot).2 := by
  have cacheable : target.objectId?.filter machine.isPlain = some id := by
    rw [named]
    exact Option.filter_some_pos (Machine.isPlain_iff.2 plain)
  unfold setNamed
  rw [ask_bind, if_pos caching, cacheable]
  exact bind_of_ok _ (change_of_unwatched unwatched _ machine)

/-- A write that the cache takes changes the heap and is done. -/
theorem setNamed_of_stored
    (caching : machine.config.inlineCaches = true)
    (named : target.objectId? = some id)
    (plain : machine.heap.Plain id)
    {offset : Nat}
    (stored : machine.cachedStore id value template.id slot =
      (true, machine.modifyHeap fun heap => heap.setValueAt id offset value)) :
    setNamed target key value template slot env machine =
      .ok () { machine with heap := machine.heap.setValueAt id offset value } := by
  rw [setNamed_of_plain unwatched caching named plain, stored]
  rfl

/-- Remembering a place after a run makes no difference. -/
theorem Agree.rememberOwn
    (computation : Exec σ Unit)
    (id : ObjectId)
    (key : PropertyKey)
    (template : TemplateId)
    (slot : Nat) :
    Agree
      ((do
        computation
        update fun machine => machine.rememberOwn id key template slot) env machine)
      (computation env machine) := by
  cases ran : computation env machine with
  | error stop after =>
      rw [bind_of_error _ ran]
      exact .refl _
  | ok answer after =>
      rw [bind_of_ok _ ran]
      unfold update
      rw [change_of_unwatched unwatched]
      exact ⟨rfl, after.sameProperties_rememberOwn id key template slot⟩

end

variable (serves : machine.Serves layout key template.id slot)
include serves

/-- A write through a slot agrees with one without it if it clobbers nothing. -/
theorem setNamed_agrees
    (unwatched : ∀ seen, env.watch seen = false)
    (harmless : ∀ id, target.objectId? = some id ->
      ¬ machine.Clobbers id key value template slot) :
    Agree (setNamed target key value template slot env machine)
      (setProperty target key value template.isStrict env machine) := by
  by_cases caching : machine.config.inlineCaches = true
  · cases cacheable : target.objectId?.filter machine.isPlain with
    | none =>
        unfold setNamed
        rw [ask_bind, if_pos caching, cacheable]
        exact .refl _
    | some id =>
        obtain ⟨named, ordinary⟩ := Option.filter_eq_some_iff.1 cacheable
        have plain := Machine.isPlain_iff.1 ordinary
        rcases machine.cachedStore_cases id value template.id slot with
          refused | ⟨offset, recalls, data, stored⟩
        · rw [setNamed_of_plain unwatched caching named plain, refused]
          exact Agree.rememberOwn unwatched _ id key template.id slot
        · obtain ⟨object, property, live, distinct, stands⟩ := recalls.stands serves
          have found := PropertyTable.lookup?_of_at? distinct stands
          have own := Machine.getOwn?_of_lookup? live found
          rw [setNamed_of_stored unwatched caching named plain stored]
          cases writable : property.isWritable with
          | true =>
              rw [setProperty_of_writable unwatched named plain own writable,
                Heap.setValueAt_eq_define live found writable]
              exact .refl _
          | false =>
              have kept : property.isData = true := by
                unfold Heap.hasDataAt Heap.propertyAt? at data
                rwa [live, Option.bind_some, stands] at data
              have clean := fun bad => harmless id named
                ⟨caching, plain, ⟨offset, recalls⟩, property, own, kept, writable, bad⟩
              obtain ⟨sloppy, same⟩ := not_or.1 clean
              rw [setProperty_of_readOnly named plain own kept writable, if_neg sloppy,
                Heap.setValueAt_of_same live stands (not_not.1 same)]
              exact .refl _
  · unfold setNamed
    rw [ask_bind, if_neg caching]
    exact .refl _

/-- A write through a slot that clobbers a property does not agree with one without it. -/
theorem setNamed_disagrees
    (unwatched : ∀ seen, env.watch seen = false)
    (named : target.objectId? = some id)
    (clobbers : machine.Clobbers id key value template slot) :
    ¬ Agree (setNamed target key value template slot env machine)
      (setProperty target key value template.isStrict env machine) := by
  obtain ⟨caching, plain, ⟨offset, recalls⟩, property, own, kept, readOnly, bad⟩ := clobbers
  obtain ⟨object, standing, live, distinct, stands⟩ := recalls.stands serves
  have found := PropertyTable.lookup?_of_at? distinct stands
  cases (Machine.getOwn?_of_lookup? live found).symm.trans own
  have data : machine.heap.hasDataAt id offset = true := by
    unfold Heap.hasDataAt Heap.propertyAt?
    rwa [live, Option.bind_some, stands]
  rw [setNamed_of_stored unwatched caching named plain
      (Machine.cachedStore_of_recalls recalls data value),
    setProperty_of_readOnly named plain own kept readOnly]
  cases strict : template.isStrict with
  | true => exact False.elim
  | false =>
      rintro ⟨_, same⟩
      have changed : (machine.heap.setValueAt id offset value).Plain id := by
        obtain ⟨kind, present, ordinary⟩ := plain
        exact ⟨kind, (Heap.payload?_setValueAt ..).trans present, ordinary⟩
      have equal := same id key
      rw [Machine.ordinaryOwnProperty?_of_plain changed,
        Machine.ordinaryOwnProperty?_of_plain plain, own,
        Heap.getOwn?_setValueAt live distinct stands] at equal
      rcases bad with impossible | differs
      · rw [strict] at impossible
        cases impossible
      · exact differs (Property.value?_of_withValue_eq kept (Option.some.inj equal))

end Exec

/-! ## Visible sights -/

/-- Cached writes are transparent just when they clobber nothing: in all that an embedder
can come across, and for a slot that is dedicated to one key, a write through the slot has
the outcome of a write without it and leaves the same properties, unless the slot remembers
a place for the shape of the receiver where the receiver holds a read-only property. -/
theorem cached_writes_transparent_iff
    {sight : Sight σ}
    (visible : sight.Visible)
    {template : Template}
    (carried : sight.machine.Carries template)
    {slot : Nat}
    {key : PropertyKey}
    (dedicated : template.Dedicates slot key)
    (target value : Value)
    {env : Env σ}
    (unwatched : ∀ seen, env.watch seen = false) :
    Exec.Agree (Exec.setNamed target key value template slot env sight.machine)
        (Exec.setProperty target key value template.isStrict env sight.machine) ↔
      ∀ id, target.objectId? = some id ->
        ¬ sight.machine.Clobbers id key value template slot := by
  obtain ⟨layout, serves⟩ := visible.serves carried dedicated
  exact ⟨fun agree id named clobbers =>
    Exec.setNamed_disagrees serves unwatched named clobbers agree,
    Exec.setNamed_agrees serves unwatched⟩

/-- A script that writes a property of an object twice through one slot. -/
def writeTwiceScript : Chunk where
  info := { name := "twice", kind := .script }
  code := #[
    ⟨.createObject 0, none⟩,
    ⟨.setNamed 0 0 0 0, none⟩,
    ⟨.setNamed 0 0 0 0, none⟩,
    ⟨.return 0, none⟩]
  constants := #[.string "x"]
  registerCount := 1
  cacheSlots := 1

/-- The run of the script up to the second write. -/
def writeTwiceRun : EStateM.Result (Stop Unit) (Machine Unit) Value :=
  Exec.runProgram (.request (.execute writeTwiceScript) fun _ => .finish (.ok .undefined))
    (Env.watched 10 fun sight =>
      sight.used == some (.cacheSlot 0) &&
        sight.machine.cache? ⟨0⟩ 0 != some .uninitialized)
    (Builtins.newMachine {} ())

/-- The slot takes the second write, which agrees with one without it. -/
theorem cached_writes_transparent_iff_writeTwice :
    ∃ sight ∈ Sight.ofRun? writeTwiceRun, ∃ frame ∈ sight.machine.top?,
      ∃ (target : Value) (id : ObjectId), target.objectId? = some id ∧
        (sight.machine.cachedStore id .null frame.template.id 0).1 = true ∧
          Exec.Agree
            (Exec.setNamed target "x" .null frame.template 0 (Env.ofFuel 10) sight.machine)
            (Exec.setProperty target "x" .null frame.template.isStrict (Env.ofFuel 10)
              sight.machine) := by
  have seen : ∃ sight ∈ Sight.ofRun? writeTwiceRun, ∃ frame ∈ sight.machine.top?,
      (∀ placed ∈ frame.template.chunk.code.toList,
        frame.template.chunk.Leaves 0 "x" placed.instruction) ∧
      ∃ id ∈ (sight.machine.cells.register frame.window 0).objectId?,
        (sight.machine.cachedStore id .null frame.template.id 0).1 = true ∧
        ∃ property ∈ sight.machine.heap.getOwn? id "x", property.isWritable = true := by
    decide +kernel
  obtain ⟨sight, interrupted, frame, standing, leaves, id, named, stored, property, own,
    writable⟩ := seen
  have unwatched : ∀ seen : Sight Unit, (Env.ofFuel 10).watch seen = false := fun _ => rfl
  have transparent := cached_writes_transparent_iff (Sight.visible_of_ofRun? interrupted)
    (Machine.holds_top standing).carries (Template.dedicates_of_leaves leaves)
    (sight.machine.cells.register frame.window 0) .null unwatched
  refine ⟨sight, interrupted, frame, standing, _, id, named, stored, transparent.2 ?_⟩
  rintro other same clobbers
  cases named.symm.trans same
  obtain ⟨_, present, _, readOnly, _⟩ := clobbers.readOnly
  cases own.symm.trans present
  rw [writable] at readOnly
  cases readOnly

/-- Code that writes a property of its first argument. -/
def writer : Chunk where
  info := { name := "write", kind := .normal, parameterCount := 2 }
  code := #[⟨.setNamed 0 0 1 0, none⟩, ⟨.return 1, none⟩]
  constants := #[.string "x"]
  registerCount := 2
  cacheSlots := 1

/-- A script that makes a function out of the code. -/
def writerScript : Chunk where
  info := { name := "main", kind := .script }
  code := #[⟨.createClosure 0 0, none⟩, ⟨.return 0, none⟩]
  registerCount := 1
  functions := [writer]

/-- Two objects get the same property, the second one read-only, and both are written by
the same code. -/
def writeBoth : HostProgram Unit :=
  .request (.execute writerScript) fun loaded =>
    .request .createObject fun first =>
      .request .createObject fun second =>
        .request (.set first "x" (.boolean true) true) fun _ =>
          .request (.define (second.objectId?.getD ⟨0⟩) "x"
              { value := some (.boolean true) }) fun _ =>
            let write := (Except.toOption loaded).getD .undefined
            .request (.call write .undefined [first, .boolean false]) fun _ =>
              .request (.call write .undefined [second, .boolean false]) fun _ =>
                .finish (.ok .undefined)

/-- The run of the program up to a write through a slot that remembers something. -/
def writeBothRun : EStateM.Result (Stop Unit) (Machine Unit) Value :=
  Exec.runProgram writeBoth
    (Env.watched 20 fun sight =>
      sight.used == some (.cacheSlot 0) &&
        sight.machine.cache? ⟨1⟩ 0 != some .uninitialized)
    (Builtins.newMachine {} ())

/-- The second write overwrites the read-only property, where one without the cache throws. -/
theorem cached_write_overwrites_readOnly :
    ∃ sight : Sight Unit, sight.Visible ∧ 2 <= sight.machine.config.maxPrototypeChain ∧
      ∃ template target, sight.machine.Carries template ∧ template.Dedicates 0 "x" ∧
        ¬ Exec.Agree
          (Exec.setNamed target "x" (.boolean false) template 0 (Env.ofFuel 20) sight.machine)
          (Exec.setProperty target "x" (.boolean false) template.isStrict (Env.ofFuel 20)
            sight.machine) := by
  have seen : ∃ sight ∈ Sight.ofRun? writeBothRun,
      2 <= sight.machine.config.maxPrototypeChain ∧ ∃ frame ∈ sight.machine.top?,
        (∀ placed ∈ frame.template.chunk.code.toList,
          frame.template.chunk.Leaves 0 "x" placed.instruction) ∧
        frame.template.isStrict = true ∧ sight.machine.config.inlineCaches = true ∧
        ∃ id ∈ (sight.machine.cells.register frame.window 0).objectId?,
          sight.machine.isPlain id = true ∧
          (sight.machine.cachedStore id (.boolean false) frame.template.id 0).1 = true ∧
          ∃ property ∈ sight.machine.heap.getOwn? id "x",
            property.isData = true ∧ property.isWritable = false := by
    decide +kernel
  obtain ⟨sight, interrupted, chain, frame, standing, leaves, strict, caching, id, named, plain,
    stored, property, own, data, readOnly⟩ := seen
  have visible := Sight.visible_of_ofRun? interrupted
  have carried := (Machine.holds_top standing).carries
  have dedicated := Template.dedicates_of_leaves leaves
  obtain ⟨layout, serves⟩ := visible.serves carried dedicated
  have recalls : ∃ offset, sight.machine.Recalls id frame.template.id 0 offset := by
    rcases sight.machine.cachedStore_cases id (.boolean false) frame.template.id 0 with
      refused | ⟨offset, recalls, _⟩
    · rw [refused] at stored
      cases stored
    · exact ⟨offset, recalls⟩
  exact ⟨sight, visible, chain, frame.template, _, carried, dedicated,
    Exec.setNamed_disagrees serves (fun _ => rfl) named
      ⟨caching, Machine.isPlain_iff.1 plain, recalls, property, own, data, readOnly,
        Or.inl strict⟩⟩

end ScriptVM

import ScriptVM.Proofs.CacheEntries
import ScriptVM.Proofs.Reachable

/-!
# Cached reads

When an inline cache answers a read, a search along the prototype chain finds the same
value and changes nothing. So reading through a cache cannot be told from reading without
one, as long as a slot is used for one name only.
-/

namespace ScriptVM

variable {σ : Type}

/-! ## Slots -/

namespace Instruction

/-- The cache slot through which an instruction accesses a property, and the constant that
names the property. -/
def access? : Instruction -> Option (Nat × Nat)
  | .getNamed _ _ name slot | .setNamed _ name _ slot => some (slot, name)
  | _ => none

end Instruction

/-- An instruction leaves a cache slot to a key. -/
def Chunk.Leaves
    (chunk : Chunk)
    (slot : Nat)
    (key : PropertyKey)
    (instruction : Instruction) : Prop :=
  ∀ access ∈ instruction.access?, access.1 = slot ->
    ∀ name ∈ chunk.string? access.2, key = .string name

instance Chunk.decidableLeaves
    (chunk : Chunk)
    (slot : Nat)
    (key : PropertyKey)
    (instruction : Instruction) :
    Decidable (chunk.Leaves slot key instruction) := by
  unfold Leaves
  infer_instance

namespace Template

variable {template : Template} {slot : Nat} {key : PropertyKey}

/-- All accesses of a template through a cache slot are to one key. -/
def Dedicates
    (template : Template)
    (slot : Nat)
    (key : PropertyKey) : Prop :=
  ∀ name, template.Accesses slot name -> key = .string name

theorem dedicates_of_leaves
    (leaves : ∀ placed ∈ template.chunk.code.toList,
      template.chunk.Leaves slot key placed.instruction) :
    template.Dedicates slot key := by
  have left : ∀ {instruction : Instruction} {index : Nat} {name : String},
      template.Contains instruction -> instruction.access? = some (slot, index) ->
        template.chunk.string? index = some name -> key = .string name := by
    intro instruction index name contains accesses named
    obtain ⟨placed, member, rfl⟩ := contains.placed
    exact leaves placed member _ accesses rfl name named
  rintro name ⟨index, named, ⟨destination, object, contains⟩ | ⟨object, value, contains⟩⟩
  · exact left contains rfl named
  · exact left contains rfl named

end Template

/-! ## Searching -/

namespace Machine

variable {offset : Nat} {hit : CacheHit}

variable {machine : Machine σ} {layout : Layout} {id : ObjectId} {key : PropertyKey}
  {object : HeapObject ObjectKind} {value : Value}

/-- A plain object has its own properties in its table. -/
theorem ordinaryOwnProperty?_of_plain (plain : machine.heap.Plain id) (key : PropertyKey) :
    machine.ordinaryOwnProperty? id key = machine.heap.getOwn? id key := by
  obtain ⟨kind, present, ordinary⟩ := plain
  unfold ordinaryOwnProperty? kind?
  rw [present]
  cases kind with
  | array => cases ordinary
  | _ => rfl

/-- A walk looks at the table of a plain object and goes on with its prototype. -/
theorem lookup_of_plain (plain : machine.heap.Plain id) (key : PropertyKey) (limit : Nat) :
    machine.lookup key (limit + 1) id =
      match machine.heap.getOwn? id key with
      | some property => .found property
      | none =>
          match machine.heap.prototypeOf id with
          | some parent => machine.lookup key limit parent
          | none => .absent := by
  have own := ordinaryOwnProperty?_of_plain plain key
  obtain ⟨kind, present, ordinary⟩ := plain
  rw [lookup]
  unfold kind?
  rw [present, own]
  cases kind with
  | proxy => cases ordinary
  | _ => rfl

theorem getOwn?_of_lookup?
    (live : machine.heap.get? id = some object)
    {property : Property}
    (found : object.properties.lookup? key = some (offset, property)) :
    machine.heap.getOwn? id key = some property := by
  unfold Heap.getOwn? PropertyTable.get?
  rw [live, Option.bind_some, found]
  rfl

/-- The data at an offset is that of the key which the shape has there. -/
theorem getOwn?_of_dataAt?
    (laid : machine.heap.Laid layout)
    (live : machine.heap.get? id = some object)
    (keyed : (layout object.shape)[offset]? = some key)
    (read : machine.dataAt? id offset = some value) :
    ∃ property, machine.heap.getOwn? id key = some property ∧ property.value? = some value := by
  obtain ⟨⟨other, property⟩, present, data⟩ := Option.bind_eq_some_iff.1 read
  unfold Heap.propertyAt? at present
  rw [live, Option.bind_some] at present
  have old := laid.objects id object live
  rw [← old.keys, PropertyTable.getElem?_keys, present] at keyed
  cases keyed
  exact ⟨property, getOwn?_of_lookup? live (PropertyTable.lookup?_of_at? old.distinct present),
    data⟩

/-- A walk along the prototype chain of an object ends at a data property. -/
def Finds
    (machine : Machine σ)
    (key : PropertyKey)
    (limit : Nat)
    (id : ObjectId)
    (value : Value) : Prop :=
  ∃ property, machine.lookup key limit id = .found property ∧ property.value? = some value

/-- What is read at a place that is right, a walk finds too. -/
theorem finds_of_places
    (laid : machine.heap.Laid layout)
    (live : machine.heap.get? id = some object)
    (plain : machine.heap.Plain id)
    (places : machine.heap.Places layout key object.shape hit)
    (read : machine.valueAt? id hit = some value)
    (limit : Nat) :
    machine.Finds key (limit + 2) id value := by
  obtain ⟨shape, stands, right⟩ := places
  have old := laid.objects id object live
  obtain ⟨known, present, linked⟩ := old.prototype
  cases stands.symm.trans present
  cases hit with
  | own offset =>
      obtain ⟨property, own, data⟩ := getOwn?_of_dataAt? laid live right read
      refine ⟨property, ?_, data⟩
      rw [lookup_of_plain plain, own]
  | inherited holder holderShape offset =>
      obtain ⟨absent, prototype, searched, _, keyed⟩ := right
      unfold valueAt? at read
      dsimp only at read
      split at read
      · next same =>
          obtain ⟨holderObject, liveHolder, rfl⟩ := Option.map_eq_some_iff.1 (eq_of_beq same)
          obtain ⟨property, own, data⟩ := getOwn?_of_dataAt? laid liveHolder keyed read
          refine ⟨property, ?_, data⟩
          have missing : machine.heap.getOwn? id key = none := by
            rw [← old.keys] at absent
            unfold Heap.getOwn? PropertyTable.get?
            rw [live, Option.bind_some, PropertyTable.lookup?_eq_none_iff.2 absent]
            rfl
          have parent : machine.heap.prototypeOf id = some holder := by
            unfold Heap.prototypeOf
            rw [live, Option.bind_some, ← linked, prototype]
          rw [lookup_of_plain plain, missing]
          dsimp only
          rw [parent]
          dsimp only
          rw [lookup_of_plain (searched (Heap.Laid.usable live)), own]
      · cases read

/-- The place that a search finds holds the value that it finds. -/
theorem valueAt?_of_locate?
    (located : machine.locate? id key = some (hit, value)) :
    machine.valueAt? id hit = some value := by
  have read : ∀ {other : ObjectId} {offset : Nat} {property : Property},
      machine.heap.lookup? other key = some (offset, property) ->
        machine.dataAt? other offset = property.value? := by
    intro other offset property found
    obtain ⟨object, live, inTable⟩ := Option.bind_eq_some_iff.1 found
    unfold dataAt? Heap.propertyAt?
    rw [live, Option.bind_some, PropertyTable.at?_of_lookup? inTable]
    rfl
  unfold locate? at located
  split at located
  · next offset property found =>
      obtain ⟨data, present, same⟩ := Option.map_eq_some_iff.1 located
      cases same
      exact (read found).trans present
  · obtain ⟨holder, _, rest⟩ := Option.bind_eq_some_iff.1 located
    split at rest
    · cases rest
    · obtain ⟨holderShape, shaped, rest⟩ := Option.bind_eq_some_iff.1 rest
      obtain ⟨⟨offset, property⟩, inHolder, rest⟩ := Option.bind_eq_some_iff.1 rest
      obtain ⟨data, present, same⟩ := Option.bind_eq_some_iff.1 rest
      cases same
      unfold valueAt?
      dsimp only
      rw [shaped, if_pos (beq_self_eq_true _)]
      exact (read inHolder).trans present

/-- The heap is laid out, and what a slot remembers is right for a key. -/
structure Serves
    (machine : Machine σ)
    (layout : Layout)
    (key : PropertyKey)
    (template : TemplateId)
    (slot : Nat) : Prop where
  laid : machine.heap.Laid layout
  right : ∀ cache, machine.cache? template slot = some cache -> ∀ entry ∈ cache.entries,
    machine.heap.Places layout key entry.1 entry.2

/-- An answer of a cache whose entries are right for a key is what a walk finds. -/
theorem finds_of_cachedLookup
    {template : TemplateId}
    {slot : Nat}
    (serves : machine.Serves layout key template slot)
    (answered : (machine.cachedLookup id key template slot).1 = some value)
    (limit : Nat) :
    machine.Finds key (limit + 2) id value := by
  unfold cachedLookup at answered
  split at answered
  · cases answered
  · next ordinary =>
      have plain : machine.heap.Plain id := isPlain_iff.1 (by simpa using ordinary)
      split at answered
      · next shape cache shaped cached =>
          obtain ⟨object, live, rfl⟩ := Option.map_eq_some_iff.1 shaped
          have read : (machine.readThrough id object.shape key cache).1 = some value := by
            dsimp only at answered
            split at answered <;> exact answered
          have refilled : ∀ start, (machine.refill id object.shape key start).1 = some value ->
              machine.Finds key (limit + 2) id value := by
            intro start found
            unfold refill at found
            split at found
            · cases found
            · split at found
              · next hit other located =>
                  cases found
                  exact finds_of_places serves.laid live plain
                    (places_locate? serves.laid live located) (valueAt?_of_locate? located) limit
              · cases found
          unfold readThrough at read
          split at read
          · exact refilled _ read
          · next hit remembered =>
              split at read
              · next other stored =>
                  cases read
                  have entry := InlineCache.mem_entries_of_lookup? remembered
                  exact finds_of_places serves.laid live plain
                    (serves.right cache cached _ entry) stored limit
              · exact refilled _ read
      · cases answered

end Machine

/-! ## Replacing caches -/

namespace Machine

variable (machine : Machine σ)

/-- A walk does not look at caches. -/
theorem lookup_withCaches
    (caches : Array (Array InlineCache))
    (key : PropertyKey)
    (limit : Nat)
    (id : ObjectId) :
    { machine with caches }.lookup key limit id = machine.lookup key limit id := by
  induction limit generalizing id with
  | zero => rfl
  | succ limit step =>
      unfold lookup
      simp only [step]
      rfl

/-- A slot can be filled with what it holds. -/
theorem exists_setCache_eq (template : TemplateId) (slot : Nat) :
    ∃ cache, machine.setCache template slot cache = machine := by
  refine ⟨(machine.cache? template slot).getD .uninitialized, ?_⟩
  have same : machine.caches.modify template.index (fun slots =>
      slots.setIfInBounds slot ((machine.cache? template slot).getD .uninitialized)) =
        machine.caches := by
    refine Array.ext_getElem? fun index => ?_
    rw [Array.getElem?_modify]
    split
    · next equal =>
        subst equal
        unfold cache?
        cases machine.caches[template.index]? with
        | none => rfl
        | some slots =>
            refine congrArg some (Array.ext_getElem? fun place => ?_)
            rw [Array.getElem?_setIfInBounds]
            split
            · next here =>
                subst here
                split
                · next within =>
                    rw [Array.getElem?_eq_getElem within, Option.bind_some,
                      Array.getElem?_eq_getElem within]
                    rfl
                · next beyond => exact (Array.getElem?_eq_none (Nat.le_of_not_lt beyond)).symm
            · rfl
    · rfl
  unfold setCache
  rw [same]

/-- Reading through a slot changes nothing but its cache. -/
theorem cachedLookup_setCache
    (id : ObjectId)
    (key : PropertyKey)
    (template : TemplateId)
    (slot : Nat) :
    ∃ cache, (machine.cachedLookup id key template slot).2 =
      machine.setCache template slot cache := by
  rcases machine.cachedLookup_cases id key template slot with
    same | ⟨_, _, refreshed, _, _, same, _⟩
  · rw [same]
    obtain ⟨cache, unchanged⟩ := machine.exists_setCache_eq template slot
    exact ⟨cache, unchanged.symm⟩
  · exact ⟨refreshed, same⟩

end Machine

/-! ## Uncached reads -/

namespace Exec

variable {machine : Machine σ} {value : Value} {target : Value}

theorem propertyValue_of_data
    {property : Property}
    (data : property.value? = some value)
    (receiver : Value)
    (env : Env σ)
    (machine : Machine σ) :
    propertyValue property receiver env machine = .ok value machine := by
  unfold propertyValue
  unfold Property.value? at data
  split at data
  · next stored writable slot =>
      cases data
      rw [slot]
      rfl
  · cases data

/-- A read of an object whose chain leads to a data property gives its value. -/
theorem getProperty_of_finds
    {id : ObjectId}
    (named : target.objectId? = some id)
    {key : PropertyKey}
    (finds : machine.Finds key machine.config.maxPrototypeChain id value)
    (env : Env σ) :
    getProperty target key env machine = .ok value machine := by
  obtain ⟨property, found, data⟩ := finds
  have walked : getWithReceiver id key target env machine = .ok value machine := by
    unfold getWithReceiver
    rw [ask_bind, found]
    exact propertyValue_of_data data target env machine
  cases target with
  | object other | function other =>
      cases named
      exact walked
  | _ => cases named

/-! ## Cached reads -/

/-- What a read of an object through a slot does. -/
theorem getNamed_of_unwatched
    {id : ObjectId}
    (named : target.objectId? = some id)
    {env : Env σ}
    (unwatched : ∀ seen, env.watch seen = false)
    (key : PropertyKey)
    (template : TemplateId)
    (slot : Nat)
    (machine : Machine σ) :
    getNamed target key template slot env machine =
      if machine.config.inlineCaches then
        match (machine.cachedLookup id key template slot).1 with
        | some value => .ok value (machine.cachedLookup id key template slot).2
        | none => getProperty target key env (machine.cachedLookup id key template slot).2
      else getProperty target key env machine := by
  unfold getNamed
  rw [named]
  dsimp only
  rw [bind_of_ok _ (change_of_unwatched unwatched _ machine)]
  split
  · cases (machine.cachedLookup id key template slot).1 <;> rfl
  · rfl

end Exec

/-! ## Visible sights -/

theorem Stage.blank_remembers (intrinsics : Intrinsics) (config : Config) (world : σ) :
    ∃ layout, (Stage.blank intrinsics config world).Remembers layout :=
  ⟨fun _ => [], Heap.laid_empty _, fun _ impossible => impossible.elim⟩

/-- The caches of a machine that is reached remember what is right, for some origins and
some layout. -/
theorem Machine.Reached.remembers {machine : Machine σ} (reached : machine.Reached) :
    ∃ origins, Stage.Coherent ⟨origins, machine⟩ ∧ Stage.Filed ⟨origins, machine⟩ ∧
      ∃ layout, Stage.Remembers layout ⟨origins, machine⟩ :=
  @Machine.Reached.invariant σ (fun stage => ∃ layout, stage.Remembers layout)
    Stage.blank_remembers
    (fun _ filed ⟨_, remembers⟩ transition => transition.remembers filed remembers) _ reached

theorem Sight.Visible.serves
    {sight : Sight σ}
    (visible : sight.Visible)
    {template : Template}
    (carried : sight.machine.Carries template)
    {slot : Nat}
    {key : PropertyKey}
    (dedicated : template.Dedicates slot key) :
    ∃ layout, sight.machine.Serves layout key template.id slot := by
  obtain ⟨origins, coherent, _, layout, remembers⟩ := visible.reached.2.remembers
  refine ⟨layout, remembers.laid, fun cache cached entry member => ?_⟩
  have known := coherent.knows_carried carried
  obtain ⟨name, accesses, places⟩ := remembers.caches template known slot cache cached entry member
  rwa [dedicated name accesses]

/-- Cached reads are transparent: in all that an embedder can come across, and for a slot
that is dedicated to one key, an answer of the cache is what a read without the cache gives
without changing anything. So a read through the slot does what a read without it does once
one cache was replaced. -/
theorem cached_reads_transparent
    {sight : Sight σ}
    (visible : sight.Visible)
    (chain : 2 <= sight.machine.config.maxPrototypeChain)
    {template : Template}
    (carried : sight.machine.Carries template)
    {slot : Nat}
    {key : PropertyKey}
    (dedicated : template.Dedicates slot key)
    (target : Value)
    (env : Env σ) :
    (∀ id value, target.objectId? = some id ->
      (sight.machine.cachedLookup id key template.id slot).1 = some value ->
        Exec.getProperty target key env sight.machine = .ok value sight.machine) ∧
      ((∀ seen, env.watch seen = false) -> ∃ cache,
        Exec.getNamed target key template.id slot env sight.machine =
          Exec.getProperty target key env (sight.machine.setCache template.id slot cache)) := by
  obtain ⟨layout, serves⟩ := visible.serves carried dedicated
  obtain ⟨limit, limited⟩ := Nat.exists_eq_add_of_le' chain
  have finds : ∀ {id : ObjectId} {value : Value},
      (sight.machine.cachedLookup id key template.id slot).1 = some value ->
        sight.machine.Finds key sight.machine.config.maxPrototypeChain id value := by
    intro id value answered
    rw [limited]
    exact Machine.finds_of_cachedLookup serves answered limit
  refine ⟨fun id value named answered => Exec.getProperty_of_finds named (finds answered) env,
    fun unwatched => ?_⟩
  obtain ⟨same, unchanged⟩ := sight.machine.exists_setCache_eq template.id slot
  cases named : target.objectId? with
  | none =>
      refine ⟨same, ?_⟩
      unfold Exec.getNamed
      rw [named, unchanged]
  | some id =>
      rw [Exec.getNamed_of_unwatched named unwatched]
      split
      · obtain ⟨cache, refreshed⟩ := sight.machine.cachedLookup_setCache id key template.id slot
        refine ⟨cache, ?_⟩
        rw [refreshed]
        split
        · next value answered =>
            refine (Exec.getProperty_of_finds named ?_ env).symm
            obtain ⟨property, found, data⟩ := finds answered
            exact ⟨property, (Machine.lookup_withCaches ..).trans found, data⟩
        · rfl
      · exact ⟨same, by rw [unchanged]⟩

/-- A script that sets a property of an object and reads it twice through one slot. -/
def readTwiceScript : Chunk where
  info := { name := "twice", kind := .script }
  code := #[
    ⟨.createObject 0, none⟩,
    ⟨.setNamed 0 0 0 0, none⟩,
    ⟨.getNamed 1 0 0 1, none⟩,
    ⟨.getNamed 1 0 0 1, none⟩,
    ⟨.return 1, none⟩]
  constants := #[.string "x"]
  registerCount := 2
  cacheSlots := 2

/-- The run of the script up to a read through a slot that remembers something. -/
def readTwiceRun : EStateM.Result (Stop Unit) (Machine Unit) Value :=
  Exec.runProgram (.request (.execute readTwiceScript) fun _ => .finish (.ok .undefined))
    (Env.watched 10 fun sight =>
      sight.used == some (.cacheSlot 1) &&
        sight.machine.cache? ⟨0⟩ 1 != some .uninitialized)
    (Builtins.newMachine {} ())

/-- The slot answers what the read without it gives. -/
theorem cached_reads_transparent_readTwice :
    ∃ sight ∈ Sight.ofRun? readTwiceRun, ∃ frame ∈ sight.machine.top?,
      ∃ (target : Value) (id : ObjectId) (value : Value), target.objectId? = some id ∧
        (sight.machine.cachedLookup id "x" frame.template.id 1).1 = some value ∧
          Exec.getProperty target "x" (Env.ofFuel 0) sight.machine = .ok value sight.machine := by
  have seen : ∃ sight ∈ Sight.ofRun? readTwiceRun,
      2 <= sight.machine.config.maxPrototypeChain ∧ ∃ frame ∈ sight.machine.top?,
        (∀ placed ∈ frame.template.chunk.code.toList,
          frame.template.chunk.Leaves 1 "x" placed.instruction) ∧
        ∃ id ∈ (sight.machine.cells.register frame.window 0).objectId?,
          (sight.machine.cachedLookup id "x" frame.template.id 1).1.isSome = true := by
    decide +kernel
  obtain ⟨sight, interrupted, chain, frame, standing, leaves, id, named, answers⟩ := seen
  obtain ⟨value, answered⟩ := Option.isSome_iff_exists.1 answers
  have transparent := cached_reads_transparent (Sight.visible_of_ofRun? interrupted) chain
    (Machine.holds_top standing).carries (Template.dedicates_of_leaves leaves)
    (sight.machine.cells.register frame.window 0) (Env.ofFuel 0)
  exact ⟨sight, interrupted, frame, standing, _, id, value, named, answered,
    transparent.1 id value named answered⟩

end ScriptVM

import ScriptVM.Proofs.Collection
import ScriptVM.Proofs.Templates

/-!
# What inline caches remember

An entry of an inline cache says where the objects of a shape have a key: at an offset
of their own, or at an offset of their prototype. What it says about the shapes holds
for good, whatever happens to the objects. The prototype may only be searched by its
table as long as objects of the shape can come up.
-/

namespace ScriptVM

variable {layout : Layout}

/-! ## Entries -/

namespace InlineCache

variable {cache : InlineCache} {shape : ShapeId} {hit : CacheHit}

/-- The shapes that a cache holds, with their places. -/
def entries : InlineCache -> List (ShapeId × CacheHit)
  | uninitialized | megamorphic => []
  | monomorphic shape hit => [(shape, hit)]
  | polymorphic entries => entries

theorem mem_entries_of_lookup?
    (found : cache.lookup? shape = some hit) :
    (shape, hit) ∈ cache.entries := by
  cases cache with
  | uninitialized | megamorphic => cases found
  | monomorphic cached cachedHit =>
      unfold lookup? at found
      dsimp only at found
      split at found
      · next same =>
          cases found
          cases eq_of_beq same
          exact .head _
      · cases found
  | polymorphic entries => exact ShapeTable.mem_of_lookup found

theorem mem_entries_update
    {entry : ShapeId × CacheHit}
    (member : entry ∈ (cache.update shape hit).entries) :
    entry ∈ cache.entries ∨ entry = (shape, hit) := by
  cases cache with
  | uninitialized => exact Or.inr (List.mem_singleton.1 member)
  | megamorphic => cases member
  | monomorphic cached cachedHit =>
      unfold update at member
      dsimp only at member
      split at member
      · exact Or.inr (List.mem_singleton.1 member)
      · cases member with
        | head => exact Or.inl (.head _)
        | tail _ last => exact Or.inr (List.mem_singleton.1 last)
  | polymorphic entries =>
      unfold update at member
      dsimp only at member
      split at member
      · obtain ⟨old, known, replaced⟩ := List.mem_map.1 member
        split at replaced
        · exact Or.inr replaced.symm
        · exact Or.inl (replaced ▸ known)
      · split at member
        · rcases List.mem_append.1 member with old | new
          · exact Or.inl old
          · exact Or.inr (List.mem_singleton.1 new)
        · cases member

theorem entries_evict_subset (cache : InlineCache) (shape : ShapeId) :
    (cache.evict shape).entries ⊆ cache.entries := by
  cases cache with
  | uninitialized | megamorphic => exact fun _ member => member
  | monomorphic cached hit =>
      unfold evict
      dsimp only
      split
      · exact fun _ impossible => by cases impossible
      · exact fun _ member => member
  | polymorphic entries => exact List.filter_sublist.subset

end InlineCache

/-! ## Plain objects -/

/-- The property table of an object tells all of its own properties. -/
def Heap.Plain
    (heap : Heap ObjectKind)
    (id : ObjectId) : Prop :=
  ∃ kind, heap.payload? id = some kind ∧ kind.isExotic = false

theorem Machine.isPlain_iff {σ : Type} {machine : Machine σ} {id : ObjectId} :
    machine.isPlain id = true ↔ machine.heap.Plain id := by
  unfold isPlain kind? Heap.Plain
  cases machine.heap.payload? id with
  | none => simp
  | some kind => simp

theorem ObjectKind.Evolves.isExotic
    {before after : ObjectKind}
    (evolves : before.Evolves after) :
    after.isExotic = before.isExotic := by
  cases evolves <;> rfl

/-- A plain object stays plain. -/
theorem HeapChange.plain
    {origins : Origins}
    {before after : Heap ObjectKind}
    (change : HeapChange origins before after)
    (laid : before.Laid layout)
    {id : ObjectId}
    (plain : before.Plain id) :
    after.Plain id := by
  obtain ⟨kind, present, ordinary⟩ := plain
  cases change with
  | allocate prototype made =>
      refine ⟨kind, ?_, ordinary⟩
      have apart : (before.allocate prototype made).1 ≠ id := by
        rintro rfl
        unfold Heap.payload? at present
        rw [laid.tidy.allocated_dead prototype made] at present
        cases present
      unfold Heap.payload? at present ⊢
      rwa [before.get?_allocate_of_ne prototype made apart]
  | define target key property =>
      exact ⟨kind, (before.payload?_define target id key property).trans present, ordinary⟩
  | setValueAt target offset value =>
      exact ⟨kind, (before.payload?_setValueAt target id offset value).trans present, ordinary⟩
  | remove target key =>
      exact ⟨kind, (before.payload?_remove target id key).trans present, ordinary⟩
  | setPrototype target prototype =>
      exact ⟨kind, (before.payload?_setPrototype target id prototype).trans present, ordinary⟩
  | preventExtensions target =>
      exact ⟨kind, (before.payload?_preventExtensions target id).trans present, ordinary⟩
  | modifyPayload target change evolves =>
      unfold Heap.Plain
      rw [before.payload?_modifyPayload]
      split
      · next same =>
          subst same
          rw [present]
          exact ⟨change kind, rfl, (evolves kind present).1.isExotic.trans ordinary⟩
      · exact ⟨kind, present, ordinary⟩

theorem Heap.plain_collect
    {heap : Heap ObjectKind}
    {trace : ObjectKind -> List ObjectId}
    {roots : List ObjectId}
    {id : ObjectId}
    (plain : heap.Plain id)
    (alive : (heap.collect trace roots).2.contains id = true) :
    (heap.collect trace roots).2.Plain id := by
  obtain ⟨object, survives⟩ := contains_iff.1 alive
  obtain ⟨kind, present, ordinary⟩ := plain
  unfold payload? at present
  rw [heap.get?_collect trace roots survives] at present
  refine ⟨kind, ?_, ordinary⟩
  unfold payload?
  rwa [survives]

/-! ## Places -/

namespace Heap

variable {key : PropertyKey}

/-- The objects of a shape have a key at a place. -/
def Places
    (layout : Layout)
    (heap : Heap ObjectKind)
    (key : PropertyKey)
    (id : ShapeId)
    (hit : CacheHit) : Prop :=
  ∃ shape, heap.shapes.get? id = some shape ∧
    match hit with
    | .own offset => (layout id)[offset]? = some key
    | .inherited holder holderShape offset =>
        key ∉ layout id ∧ shape.prototype = some holder ∧
          (heap.Usable id -> heap.Plain holder) ∧
            (∃ next, heap.shapes.get? holderShape = some next) ∧
              (layout holderShape)[offset]? = some key

/-- What is remembered stays right when the heap changes. -/
theorem Places.follows
    {layout later : Layout}
    {before after : Heap ObjectKind}
    (follows : before.Follows layout later after)
    (plain : ∀ id, before.Plain id -> after.contains id = true -> after.Plain id)
    {id : ShapeId}
    {hit : CacheHit}
    (places : before.Places layout key id hit) :
    after.Places later key id hit := by
  obtain ⟨shape, present, right⟩ := places
  obtain ⟨kept, stands, same⟩ := follows.prototypes id shape present
  refine ⟨kept, stands, ?_⟩
  cases hit with
  | own offset =>
      dsimp only at right ⊢
      rwa [follows.agrees id shape present]
  | inherited holder holderShape offset =>
      dsimp only at right ⊢
      obtain ⟨absent, linked, searched, ⟨next, known⟩, keyed⟩ := right
      obtain ⟨keptNext, standsNext, _⟩ := follows.prototypes holderShape next known
      refine ⟨?_, same.trans linked, fun usable => ?_, ⟨keptNext, standsNext⟩, ?_⟩
      · rwa [follows.agrees id shape present]
      · have ordinary := searched (follows.usable id shape present usable)
        have alive : before.contains holder = true := by
          obtain ⟨kind, slots, _⟩ := ordinary
          obtain ⟨object, live, _⟩ := Option.map_eq_some_iff.1 slots
          exact contains_iff.2 ⟨object, live⟩
        exact plain holder ordinary (follows.stays id shape holder present linked usable alive)
      · rwa [follows.agrees holderShape next known]

variable {layout : Layout} {heap : Heap ObjectKind}

/-- What is found in an object has its key in the layout of the shape. -/
theorem Laid.layout_of_lookup?
    (laid : heap.Laid layout)
    {id : ObjectId}
    {object : HeapObject ObjectKind}
    (live : heap.get? id = some object)
    {offset : Nat}
    {property : Property}
    (found : object.properties.lookup? key = some (offset, property)) :
    (layout object.shape)[offset]? = some key := by
  rw [← (laid.objects id object live).keys, PropertyTable.getElem?_keys,
    PropertyTable.at?_of_lookup? found]
  rfl

end Heap

namespace Machine

variable {σ : Type} {layout : Layout} {machine : Machine σ}

/-- The place that a search finds is right for the shape. -/
theorem places_locate?
    (laid : machine.heap.Laid layout)
    {id : ObjectId}
    {object : HeapObject ObjectKind}
    (live : machine.heap.get? id = some object)
    {key : PropertyKey}
    {hit : CacheHit}
    {value : Value}
    (located : machine.locate? id key = some (hit, value)) :
    machine.heap.Places layout key object.shape hit := by
  have old := laid.objects id object live
  obtain ⟨shape, present, linked⟩ := old.prototype
  refine ⟨shape, present, ?_⟩
  unfold locate? Heap.lookup? at located
  rw [live] at located
  dsimp only [Option.bind_some] at located
  cases found : object.properties.lookup? key with
  | some entry =>
      rw [found] at located
      obtain ⟨_, _, same⟩ := Option.map_eq_some_iff.1 located
      cases same
      exact laid.layout_of_lookup? live found
  | none =>
      rw [found] at located
      obtain ⟨holder, prototype, rest⟩ := Option.bind_eq_some_iff.1 located
      unfold Heap.prototypeOf at prototype
      rw [live] at prototype
      split at rest
      · cases rest
      · next plain =>
          obtain ⟨holderShape, shaped, rest⟩ := Option.bind_eq_some_iff.1 rest
          obtain ⟨⟨offset, property⟩, inHolder, rest⟩ := Option.bind_eq_some_iff.1 rest
          obtain ⟨read, _, same⟩ := Option.bind_eq_some_iff.1 rest
          cases same
          obtain ⟨holderObject, liveHolder, rfl⟩ := Option.map_eq_some_iff.1 shaped
          rw [liveHolder] at inHolder
          obtain ⟨next, known, _⟩ := (laid.objects holder holderObject liveHolder).prototype
          have ordinary : machine.isPlain holder = true := by simpa using plain
          refine ⟨?_, linked.trans prototype, fun _ => isPlain_iff.1 ordinary, ⟨next, known⟩, ?_⟩
          · rw [← old.keys]
            exact PropertyTable.lookup?_eq_none_iff.1 found
          · exact laid.layout_of_lookup? liveHolder inHolder

end Machine

/-! ## Caches of a machine -/

namespace Machine

variable {σ : Type} {layout : Layout} {machine : Machine σ} {slot : Nat}

/-- What replacing a cache leaves in the slots. -/
theorem cache?_setCache
    {template other : TemplateId}
    {slot place : Nat}
    {replaced cache : InlineCache}
    (found : (machine.setCache template slot replaced).cache? other place = some cache) :
    (other = template ∧ place = slot ∧ cache = replaced) ∨
      machine.cache? other place = some cache := by
  unfold cache? setCache at found
  dsimp only at found
  rw [Array.getElem?_modify] at found
  split at found
  · next same =>
      obtain ⟨slots, present, stands⟩ := Option.bind_eq_some_iff.1 found
      obtain ⟨before, old, rfl⟩ := Option.map_eq_some_iff.1 present
      rw [Array.getElem?_setIfInBounds] at stands
      split at stands
      · next equal =>
          split at stands
          · cases stands
            exact Or.inl ⟨by cases template; cases other; cases same; rfl, equal.symm, rfl⟩
          · cases stands
      · refine Or.inr ?_
        unfold cache?
        rw [old]
        exact stands
  · exact Or.inr found

/-- A cache of a machine after a chunk was loaded is an old one or empty. -/
theorem cache?_addTemplate
    (chunk : Chunk)
    {template : TemplateId}
    {cache : InlineCache}
    (found : (machine.addTemplate chunk).2.cache? template slot = some cache) :
    (template.index < machine.caches.size ∧ machine.cache? template slot = some cache) ∨
      cache = .uninitialized := by
  unfold cache? addTemplate at found
  dsimp only at found
  obtain ⟨slots, present, stands⟩ := Option.bind_eq_some_iff.1 found
  rw [Array.getElem?_append] at present
  split at present
  · next within =>
      refine Or.inl ⟨within, ?_⟩
      unfold cache?
      rw [present]
      exact stands
  · right
    rw [List.getElem?_toArray, List.getElem?_map] at present
    obtain ⟨count, _, rfl⟩ := Option.map_eq_some_iff.1 present
    rw [Array.getElem?_replicate] at stands
    split at stands
    · exact (Option.some.inj stands).symm
    · cases stands

/-- Reading through a slot changes at most its cache, and adds at most the place that a
search finds. -/
theorem cachedLookup_cases
    (machine : Machine σ)
    (id : ObjectId)
    (key : PropertyKey)
    (template : TemplateId)
    (slot : Nat) :
    (machine.cachedLookup id key template slot).2 = machine ∨
      ∃ object cache refreshed, machine.heap.get? id = some object ∧
        machine.cache? template slot = some cache ∧
          (machine.cachedLookup id key template slot).2 =
            machine.setCache template slot refreshed ∧
          ∀ entry ∈ refreshed.entries, entry ∈ cache.entries ∨
            ∃ value, machine.locate? id key = some (entry.2, value) ∧
              entry.1 = object.shape := by
  unfold cachedLookup
  split
  · exact Or.inl rfl
  · split
    · next shape cache shaped cached =>
        obtain ⟨object, live, rfl⟩ := Option.map_eq_some_iff.1 shaped
        dsimp only
        split
        · exact Or.inl rfl
        · refine Or.inr ⟨object, cache, _, live, cached, rfl, ?_⟩
          have refilled : ∀ start : InlineCache, start.entries ⊆ cache.entries ->
              ∀ entry ∈ (machine.refill id object.shape key start).2.entries,
                entry ∈ cache.entries ∨ ∃ value,
                  machine.locate? id key = some (entry.2, value) ∧ entry.1 = object.shape := by
            intro start fewer entry member
            unfold refill at member
            split at member
            · exact Or.inl (fewer member)
            · split at member
              · next hit value located =>
                  rcases InlineCache.mem_entries_update member with old | rfl
                  · exact Or.inl (fewer old)
                  · exact Or.inr ⟨value, located, rfl⟩
              · exact Or.inl (fewer member)
          unfold readThrough
          split
          · exact refilled cache fun _ member => member
          · split
            · exact fun entry member => Or.inl member
            · exact refilled _ (cache.entries_evict_subset object.shape)
    · exact Or.inl rfl

/-- The caches of a template remember places that are right for a name with which the
template accesses the slot. -/
def Remembers
    (layout : Layout)
    (machine : Machine σ)
    (template : Template) : Prop :=
  ∀ slot cache, machine.cache? template.id slot = some cache -> ∀ entry ∈ cache.entries,
    ∃ name, template.Accesses slot name ∧
      machine.heap.Places layout (.string name) entry.1 entry.2

/-- One cache is replaced by one that adds at most a place that is right. -/
theorem Remembers.setCache
    {template : Template}
    (remembers : machine.Remembers layout template)
    {name : String}
    (accesses : template.Accesses slot name)
    {cache refreshed : InlineCache}
    (cached : machine.cache? template.id slot = some cache)
    (right : ∀ entry ∈ refreshed.entries, entry ∈ cache.entries ∨
      machine.heap.Places layout (.string name) entry.1 entry.2) :
    (machine.setCache template.id slot refreshed).Remembers layout template := by
  intro place found stands entry member
  rcases cache?_setCache stands with ⟨_, rfl, rfl⟩ | old
  · rcases right entry member with known | new
    · exact remembers place cache cached entry known
    · exact ⟨name, accesses, new⟩
  · exact remembers place found old entry member

end Machine

/-! ## Stages -/

variable {σ : Type}

/-- The heap of a stage is laid out, and its caches remember what is right. -/
structure Stage.Remembers
    (layout : Layout)
    (stage : Stage σ) : Prop where
  laid : stage.machine.heap.Laid layout
  caches : ∀ template, stage.origins.template template ->
    stage.machine.Remembers layout template

namespace Stage.Remembers

variable {layout : Layout} {origins : Origins} {machine : Machine σ}

/-- Only the heap, the caches and the templates matter. -/
theorem same
    {before after : Stage σ}
    (remembers : before.Remembers layout)
    (templates : after.origins.template = before.origins.template)
    (heap : after.machine.heap = before.machine.heap)
    (caches : after.machine.caches = before.machine.caches) :
    after.Remembers layout where
  laid := by
    rw [heap]
    exact remembers.laid
  caches template known := by
    unfold Machine.Remembers Machine.cache?
    rw [heap, caches]
    exact remembers.caches template (by rwa [templates] at known)

/-- What is remembered stays right when the heap changes. -/
theorem follows
    {heap : Heap ObjectKind}
    {later : Layout}
    (remembers : Remembers layout ⟨origins, machine⟩)
    (follows : machine.heap.Follows layout later heap)
    (plain : ∀ id, machine.heap.Plain id -> heap.contains id = true -> heap.Plain id) :
    Remembers later ⟨origins, { machine with heap }⟩ where
  laid := follows.laid
  caches template known slot cache cached entry member := by
    obtain ⟨name, accesses, places⟩ :=
      remembers.caches template known slot cache cached entry member
    exact ⟨name, accesses, places.follows follows plain⟩

/-- One cache of a known template is replaced by one that adds at most a place that is
right. -/
theorem setCache
    (remembers : Remembers layout ⟨origins, machine⟩)
    (filed : Stage.Filed ⟨origins, machine⟩)
    {template : Template}
    (known : origins.template template)
    {slot : Nat}
    {name : String}
    (accesses : template.Accesses slot name)
    {cache refreshed : InlineCache}
    (cached : machine.cache? template.id slot = some cache)
    (right : ∀ entry ∈ refreshed.entries, entry ∈ cache.entries ∨
      machine.heap.Places layout (.string name) entry.1 entry.2) :
    Remembers layout ⟨origins, machine.setCache template.id slot refreshed⟩ where
  laid := remembers.laid
  caches other knownOther := by
    have own := (remembers.caches template known).setCache accesses cached right
    intro place found stands entry member
    rcases Machine.cache?_setCache stands with ⟨same, _, _⟩ | old
    · -- A cache that was replaced belongs to this template alone.
      cases filed.distinct other template knownOther known same
      exact own place found stands entry member
    · exact remembers.caches other knownOther place found old entry member

end Stage.Remembers

/-- A transition keeps caches right, under a layout that may tell of more shapes. -/
theorem Transition.remembers
    {before after : Stage σ}
    (filed : before.Filed)
    (remembers : before.Remembers layout)
    (transition : Transition before after) :
    ∃ later, after.Remembers later := by
  cases transition with
  | heap origins machine heap change =>
      obtain ⟨later, follows⟩ := change.follows remembers.laid
      exact ⟨later, remembers.follows follows fun id plain _ => change.plain remembers.laid plain⟩
  | consult origins machine id name template slot known accesses =>
      rcases machine.cachedLookup_cases id name template.id slot with
        same | ⟨object, cache, refreshed, live, cached, same, added⟩
      · rw [same]
        exact ⟨layout, remembers⟩
      · rw [same]
        refine ⟨layout, remembers.setCache filed known accesses cached fun entry member => ?_⟩
        rcases added entry member with old | ⟨value, located, shape⟩
        · exact Or.inl old
        · rw [shape]
          exact Or.inr (Machine.places_locate? remembers.laid live located)
  | remember origins machine id name template slot known accesses =>
      refine ⟨layout, ?_⟩
      unfold Machine.rememberOwn
      split
      · next offset property shape cache found shaped cached =>
          split
          · obtain ⟨object, live, rfl⟩ := Option.map_eq_some_iff.1 shaped
            refine remembers.setCache filed known accesses cached fun entry member => ?_
            rcases InlineCache.mem_entries_update member with old | rfl
            · exact Or.inl old
            · unfold Heap.lookup? at found
              rw [live] at found
              obtain ⟨present, stands, _⟩ := (remembers.laid.objects id object live).prototype
              exact Or.inr ⟨present, stands, remembers.laid.layout_of_lookup? live found⟩
          · exact remembers
      · exact remembers
  | load origins machine chunk =>
      refine ⟨layout, remembers.laid, ?_⟩
      intro template known slot cache cached entry member
      rcases machine.cache?_addTemplate chunk cached with ⟨within, old⟩ | rfl
      · rcases known with earlier | made
        · exact remembers.caches template earlier slot cache old entry member
        · have numbered := (Template.numbered_ofChunk.1 machine.caches.size chunk).2
          have beyond := (numbered.id_bounds made.mem_family).1
          exact absurd within (Nat.not_lt.2 beyond)
      · cases member
  | replace origins machine top frame =>
      refine ⟨layout, remembers.same rfl machine.heap_popFrame ?_⟩
      unfold Machine.popFrame
      split <;> rfl
  | pop origins machine =>
      refine ⟨layout, remembers.same rfl machine.heap_popFrame ?_⟩
      unfold Machine.popFrame
      split <;> rfl
  | capture origins machine top nested =>
      refine ⟨layout, remembers.same rfl (machine.heap_captureClosure nested) ?_⟩
      unfold Machine.captureClosure
      split <;> rfl
  | detach origins machine first =>
      refine ⟨layout, remembers.same rfl (machine.heap_detachFrom first) ?_⟩
      unfold Machine.detachFrom
      split <;> rfl
  | collect origins machine kept =>
      refine ⟨layout, ?_⟩
      unfold Machine.collectGarbage
      split
      · exact remembers
      · exact remembers.follows (remembers.laid.collect _ _) fun _ => Heap.plain_collect
  | _ => exact ⟨layout, remembers.same rfl rfl rfl⟩

end ScriptVM

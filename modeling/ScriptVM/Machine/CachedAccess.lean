import ScriptVM.Machine.Writing

/-!
# Cached access

Named reads and writes through inline caches. A remembered place holds a plain data
property of the receiver itself, or for reads also of its direct prototype; as long
as the shapes are the same the property table need not be searched.
-/

namespace ScriptVM
namespace Machine

variable {σ : Type}

/-- The data value at an offset of an object. -/
def dataAt? (machine : Machine σ) (id : ObjectId) (offset : Nat) : Option Value :=
  (machine.heap.propertyAt? id offset).bind fun entry => entry.2.value?

/-- The value at a remembered place, unless the place is out of date. -/
def valueAt? (machine : Machine σ) (id : ObjectId) : CacheHit -> Option Value
  | .own offset => machine.dataAt? id offset
  | .inherited holder holderShape offset =>
      if machine.heap.shapeOf? holder == some holderShape then
        machine.dataAt? holder offset
      else none

/-- The property table of an object tells all of its own properties. -/
def isPlain (machine : Machine σ) (id : ObjectId) : Bool :=
  ((machine.kind? id).map fun kind => !kind.isExotic).getD false

/-- The place of a data property of an object or of its direct prototype. -/
def locate? (machine : Machine σ) (id : ObjectId) (key : PropertyKey) :
    Option (CacheHit × Value) :=
  match machine.heap.lookup? id key with
  | some (offset, property) => property.value?.map fun value => (.own offset, value)
  | none => do
      let holder <- machine.heap.prototypeOf id
      if !machine.isPlain holder then none
      let shape <- machine.heap.shapeOf? holder
      let (offset, property) <- machine.heap.lookup? holder key
      return (.inherited holder shape offset, <- property.value?)

/-- Search for a property and remember its place, unless the cache gave up. -/
def refill (machine : Machine σ) (id : ObjectId) (shape : ShapeId) (key : PropertyKey)
    (cache : InlineCache) : Option Value × InlineCache :=
  if cache.isMegamorphic then (none, cache)
  else
    match machine.locate? id key with
    | some (hit, value) => (some value, cache.update shape hit)
    | none => (none, cache)

/-- Read a property through a cache. A place that is out of date is forgotten. -/
def readThrough (machine : Machine σ) (id : ObjectId) (shape : ShapeId)
    (key : PropertyKey) (cache : InlineCache) : Option Value × InlineCache :=
  match cache.lookup? shape with
  | none => machine.refill id shape key cache
  | some hit =>
      match machine.valueAt? id hit with
      | some value => (some value, cache)
      | none => machine.refill id shape key (cache.evict shape)

/-- The cache in a slot of a template. -/
def cache? (machine : Machine σ) (template : TemplateId) (slot : Nat) :
    Option InlineCache :=
  (machine.caches[template.index]?).bind fun slots => slots[slot]?

/-- Replace the cache in a slot of a template. -/
def setCache (machine : Machine σ) (template : TemplateId) (slot : Nat)
    (cache : InlineCache) : Machine σ :=
  { machine with
    caches := machine.caches.modify template.index fun slots =>
      slots.setIfInBounds slot cache }

/-- Read a property of an object through a slot of a template; none if the cache
cannot answer. -/
def cachedLookup (machine : Machine σ) (id : ObjectId) (key : PropertyKey)
    (template : TemplateId) (slot : Nat) : Option Value × Machine σ :=
  if !machine.isPlain id then (none, machine)
  else
    match machine.heap.shapeOf? id, machine.cache? template slot with
    | some shape, some cache =>
        let (answer, refreshed) := machine.readThrough id shape key cache
        if refreshed == cache then (answer, machine)
        else (answer, machine.setCache template slot refreshed)
    | _, _ => (none, machine)

/-- Write a value at the place that a cache remembers; false if there is none. -/
def cachedStore (machine : Machine σ) (id : ObjectId) (value : Value)
    (template : TemplateId) (slot : Nat) : Bool × Machine σ :=
  let hit := do
    (<- machine.cache? template slot).lookup? (<- machine.heap.shapeOf? id)
  match hit with
  | some (.own offset) =>
      if machine.heap.hasDataAt id offset then
        (true, machine.modifyHeap fun heap => heap.setValueAt id offset value)
      else (false, machine)
  | _ => (false, machine)

/-- Remember the place of an own writable data property. -/
def rememberOwn (machine : Machine σ) (id : ObjectId) (key : PropertyKey)
    (template : TemplateId) (slot : Nat) : Machine σ :=
  match machine.heap.lookup? id key, machine.heap.shapeOf? id,
      machine.cache? template slot with
  | some (offset, property), some shape, some cache =>
      if property.isWritable then
        machine.setCache template slot (cache.update shape (.own offset))
      else machine
  | _, _, _ => machine

end Machine

namespace Exec

variable {σ : Type}

/-- Read a named property through a slot of a template. -/
def getNamed (target : Value) (key : PropertyKey) (template : TemplateId) (slot : Nat) :
    Exec σ Value := do
  match target.objectId? with
  | none => getProperty target key
  | some id =>
      let answer <- change fun machine =>
        if machine.config.inlineCaches then machine.cachedLookup id key template slot
        else (none, machine)
      match answer with
      | some value => return value
      | none => getProperty target key

/-- Assign a named property through a slot of a template. -/
def setNamed (target : Value) (key : PropertyKey) (value : Value) (template : Template)
    (slot : Nat) : Exec σ Unit := do
  let cacheable <- ask fun machine =>
    if machine.config.inlineCaches then target.objectId?.filter machine.isPlain else none
  match cacheable with
  | none => setProperty target key value template.isStrict
  | some id =>
      let done <- change fun machine => machine.cachedStore id value template.id slot
      if !done then
        setProperty target key value template.isStrict
        update fun machine => machine.rememberOwn id key template.id slot

end Exec
end ScriptVM

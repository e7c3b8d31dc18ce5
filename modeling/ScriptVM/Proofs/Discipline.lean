import ScriptVM.Machine.Promises
import ScriptVM.Proofs.Transition

/-!
# Disciplines

Many properties of runs are properties of every operation of the machine: what holds of
the parts of a computation holds of the computation. A discipline is such a property,
together with the changes of a machine that it lets pass. For a lawful discipline it is
enough to look at the changes of the heap and the shared cells that operations make, and
every one of them is listed here with the check that comes before it.

That an operation obeys a discipline is inferred from its parts.
-/

namespace ScriptVM

variable {σ α β : Type} {machine : Machine σ} {unguarded : ObjectId -> Prop}
variable (heap : Heap ObjectKind)
variable (receiver target callee : Value) (arguments : List Value) (id : ObjectId)
  (key : PropertyKey)

/-! ## Guarded changes of the heap -/

/-- The promise that a native function settles when it is called. -/
def NativeBehavior.settles? : NativeBehavior -> Option ObjectId
  | .resolving promise _ _ => some promise
  | .combinatorElement _ _ capability _ => some capability
  | .builtin _ | .host _ | .finallyStep _ _ | .settled _ _ => none

/-- How operations change internal slots, apart from those of promises: their kind stays, so
does the code of a function, and so does an array that is frozen. -/
inductive ObjectKind.Advances : ObjectKind -> ObjectKind -> Prop
  | same (kind : ObjectKind) : Advances kind kind
  | array (before after : ArrayStore) :
      (before.frozen = true -> after = before) -> before.Grows after ->
      Advances (.array before) (.array after)
  | closure (closure : Closure) (homeObject fieldInitializer : Option ObjectId) :
      Advances (.function closure) (.function { closure with homeObject, fieldInitializer })
  | arrayIterator (array : Value) (before after : Nat) (ended done : Bool) :
      Advances (.arrayIterator array before ended) (.arrayIterator array after done)

/-- Internal slots that hold neither code nor a coroutine. -/
class ObjectKind.Codeless (kind : ObjectKind) : Prop where
  covered : ∀ origins : Origins, origins.Covers kind
  still : ∀ coroutine, kind ≠ .coroutine coroutine

namespace ObjectKind

instance : Codeless .ordinary :=
  ⟨fun _ => trivial, fun _ => ObjectKind.noConfusion⟩

instance (store : ArrayStore) : Codeless (.array store) :=
  ⟨fun _ => trivial, fun _ => ObjectKind.noConfusion⟩

instance (function : NativeFunction) : Codeless (.native function) :=
  ⟨fun _ => trivial, fun _ => ObjectKind.noConfusion⟩

instance : Codeless (.bound target receiver arguments) :=
  ⟨fun _ => trivial, fun _ => ObjectKind.noConfusion⟩

instance : Codeless .arguments :=
  ⟨fun _ => trivial, fun _ => ObjectKind.noConfusion⟩

instance : Codeless .error :=
  ⟨fun _ => trivial, fun _ => ObjectKind.noConfusion⟩

instance (record : PromiseRecord Value Reaction) : Codeless (.promise record) :=
  ⟨fun _ => trivial, fun _ => ObjectKind.noConfusion⟩

instance (handler : Value) : Codeless (.proxy target handler) :=
  ⟨fun _ => trivial, fun _ => ObjectKind.noConfusion⟩

instance (array : Value) (index : Nat) (done : Bool) : Codeless (.arrayIterator array index done) :=
  ⟨fun _ => trivial, fun _ => ObjectKind.noConfusion⟩

/-- Internal slots that hold neither code nor a coroutine nor a promise, and that settle no
promise when they are called. A proxy is one of an object, and has an object for its
handler. -/
class Inert (kind : ObjectKind) : Prop extends kind.Codeless where
  unlike : ∀ record, kind ≠ .promise record
  harmless : ∀ function, kind = .native function -> function.behavior.settles? = none
  wraps : ∀ target handler, kind = .proxy target handler ->
    target.isObject = true ∧ handler.isObject = true

instance : Inert .ordinary :=
  ⟨fun _ => ObjectKind.noConfusion, fun _ => ObjectKind.noConfusion,
    fun _ _ => ObjectKind.noConfusion⟩

instance (store : ArrayStore) : Inert (.array store) :=
  ⟨fun _ => ObjectKind.noConfusion, fun _ => ObjectKind.noConfusion,
    fun _ _ => ObjectKind.noConfusion⟩

instance : Inert .arguments :=
  ⟨fun _ => ObjectKind.noConfusion, fun _ => ObjectKind.noConfusion,
    fun _ _ => ObjectKind.noConfusion⟩

instance : Inert .error :=
  ⟨fun _ => ObjectKind.noConfusion, fun _ => ObjectKind.noConfusion,
    fun _ _ => ObjectKind.noConfusion⟩

instance : Inert (.bound target receiver arguments) :=
  ⟨fun _ => ObjectKind.noConfusion, fun _ => ObjectKind.noConfusion,
    fun _ _ => ObjectKind.noConfusion⟩

theorem inert_proxy
    {target handler : Value}
    (wraps : target.isObject = true ∧ handler.isObject = true) :
    Inert (.proxy target handler) where
  unlike _ := ObjectKind.noConfusion
  harmless _ := ObjectKind.noConfusion
  wraps := by
    rintro _ _ ⟨⟩
    exact wraps

instance (array : Value) (index : Nat) (done : Bool) : Inert (.arrayIterator array index done) :=
  ⟨fun _ => ObjectKind.noConfusion, fun _ => ObjectKind.noConfusion,
    fun _ _ => ObjectKind.noConfusion⟩

theorem inert_native
    {function : NativeFunction}
    (harmless : function.behavior.settles? = none) :
    Inert (.native function) where
  unlike _ := ObjectKind.noConfusion
  harmless := by
    rintro _ ⟨⟩
    exact harmless
  wraps _ _ := ObjectKind.noConfusion

end ObjectKind

/-- An object with the record of a promise is a promise. -/
theorem Machine.kind?_of_promise?
    {id : ObjectId}
    {record : PromiseRecord Value Reaction}
    (present : machine.promise? id = some record) :
    machine.kind? id = some (.promise record) := by
  unfold promise? at present
  split at present
  · next found =>
      cases present
      exact found
  · cases present

/-- The handle that the next allocation hands out. -/
def Heap.nextId
    {K : Type}
    (heap : Heap K) : ObjectId :=
  match heap.free with
  | index :: _ => ⟨index⟩
  | [] => ⟨heap.objects.size⟩

theorem Heap.allocate_fst
    {K : Type}
    (heap : Heap K)
    (prototype : Option ObjectId)
    (payload : K) :
    (heap.allocate prototype payload).1 = heap.nextId := by
  unfold allocate nextId
  cases heap.free <;> rfl

/-- The table of an object may have this key. An array has its elements and its length apart
from the table. -/
def Heap.Tells (heap : Heap ObjectKind) (id : ObjectId) (key : PropertyKey) : Prop :=
  ∀ store, heap.payload? id = some (.array store) ->
    key.arrayIndex? = none ∧ (key == Machine.lengthKey) = false

/-- A key that names neither an element nor the length of an array. -/
class PropertyKey.Plain (key : PropertyKey) : Prop where
  plain : key.arrayIndex? = none ∧ (key == Machine.lengthKey) = false

namespace PropertyKey

instance : Plain (.string "constructor") := ⟨rfl, rfl⟩

instance : Plain (.string "prototype") := ⟨rfl, rfl⟩

instance : Plain (.string "message") := ⟨rfl, rfl⟩

instance : Plain (.string "stack") := ⟨rfl, rfl⟩

instance : Plain (.string "name") := ⟨rfl, rfl⟩

instance : Plain (.string "cause") := ⟨rfl, rfl⟩

instance : Plain (.string "errors") := ⟨rfl, rfl⟩

instance : Plain (.string "value") := ⟨rfl, rfl⟩

instance : Plain (.string "done") := ⟨rfl, rfl⟩

instance : Plain (.string "status") := ⟨rfl, rfl⟩

instance : Plain (.string "reason") := ⟨rfl, rfl⟩

instance : Plain (.string "writable") := ⟨rfl, rfl⟩

instance : Plain (.string "get") := ⟨rfl, rfl⟩

instance : Plain (.string "set") := ⟨rfl, rfl⟩

instance : Plain (.string "enumerable") := ⟨rfl, rfl⟩

instance : Plain (.string "configurable") := ⟨rfl, rfl⟩

end PropertyKey

theorem Heap.tells_of_plain
    (id : ObjectId)
    (key : PropertyKey)
    [named : key.Plain] :
    heap.Tells id key :=
  fun _ _ => named.plain

/-- Objects that are no arrays have all their own properties in the table. -/
theorem Heap.tells_allocate
    (prototype : Option ObjectId)
    {kind : ObjectKind}
    (bare : ∀ store, kind ≠ .array store)
    (key : PropertyKey) :
    (heap.allocate prototype kind).2.Tells (heap.allocate prototype kind).1 key := by
  intro store present
  unfold payload? at present
  rcases get?_allocate_self heap prototype kind with made | missing
  · rw [made] at present
    cases present
    exact absurd rfl (bare store)
  · rw [missing] at present
    cases present

theorem Heap.Tells.define
    {heap : Heap ObjectKind}
    {id : ObjectId}
    {key : PropertyKey}
    (tells : heap.Tells id key)
    (changed : ObjectId)
    (other : PropertyKey)
    (property : Property) :
    (heap.define changed other property).Tells id key := by
  intro store present
  rw [Heap.payload?_define] at present
  exact tells store present

/-- One change of the heap with the check that precedes it. The objects that are not
guarded need none, apart from the keys that the table of an array cannot have. -/
inductive GuardedChange (unguarded : ObjectId -> Prop) :
    Heap ObjectKind -> Heap ObjectKind -> Prop
  | define (heap : Heap ObjectKind) (id : ObjectId) (key : PropertyKey)
      (property : Property) :
      unguarded id -> heap.Tells id key ->
      GuardedChange unguarded heap (heap.define id key property)
  /-- Add a property to an object that may get new ones. -/
  | append (heap : Heap ObjectKind) (id : ObjectId) (key : PropertyKey)
      (property : Property) :
      heap.getOwn? id key = none -> heap.isExtensible id = true -> heap.Tells id key ->
      GuardedChange unguarded heap (heap.define id key property)
  /-- Change a property as a compatible descriptor asks. -/
  | redefine (heap : Heap ObjectKind) (id : ObjectId) (key : PropertyKey)
      (current : Property) (descriptor : Descriptor) :
      heap.getOwn? id key = some current -> descriptor.isCompatible current = true ->
      GuardedChange unguarded heap (heap.define id key (descriptor.merge (some current)))
  /-- Assign to a writable property; what the table of a proxy says does not count. -/
  | overwrite (heap : Heap ObjectKind) (id : ObjectId) (key : PropertyKey)
      (current property : Property) :
      heap.getOwn? id key = some current ->
      current.isWritable = true ∨
        (∃ target handler, heap.payload? id = some (.proxy target handler)) ->
      GuardedChange unguarded heap (heap.define id key property)
  | freeze (heap : Heap ObjectKind) (id : ObjectId) (key : PropertyKey)
      (current : Property) :
      heap.getOwn? id key = some current ->
      GuardedChange unguarded heap (heap.define id key (Machine.frozenProperty current))
  /-- Remove a configurable property. For the elements and the length of an array it
  does not count what the table says. -/
  | remove (heap : Heap ObjectKind) (id : ObjectId) (key : PropertyKey)
      (current : Property) :
      heap.getOwn? id key = some current -> current.configurable = true ->
      heap.Tells id key -> GuardedChange unguarded heap (heap.remove id key)
  | setPrototype (heap : Heap ObjectKind) (id : ObjectId) (prototype : Option ObjectId) :
      GuardedChange unguarded heap (heap.setPrototype id prototype)
  | preventExtensions (heap : Heap ObjectKind) (id : ObjectId) :
      GuardedChange unguarded heap (heap.preventExtensions id)
  | modifyPayload (heap : Heap ObjectKind) (id : ObjectId)
      (change : ObjectKind -> ObjectKind) :
      (∀ kind, heap.payload? id = some kind -> kind.Advances (change kind)) ->
      GuardedChange unguarded heap (heap.modifyPayload id change)

/-- What advances evolves, and holds no other code. -/
theorem ObjectKind.Advances.evolves
    {before after : ObjectKind}
    (advances : before.Advances after)
    (origins : Origins) :
    before.Evolves after ∧ (origins.Covers before -> origins.Covers after) := by
  cases advances with
  | same => exact ⟨.same _, id⟩
  | array _ _ _ grows => exact ⟨.array _ _ grows, id⟩
  | closure closure =>
      exact ⟨.closure closure _ _, fun vouched =>
        ⟨vouched.template, vouched.equipped, vouched.lexical⟩⟩
  | arrayIterator => exact ⟨.arrayIterator _ _ _ _ _, id⟩

theorem GuardedChange.heapChange
    {before after : Heap ObjectKind}
    (change : GuardedChange unguarded before after)
    (origins : Origins) :
    HeapChange origins before after := by
  cases change with
  | define | append | redefine | overwrite | freeze => exact .define _ _ _ _
  | remove => exact .remove _ _ _
  | setPrototype => exact .setPrototype _ _ _
  | preventExtensions => exact .preventExtensions _ _
  | modifyPayload id change advances =>
      exact .modifyPayload _ _ _ fun kind present => (advances kind present).evolves origins

/-- What advances is no coroutine, or stays as it is. -/
theorem ObjectKind.Advances.still
    {before after : ObjectKind}
    (advances : before.Advances after)
    (coroutine : Coroutine) :
    after = .coroutine coroutine ↔ before = .coroutine coroutine := by
  cases advances with
  | same => exact Iff.rfl
  | _ => simp

/-- A guarded change leaves the coroutines alone. -/
theorem GuardedChange.calm
    {before after : Heap ObjectKind}
    (change : GuardedChange unguarded before after) :
    before.Calm after := by
  cases change with
  | define | append | redefine | overwrite | freeze =>
      exact .of_payload fun id => Heap.payload?_define ..
  | remove => exact .of_payload fun id => Heap.payload?_remove ..
  | setPrototype => exact .of_payload fun id => Heap.payload?_setPrototype ..
  | preventExtensions => exact .of_payload fun id => Heap.payload?_preventExtensions ..
  | modifyPayload id change advances =>
      exact .modifyPayload before id fun kind present => (advances kind present).still

/-! ## Changes of shared cells -/

/-- What the functions of promises share stays. -/
structure Cells.KeepsShared (before after : Cells) : Prop where
  latches : after.latches = before.latches
  aggregates : after.aggregates = before.aggregates

namespace Cells.KeepsShared

variable {first second third : Cells}

theorem refl (cells : Cells) : cells.KeepsShared cells := ⟨rfl, rfl⟩

theorem of_recaptures (recaptures : first.Recaptures second) : first.KeepsShared second :=
  ⟨recaptures.latches, recaptures.aggregates⟩

theorem trans (earlier : first.KeepsShared second) (later : second.KeepsShared third) :
    first.KeepsShared third :=
  ⟨later.latches.trans earlier.latches, later.aggregates.trans earlier.aggregates⟩

theorem setUpvalue (cells : Cells) (id : UpvalueId) (value : Value) :
    cells.KeepsShared (cells.setUpvalue id value) := by
  unfold Cells.setUpvalue
  split
  · exact ⟨rfl, rfl⟩
  · exact ⟨rfl, rfl⟩
  · exact refl cells

theorem bindThis (cells : Cells) (scope : Scope) (this : Value) :
    cells.KeepsShared (cells.bindThis scope this).2 := by
  unfold Cells.bindThis
  split
  · exact refl cells
  · split
    · exact refl cells
    · exact ⟨rfl, rfl⟩

theorem fillRegisters
    (cells : Cells)
    (window : WindowId)
    (values : List Value)
    (register : Register) :
    cells.KeepsShared (Machine.fillRegisters cells window register values) := by
  induction values generalizing cells register with
  | nil => exact refl cells
  | cons value rest step => exact ⟨(step _ _).latches, (step _ _).aggregates⟩

end Cells.KeepsShared

/-! ## Disciplines -/

/-- A property of runs that is checked change by change. -/
structure Discipline (σ : Type) where
  /-- What is known of every machine on the way. -/
  knows : Machine σ -> Prop
  /-- Objects that get properties without a check. -/
  unguarded : ObjectId -> Prop
  /-- Changes of the machine that are allowed. -/
  passes : Machine σ -> Machine σ -> Prop
  /-- The result of a computation is fine, given the machine where it began. -/
  keeps {α : Type} : Machine σ -> EStateM.Result (Stop σ) (Machine σ) α -> Prop
  /-- Watches that see to it that runs end in time. -/
  watches (watch : Sight σ -> Bool) : Prop := True
  /-- Globals that an embedder leaves alone. -/
  reserved (name : String) : Prop := False
  /-- Promises that operations of the machine settle. -/
  settles (promise : ObjectId) : Prop := True
  /-- Reactions that operations of the machine register. -/
  registers (reaction : Reaction) : Prop := True
  /-- What an embedder does not ask for. -/
  refuses (request : Request) : Prop := False

namespace Discipline

/-- The environment watches the run, and the invocations that it performs are fine. -/
structure Sound
    (discipline : Discipline σ)
    (env : Env σ) : Prop where
  watches : discipline.watches env.watch
  performs : ∀ invocation machine, discipline.keeps machine (env.perform invocation machine)

/-- In every sound environment the computation has fine results. -/
def obeys
    (discipline : Discipline σ)
    (computation : Exec σ α) : Prop :=
  ∀ env, discipline.Sound env -> ∀ machine, discipline.keeps machine (computation env machine)

/-- A discipline that is content with changes that pass, however a computation ends, and with
what goes on from a fine result. -/
class Closed (discipline : Discipline σ) : Prop where
  refl (machine : Machine σ) : discipline.passes machine machine
  trans {first second third : Machine σ} :
    discipline.passes first second -> discipline.passes second third ->
    discipline.passes first third
  /-- A result only matters where what is known holds. -/
  relevant {α : Type} {machine : Machine σ}
    {result : EStateM.Result (Stop σ) (Machine σ) α} :
    (discipline.knows machine -> discipline.keeps machine result) ->
    discipline.keeps machine result
  settles {α : Type} {before after : Machine σ} (answer : α) :
    discipline.passes before after -> discipline.keeps before (.ok answer after)
  throws {α : Type} {before after : Machine σ} (exception : Exception) :
    discipline.passes before after ->
    discipline.keeps before (.error (.thrown exception) after : EStateM.Result _ _ α)
  shows {α : Type} {before after : Machine σ} :
    discipline.passes before after ->
    discipline.keeps before
      (.error (.interrupted { machine := after }) after : EStateM.Result _ _ α)
  stops {α : Type} (before after : Machine σ) :
    discipline.keeps before (.error .outOfFuel after : EStateM.Result _ _ α)
  /-- What goes on from where a computation settled. -/
  resume {α β : Type} {before middle : Machine σ} {answer : α}
    {result : EStateM.Result (Stop σ) (Machine σ) β} :
    discipline.keeps before (.ok answer middle) -> discipline.keeps middle result ->
    discipline.keeps before result
  /-- An interruption only tells what was seen. -/
  interrupts {α β : Type} {before after : Machine σ} (later : Machine σ) {sight : Sight σ} :
    discipline.keeps before (.error (.interrupted sight) after : EStateM.Result _ _ α) ->
    discipline.keeps before (.error (.interrupted sight) later : EStateM.Result _ _ β)
  catches {α β : Type} {before after : Machine σ} {exception : Exception} (answer : β) :
    discipline.keeps before (.error (.thrown exception) after : EStateM.Result _ _ α) ->
    discipline.keeps before (.ok answer after)

/-- A closed discipline that lets every guarded change pass, native calls, and changes of the
promises that it settles. -/
class Lawful (discipline : Discipline σ) : Prop extends discipline.Closed where
  next (machine : Machine σ) :
    discipline.knows machine -> discipline.unguarded machine.heap.nextId
  fresh (machine : Machine σ) :
    discipline.knows machine -> discipline.settles machine.heap.nextId
  /-- A change only matters where what is known holds. -/
  known {before after : Machine σ} :
    (discipline.knows before -> discipline.passes before after) ->
    discipline.passes before after
  heap (machine : Machine σ) {heap : Heap ObjectKind} :
    GuardedChange discipline.unguarded machine.heap heap ->
    discipline.passes machine { machine with heap }
  allocate (machine : Machine σ) (prototype : Option ObjectId) (kind : ObjectKind)
    [kind.Inert] : discipline.passes machine (machine.allocate prototype kind).2
  cells (machine : Machine σ) {cells : Cells} :
    CellsChange machine.cells cells -> machine.cells.KeepsShared cells ->
    discipline.passes machine { machine with cells }
  symbols (machine : Machine σ) (symbols : Array (Option String)) :
    discipline.passes machine { machine with symbols }
  /-- The rejections that were reported are handed out. -/
  takeUnhandled (machine : Machine σ) :
    discipline.passes machine machine.takeUnhandled.2
  withNativeDepth {α : Type} {computation : Exec σ α} :
    discipline.obeys computation -> discipline.obeys (Exec.withNativeDepth computation)
  allocatePromise (machine : Machine σ) (prototype : ObjectId) :
    discipline.passes machine (machine.allocatePromise prototype).2
  settlePromise (machine : Machine σ) {promise : ObjectId} (settlement : Settlement)
    (value : Value) : discipline.settles promise ->
    discipline.passes machine (machine.settlePromise promise settlement value).2
  registerReaction (machine : Machine σ) (promise : ObjectId) {reaction : Reaction} :
    discipline.registers reaction ->
    discipline.passes machine (machine.registerReaction promise reaction).2
  /-- Reactions that resume no async function may be registered. -/
  registers {reaction : Reaction} :
    (∀ promise, reaction.capability = some promise -> discipline.settles promise) ->
    (∀ settlement coroutine, reaction.handler settlement ≠ .asyncResume coroutine) ->
    discipline.registers reaction
  adopt (machine : Machine σ) {promise : ObjectId} (thenable thenMethod : Value) :
    discipline.settles promise ->
    discipline.passes machine
      (machine.submitJob (.resolveThenable promise thenable thenMethod))
  createResolvingFunctions (machine : Machine σ) {promise : ObjectId} :
    discipline.settles promise ->
    discipline.passes machine (machine.createResolvingFunctions promise).2
  createElement (machine : Machine σ) (index : Nat) (aggregate : AggregateId)
    {capability : ObjectId} (settlement : Settlement) :
    discipline.settles capability ->
    discipline.passes machine (machine.createNative
      { name := "",
        behavior := .combinatorElement index aggregate capability settlement } 1).2
  addAggregate (machine : Machine σ) (kind : CombinatorKind) :
    discipline.passes machine
      { machine with cells := (machine.cells.addAggregate kind).2 }
  updateAggregate {α : Type} (machine : Machine σ) (id : AggregateId) (fallback : α)
    (operation : Aggregate Value -> α × Aggregate Value) :
    discipline.passes machine
      { machine with cells := (machine.cells.updateAggregate id fallback operation).2 }

/-- Nothing guards the properties of an object. -/
class Frees
    (discipline : Discipline σ)
    (id : ObjectId) : Prop where
  free : discipline.unguarded id

/-- Operations of the machine may settle a promise. -/
class Settling
    (discipline : Discipline σ)
    (promise : ObjectId) : Prop where
  settling : discipline.settles promise

end Discipline

/-- A computation obeys a discipline. -/
class Exec.Obeys
    (discipline : Discipline σ)
    (computation : Exec σ α) : Prop where
  obeys : discipline.obeys computation

@[simp] theorem Exec.ask_bind
    (query : Machine σ -> α)
    (next : α -> Exec σ β)
    (env : Env σ)
    (machine : Machine σ) :
    (ask query >>= next) env machine = next (query machine) env machine := rfl

/-- A change only depends on what it makes of the machine it finds. -/
theorem Exec.change_congr
    {left right : Machine σ -> α × Machine σ}
    (same : left machine = right machine)
    (env : Env σ) :
    change left env machine = change right env machine := by
  unfold change
  rw [same]

namespace Exec

variable {env : Env σ} {before after : Machine σ} {answer : α} (next : α -> Exec σ β)

/-- A change that settles was made. -/
theorem eq_of_change
    {operation : Machine σ -> α × Machine σ}
    (settled : change operation env before = .ok answer after) :
    operation before = (answer, after) := by
  unfold change at settled
  dsimp only at settled
  split at settled
  · cases settled
  · cases settled
    rfl

theorem bind_of_ok
    {first : Exec σ α}
    (ran : first env before = .ok answer after) :
    (first >>= next) env before = next answer env after := by
  show EStateM.bind (first env) (fun answer => next answer env) before = _
  unfold EStateM.bind
  rw [ran]

theorem bind_of_error
    {first : Exec σ α}
    {stop : Stop σ}
    (ran : first env before = .error stop after) :
    (first >>= next) env before = .error stop after := by
  show EStateM.bind (first env) (fun answer => next answer env) before = _
  unfold EStateM.bind
  rw [ran]

end Exec

section

variable {discipline : Discipline σ} [closed : discipline.Closed]

/-! ## Results -/

namespace Discipline

variable {env : Env σ} {machine : Machine σ}

/-- A result is fine after a change that passes if it is fine from there on. -/
theorem keeps_after
    {middle : Machine σ}
    {result : EStateM.Result (Stop σ) (Machine σ) α}
    (passes : discipline.passes machine middle)
    (keeps : discipline.keeps middle result) :
    discipline.keeps machine result :=
  closed.resume (closed.settles () passes) keeps

/-- An error says the same whatever the answer would have been, and after a change that
passes. -/
theorem keeps_error
    {stop : Stop σ}
    {middle later : Machine σ}
    (passes : discipline.passes middle later)
    (keeps : discipline.keeps machine (.error stop middle : EStateM.Result _ _ α)) :
    discipline.keeps machine (.error stop later : EStateM.Result _ _ β) := by
  cases stop with
  | thrown exception =>
      exact closed.resume (closed.catches () keeps) (closed.throws exception passes)
  | outOfFuel => exact closed.stops machine later
  | interrupted sight => exact closed.interrupts later keeps

theorem keeps_bind
    {first : Exec σ α}
    {next : α -> Exec σ β}
    (earlier : discipline.keeps machine (first env machine))
    (later : ∀ answer middle, first env machine = .ok answer middle ->
      discipline.keeps middle (next answer env middle)) :
    discipline.keeps machine ((first >>= next) env machine) := by
  cases ran : first env machine with
  | ok answer middle =>
      rw [Exec.bind_of_ok next ran]
      rw [ran] at earlier
      exact closed.resume earlier (later answer middle ran)
  | error stop middle =>
      rw [Exec.bind_of_error next ran]
      rw [ran] at earlier
      exact keeps_error (closed.refl middle) earlier

/-- A change of the machine that passes, whether or not the watch picks what it leads to. -/
theorem keeps_change
    (operation : Machine σ -> α × Machine σ)
    (passes : discipline.passes machine (operation machine).2) :
    discipline.keeps machine (Exec.change operation env machine) := by
  unfold Exec.change
  dsimp only
  split
  · exact closed.shows passes
  · exact closed.settles _ passes

theorem keeps_attempt
    {computation : Exec σ α}
    (keeps : discipline.keeps machine (computation env machine)) :
    discipline.keeps machine (computation.attempt env machine) := by
  unfold Exec.attempt
  cases ran : computation env machine with
  | ok answer middle =>
      rw [ran] at keeps
      exact closed.resume keeps (closed.settles _ (closed.refl middle))
  | error stop middle =>
      rw [ran] at keeps
      cases stop with
      | thrown exception => exact closed.catches _ keeps
      | outOfFuel => exact closed.stops machine middle
      | interrupted sight => exact closed.interrupts middle keeps

/-- A loop whose body has fine results, however often it goes round. -/
theorem keeps_iterate
    {γ : Type}
    {step : γ -> Exec σ (γ ⊕ α)}
    (once : ∀ state machine, discipline.keeps machine (step state env machine))
    (state : γ) :
    discipline.keeps machine (Exec.iterate step state env machine) := by
  unfold Exec.iterate
  generalize env.fuel = rounds
  induction rounds generalizing state machine with
  | zero => exact closed.stops machine machine
  | succ rounds more =>
      have first := once state machine
      unfold Exec.iterateFrom
      cases ran : step state env machine with
      | error stop middle =>
          rw [ran] at first
          exact keeps_error (closed.refl middle) first
      | ok answer middle =>
          rw [ran] at first
          cases answer with
          | inr answer =>
              exact closed.resume first (closed.settles _ (closed.refl middle))
          | inl next => exact closed.resume first (more next)

end Discipline

open Discipline

/-! ## Sequences -/

namespace Exec.Obeys

variable (operation : Machine σ -> α × Machine σ)

theorem bind
    {first : Exec σ α}
    {next : α -> Exec σ β}
    (earlier : Obeys discipline first)
    (later : ∀ answer, Obeys discipline (next answer)) :
    Obeys discipline (first >>= next) :=
  ⟨fun env sound machine => keeps_bind (earlier.obeys env sound machine)
    fun answer middle _ => (later answer).obeys env sound middle⟩

omit closed in
/-- Obedience is decided machine by machine. -/
theorem pointwise
    {computation : Exec σ α}
    (decided : ∀ machine, ∃ other : Exec σ α, Obeys discipline other ∧
      ∀ env, computation env machine = other env machine) :
    Obeys discipline computation := by
  refine ⟨fun env sound machine => ?_⟩
  obtain ⟨other, obedient, same⟩ := decided machine
  rw [same env]
  exact obedient.obeys env sound machine

/-- A change of the machine that passes, whatever its answer. -/
theorem change
    (passes : ∀ machine, discipline.passes machine (operation machine).2) :
    Obeys discipline (change operation) :=
  ⟨fun _ _ machine => keeps_change operation (passes machine)⟩

theorem update
    (operation : Machine σ -> Machine σ)
    (passes : ∀ machine, discipline.passes machine (operation machine)) :
    Obeys discipline (update operation) :=
  change _ passes

/-- What follows a change may rely on what the answer is known to be. -/
theorem changeThen
    (safe : α -> Prop)
    {next : α -> Exec σ β}
    (passes : ∀ machine, discipline.passes machine (operation machine).2)
    (safely : ∀ machine, discipline.knows machine -> safe (operation machine).1)
    (later : ∀ answer, safe answer -> Obeys discipline (next answer)) :
    Obeys discipline (Exec.change operation >>= next) := by
  refine ⟨fun env sound machine => closed.relevant fun known => ?_⟩
  refine keeps_bind (keeps_change operation (passes machine)) fun answer middle ran => ?_
  have safe := safely machine known
  rw [eq_of_change ran] at safe
  exact (later answer safe).obeys env sound middle

end Exec.Obeys

namespace Exec

instance (first : Exec σ α) (next : α -> Exec σ β) [earlier : Obeys discipline first]
    [later : ∀ answer, Obeys discipline (next answer)] :
    Obeys discipline (first >>= next) :=
  earlier.bind later

instance obeys_pure (answer : α) : Obeys discipline (pure answer : Exec σ α) :=
  ⟨fun _ _ machine => closed.settles answer (closed.refl machine)⟩

instance obeys_raise (exception : Exception) : Obeys discipline (raise exception : Exec σ α) :=
  ⟨fun _ _ machine => closed.throws exception (closed.refl machine)⟩

instance (outcome : Except Exception α) : Obeys discipline (ofExcept outcome : Exec σ α) := by
  cases outcome with
  | ok answer => exact obeys_pure answer
  | error exception => exact obeys_raise exception

instance (query : Machine σ -> α) : Obeys discipline (ask query) :=
  ⟨fun _ _ machine => closed.settles _ (closed.refl machine)⟩

instance (transform : α -> β) (computation : Exec σ α) [obeys : Obeys discipline computation] :
    Obeys discipline (transform <$> computation) := by
  rw [map_eq_pure_bind]
  infer_instance

instance (condition : Prop) [Decidable condition] (first second : Exec σ α)
    [holds : Obeys discipline first] [fails : Obeys discipline second] :
    Obeys discipline (if condition then first else second) := by
  split
  · exact holds
  · exact fails

instance obeys_attempt
    (computation : Exec σ α)
    [obeys : Obeys discipline computation] :
    Obeys discipline (attempt computation) :=
  ⟨fun env sound machine => keeps_attempt (obeys.obeys env sound machine)⟩

/-! ## Invocations -/

omit closed in
theorem obeys_perform (invocation : Invocation) : Obeys discipline (perform invocation) :=
  ⟨fun _ sound machine => sound.performs invocation machine⟩

instance : Obeys discipline (perform (.call callee receiver arguments)) :=
  obeys_perform _

instance (newTarget : Value) : Obeys discipline (perform (.construct callee arguments newTarget)) :=
  obeys_perform _

instance : Obeys discipline (perform (.get id key receiver)) :=
  obeys_perform _

instance (value : Value) : Obeys discipline (perform (.set id key value receiver)) :=
  obeys_perform _

instance : Obeys discipline (perform (.has id key)) :=
  obeys_perform _

instance : Obeys discipline (perform (.delete target key)) :=
  obeys_perform _

instance : Obeys discipline (perform (.prototypeOf id)) :=
  obeys_perform _

instance (value : Value) : Obeys discipline (perform (.instanceOf value target)) :=
  obeys_perform _

instance : Obeys discipline (perform .checkpoint) :=
  obeys_perform _

instance : Obeys discipline (perform .untilIdle) :=
  obeys_perform _

instance : Obeys discipline (call callee receiver arguments) := by
  unfold call
  infer_instance

/-! ## Loops -/

instance {γ : Type} (step : γ -> Exec σ (γ ⊕ α)) (state : γ)
    [obeys : ∀ state, Obeys discipline (step state)] :
    Obeys discipline (iterate step state) :=
  ⟨fun env sound _ => keeps_iterate (fun state => (obeys state).obeys env sound) state⟩

instance (values : List β) (body : β -> Exec σ PUnit)
    [obeys : ∀ value, Obeys discipline (body value)] :
    Obeys discipline (values.forM body) := by
  induction values with
  | nil => exact obeys_pure PUnit.unit
  | cons value rest step => exact (obeys value).bind fun _ => step

instance {γ : Type} (values : List γ) (body : γ -> Exec σ β)
    [obeys : ∀ value, Obeys discipline (body value)] :
    Obeys discipline (values.mapM body) := by
  induction values with
  | nil =>
      rw [List.mapM_nil]
      infer_instance
  | cons value rest step =>
      rw [List.mapM_cons]
      exact (obeys value).bind fun _ => step.bind fun _ => inferInstance

instance {γ : Type} (value : Option γ) (body : γ -> Exec σ β)
    [obeys : ∀ value, Obeys discipline (body value)] :
    Obeys discipline (value.mapM body) := by
  cases value with
  | none =>
      rw [Option.mapM_none]
      infer_instance
  | some value =>
      rw [Option.mapM_some]
      infer_instance

instance obeys_observe : Obeys discipline observe :=
  .update _ fun machine => closed.refl machine

/-! ## Native calls -/

/-- Native calls obey if nothing depends on how deep they are. -/
theorem obeys_withNativeDepth_of
    (deeper : ∀ (machine : Machine σ) (nativeDepth : Nat),
      discipline.passes machine { machine with nativeDepth })
    {computation : Exec σ α}
    (obeys : discipline.obeys computation) :
    discipline.obeys (withNativeDepth computation) := by
  have inner : Obeys discipline computation := ⟨obeys⟩
  have enters : Obeys discipline (update fun machine =>
      { machine with nativeDepth := machine.nativeDepth + 1 } : Exec σ Unit) :=
    .update _ fun machine => deeper machine _
  have leaves : Obeys discipline (update fun machine =>
      { machine with nativeDepth := machine.nativeDepth - 1 } : Exec σ Unit) :=
    .update _ fun machine => deeper machine _
  suffices native : Obeys discipline (withNativeDepth computation) from native.obeys
  unfold withNativeDepth
  infer_instance

end Exec

end

section

variable {discipline : Discipline σ} [lawful : discipline.Lawful]

namespace Exec

instance obeys_withNativeDepth
    (computation : Exec σ α)
    [obeys : Obeys discipline computation] :
    Obeys discipline (withNativeDepth computation) :=
  ⟨lawful.withNativeDepth obeys.obeys⟩

/-- What follows an allocation may define properties of the new object as it likes. -/
theorem Obeys.allocateThen
    {prototype : Machine σ -> Option ObjectId}
    {kind : ObjectKind}
    [kind.Inert]
    {next : ObjectId -> Exec σ α}
    (later : ∀ id, discipline.Frees id -> Obeys discipline (next id)) :
    Obeys discipline
      (Exec.change (fun machine => machine.allocate (prototype machine) kind) >>= next) := by
  refine .changeThen _ discipline.unguarded
    (fun machine => lawful.allocate machine (prototype machine) kind) ?_
    fun id free => later id ⟨free⟩
  intro machine known
  have made := machine.heap.allocate_fst (prototype machine) kind
  exact made ▸ lawful.next machine known

end Exec

end

end ScriptVM

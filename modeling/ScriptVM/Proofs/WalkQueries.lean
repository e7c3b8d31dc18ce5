import Mathlib.Data.Finite.Prod
import Mathlib.Data.Set.Finite.Range
import Mathlib.Order.WellFounded
import ScriptVM.Machine.Run
import ScriptVM.Proofs.PromiseEvolutions

/-!
# What proxies wrap, and the queries of property walks

The target and the handler of a proxy are objects, at every moment that an embedder can come
across.
-/

namespace ScriptVM

variable {σ : Type}

namespace Machine

/-- The targets and the handlers of all proxies are objects. -/
def WrapsObjects (machine : Machine σ) : Prop :=
  ∀ id target handler, machine.kind? id = some (.proxy target handler) ->
    target.isObject = true ∧ handler.isObject = true

variable {before after : Machine σ}

variable (wraps : before.WrapsObjects)
include wraps

theorem WrapsObjects.change
    (proxies : ∀ id target handler, after.kind? id = some (.proxy target handler) ->
      before.kind? id = some (.proxy target handler) ∨
        target.isObject = true ∧ handler.isObject = true) :
    after.WrapsObjects := fun id target handler present =>
  (proxies id target handler present).elim (wraps id target handler) fun both => both

theorem WrapsObjects.adds
    {id : ObjectId}
    {kind : ObjectKind}
    (adds : before.Adds after id kind)
    (unlike : kind.isProxy = false) :
    after.WrapsObjects := by
  refine wraps.change fun other target handler present => .inl ?_
  rw [adds.kind?] at present
  split at present
  · rw [Option.some.inj present] at unlike
    cases unlike
  · exact present

theorem WrapsObjects.rewrites
    {promise : ObjectId}
    {record : PromiseRecord Value Reaction}
    {jobs : List (Job σ)}
    (rewrites : before.Rewrites after promise record jobs) :
    after.WrapsObjects := by
  refine wraps.change fun id target handler present => .inl ?_
  rw [rewrites.kind?] at present
  split at present
  · cases present
  · exact present

end Machine

/-- All proxies wrap objects. -/
def objectsWrapped (σ : Type) : Evolution σ where
  holds machine := machine.heap.Tidy ∧ machine.WrapsObjects
  leads _ _ := True
  refl _ _ := trivial
  trans _ _ := trivial

namespace objectsWrapped

variable {machine before after : Machine σ}

theorem passes_adds
    {id : ObjectId}
    {kind : ObjectKind}
    (adds : before.heap.Tidy -> before.Adds after id kind)
    (unlike : kind.isProxy = false) :
    (objectsWrapped σ).Passes before after :=
  fun ⟨tidy, wraps⟩ => ⟨⟨(adds tidy).tidy, wraps.adds (adds tidy) unlike⟩, trivial⟩

theorem passes_beside (heap : after.heap = before.heap) :
    (objectsWrapped σ).Passes before after := by
  refine fun ⟨tidy, wraps⟩ => ⟨⟨heap ▸ tidy, wraps.change fun id target handler present => ?_⟩,
    trivial⟩
  unfold Machine.kind? at present ⊢
  rw [heap] at present
  exact .inl present

theorem passes_mayRewrite (changes : before.heap.Tidy -> before.MayRewrite after) :
    (objectsWrapped σ).Passes before after := by
  intro ⟨tidy, wraps⟩
  rcases changes tidy with rfl | ⟨_, _, _, rewrites⟩
  · exact ⟨⟨tidy, wraps⟩, trivial⟩
  · exact ⟨⟨rewrites.tidy, wraps.rewrites rewrites⟩, trivial⟩

theorem passes_createNative (machine : Machine σ) (native : NativeFunction) (arity : Nat) :
    (objectsWrapped σ).Passes machine (machine.createNative native arity).2 :=
  passes_adds (fun tidy => .createNative tidy native arity) rfl

instance lawful : (objectsWrapped σ).Lawful where
  tidy holds := holds.1
  quiet still := fun ⟨_, wraps⟩ => ⟨⟨still.tidy, wraps.change still.proxies⟩, trivial⟩
  takeUnhandled _ := passes_beside rfl
  fresh _ := trivial
  allocatePromise _ prototype :=
    passes_adds (fun tidy => .allocatePromise tidy prototype) rfl
  settlePromise _ promise settlement value _ := passes_mayRewrite fun tidy =>
    Machine.mayRewrite_settlePromise tidy promise settlement value
  registerReaction _ promise reaction _ := passes_mayRewrite fun tidy =>
    Machine.mayRewrite_registerReaction tidy promise reaction
  registers _ _ := trivial
  adopt _ _ _ _ _ := passes_beside rfl
  createResolvingFunctions machine promise _ := by
    have added : (objectsWrapped σ).Passes machine
        { machine with cells := machine.cells.addLatch.2 } := passes_beside rfl
    exact (added.trans (passes_createNative _ _ 1)).trans (passes_createNative _ _ 1)
  createElement machine _ _ _ _ _ := passes_createNative machine _ 1
  addAggregate _ _ := passes_beside rfl
  updateAggregate _ _ _ _ := passes_beside rfl

instance parking : (objectsWrapped σ).discipline.Parking where
  allocateCoroutine _ prototype coroutine _ :=
    passes_adds (fun tidy => .allocate tidy prototype (.coroutine coroutine)) rfl
  park _ id _ _ := fun ⟨tidy, wraps⟩ => ⟨⟨tidy.modify id _,
    wraps.change fun _ _ _ present =>
      .inl ((Machine.kind?_park_of_unlike fun _ => ObjectKind.noConfusion).1 present)⟩, trivial⟩
  awaits _ := trivial

instance hosted : (objectsWrapped σ).Hosted where
  avoids _ := Machine.avoids_of_forall (fun _ => id) _
  pushHost _ _ _ := passes_beside rfl
  enqueueTask _ _ _ := passes_beside rfl
  enqueueMicrotask _ _ _ := passes_beside rfl
  reschedule _ _ _ _ := passes_beside rfl
  finish env _ _ := fun ⟨tidy, wraps⟩ =>
    have aside := Machine.aside_checkpointFinished tidy env
    ⟨⟨aside.tidy, wraps.change aside.proxies⟩, trivial⟩
  takeMicrotask _ _ _ _ := passes_beside rfl
  works _ _ inner sound := Evolution.keeps_work_of_forall (fun _ => trivial)
    (passes_beside rfl) inner sound
  settlers receiver arguments _ _ settles sound :=
    Evolution.keeps_settler_of_forall (fun _ => trivial) (fun _ _ => passes_beside rfl) settles
      sound receiver arguments
  resolves _ _ := trivial
  rejects _ _ := trivial
  discards _ _ := passes_beside rfl
  collects kept _ := by
    suffices obedient : Exec.Obeys (objectsWrapped σ).discipline
        (Exec.change fun machine => machine.collectGarbage kept) from obedient.obeys
    refine .change _ fun machine ⟨tidy, wraps⟩ => ?_
    obtain ⟨collected, kinds, -, -, -⟩ := Machine.collectGarbage_keeps tidy kept
    exact ⟨⟨collected, wraps.change fun id _ _ present => .inl (kinds id _ present)⟩, trivial⟩

end objectsWrapped

/-! ## New machines -/

theorem Machine.wrapsObjects_onHeap
    (intrinsics : Intrinsics)
    (config : Config)
    (world : σ)
    {heap : Heap ObjectKind}
    (bare : (heap.objects.toList.all fun slot =>
      slot.all fun object => !object.payload.isProxy) = true) :
    (onHeap heap intrinsics config world).WrapsObjects := by
  intro id target handler present
  obtain ⟨object, live, same⟩ := Option.map_eq_some_iff.1 present
  have member := Array.mem_of_getElem? (Option.join_eq_some_iff.1 live)
  have none := List.all_eq_true.1 bare _ (Array.mem_toList_iff.2 member)
  rw [Option.all_some, same] at none
  cases none

theorem Builtins.newMachine_wrapsObjects (config : Config) (world : σ) :
    (newMachine config world).WrapsObjects := by
  have bare : (initialHeap.2.objects.toList.all fun slot =>
      slot.all fun object => !object.payload.isProxy) = true := by
    decide +kernel
  exact Machine.wrapsObjects_onHeap initialHeap.1 config world bare

/-- Whatever an embedder does, proxies wrap objects. -/
theorem Sight.SeenWithout.wrapsObjects
    {sight : Sight σ}
    {config : Config}
    {world : σ}
    (seen : sight.SeenWithout (fun _ => False) (Builtins.newMachine config world)) :
    sight.machine.WrapsObjects := by
  have holds : (objectsWrapped σ).holds (Builtins.newMachine config world) :=
    ⟨Builtins.newMachine_tidy config world, Builtins.newMachine_wrapsObjects config world⟩
  exact (Evolution.passes_seenWithout (fun _ => id) seen holds).1.2

/-!
## Queries of property walks

A walk that arrives at a proxy leads to further walks: the handler is asked for a trap and, if
it has none, the target takes the place of the proxy. All of them look for one of a few keys on
one of finitely many objects. So unless a walk comes back to where it has been, they come to an
end.
-/

/-- What a walk along prototypes is for. -/
inductive Purpose
  | get
  | has
  | set
  /-- To find a trap of a handler. -/
  | trap
  deriving DecidableEq

/-- The trap that a proxy on the way is asked for. -/
def Purpose.trapName : Purpose -> String
  | get | trap => "get"
  | has => "has"
  | set => "set"

/-- A slot serves its purpose without a call of a function, and holds no trap of a handler. -/
def Purpose.Spares : Purpose -> Slot -> Prop
  | get, .data .. | has, _ | set, .data .. => True
  | get, .accessor getter _ | trap, .accessor getter _ => getter.isCallable = false
  | set, .accessor _ setter => setter.isCallable = false
  | trap, .data value _ => value.isNullish = true

/-- A walk from an object for a key. -/
structure Query where
  purpose : Purpose
  object : ObjectId
  key : PropertyKey

namespace Machine

/-- The number of objects that a walk may look at. -/
def reach (machine : Machine σ) : Purpose -> Nat
  | .set => machine.config.maxPrototypeChain + 1
  | .get | .has | .trap => machine.config.maxPrototypeChain

/-- Where the walk of a query ends, or which proxy it arrives at. -/
def arrival (machine : Machine σ) (query : Query) : Lookup :=
  machine.lookup query.key (machine.reach query.purpose) query.object

/-- A query whose walk arrives at a proxy leads to further queries. -/
inductive Consults (machine : Machine σ) (query : Query) : Query -> Prop
  | handler {target handler : Value} {id : ObjectId} :
      machine.arrival query = .atProxy target handler -> handler.objectId? = some id ->
      Consults machine query ⟨.trap, id, query.purpose.trapName⟩
  /-- The handler turned out to have no trap. -/
  | target {target handler : Value} {id : ObjectId} {fuel : Nat} :
      machine.arrival query = .atProxy target handler ->
      Exec.trap? handler query.purpose.trapName (Env.ofFuel fuel) machine = .ok none machine ->
      target.objectId? = some id ->
      Consults machine query { query with object := id }

/-- The property that the walk of a query ends at, if any, calls for no function. -/
def Passive (machine : Machine σ) (query : Query) : Prop :=
  ∀ property, machine.arrival query = .found property -> query.purpose.Spares property.slot

/-- None of the queries that a query leads to calls for a function, and none of them leads back
to itself. -/
structure Unaided (machine : Machine σ) (start : Query) : Prop where
  passive : ∀ query, Relation.ReflTransGen machine.Consults start query ->
    machine.Passive query
  returnless : ∀ query, Relation.ReflTransGen machine.Consults start query ->
    ¬ Relation.TransGen machine.Consults query query

variable {machine : Machine σ} {start query later : Query}

namespace Unaided

theorem step (unaided : machine.Unaided query) (consults : machine.Consults query later) :
    machine.Unaided later where
  passive further path := unaided.passive further (.head consults path)
  returnless further path := unaided.returnless further (.head consults path)

theorem passive_self (unaided : machine.Unaided query) : machine.Passive query :=
  unaided.passive query .refl

/-- It is enough to know of what a query leads to at once. -/
theorem of_consults
    (passive : machine.Passive query)
    (step : ∀ later, machine.Consults query later -> machine.Unaided later) :
    machine.Unaided query where
  passive further path := by
    rcases Relation.ReflTransGen.cases_head path with rfl | ⟨later, consults, rest⟩
    · exact passive
    · exact (step later consults).passive further rest
  returnless further path returns := by
    rcases Relation.ReflTransGen.cases_head path with rfl | ⟨later, consults, rest⟩
    · -- A query that leads back to itself leads to one that does, too.
      obtain ⟨later, consults, rest⟩ := Relation.TransGen.head'_iff.1 returns
      exact (step later consults).returnless later .refl (.tail' rest consults)
    · exact (step later consults).returnless further rest returns

/-- A walk that arrives at no proxy leads to no further query. -/
theorem of_ends
    (passive : machine.Passive query)
    (ends : ∀ target handler, machine.arrival query ≠ .atProxy target handler) :
    machine.Unaided query :=
  of_consults passive fun later consults => by
    cases consults with
    | handler arrives _ | target arrives _ _ => exact absurd arrives (ends _ _)

theorem of_found
    {property : Property}
    (found : machine.arrival query = .found property)
    (spares : query.purpose.Spares property.slot) :
    machine.Unaided query := by
  refine of_ends (fun other same => ?_) fun target handler arrives => ?_
  · cases found.symm.trans same
    exact spares
  · cases found.symm.trans arrives

theorem of_absent (absent : machine.arrival query = .absent) : machine.Unaided query :=
  of_ends (fun property found => by cases absent.symm.trans found)
    fun target handler arrives => by cases absent.symm.trans arrives

theorem of_tooLong (long : machine.arrival query = .tooLong) : machine.Unaided query :=
  of_ends (fun property found => by cases long.symm.trans found)
    fun target handler arrives => by cases long.symm.trans arrives

end Unaided

/-! ### Finitely many queries -/

/-- An object is the target or the handler of a proxy. -/
def Proxied (machine : Machine σ) (id : ObjectId) : Prop :=
  ∃ proxy target handler, machine.kind? proxy = some (.proxy target handler) ∧
    (target.objectId? = some id ∨ handler.objectId? = some id)

/-- The target or the handler of the proxy at a place of the heap. -/
def proxyPart (machine : Machine σ) (place : Fin machine.heap.objects.size × Bool) : ObjectId :=
  match machine.kind? ⟨place.1⟩ with
  | some (.proxy target handler) => ((bif place.2 then target else handler).objectId?).getD ⟨0⟩
  | _ => ⟨0⟩

theorem finite_proxied (machine : Machine σ) : {id | machine.Proxied id}.Finite := by
  refine (Set.finite_range machine.proxyPart).subset ?_
  rintro id ⟨proxy, target, handler, present, wrapped⟩
  have within : proxy.index < machine.heap.objects.size := by
    obtain ⟨object, live, -⟩ := Option.map_eq_some_iff.1 present
    exact Heap.index_lt_of_get? live
  rcases wrapped with named | named
  · refine ⟨(⟨proxy.index, within⟩, true), ?_⟩
    simp [proxyPart, present, named]
  · refine ⟨(⟨proxy.index, within⟩, false), ?_⟩
    simp [proxyPart, present, named]

theorem exists_proxy_of_lookup
    {key : PropertyKey}
    {limit : Nat}
    {id : ObjectId}
    {target handler : Value}
    (arrives : machine.lookup key limit id = .atProxy target handler) :
    ∃ proxy, machine.kind? proxy = some (.proxy target handler) := by
  induction limit generalizing id with
  | zero => cases arrives
  | succ limit step =>
      rw [lookup] at arrives
      split at arrives
      · next shown held present =>
          cases arrives
          exact ⟨id, present⟩
      · split at arrives
        · cases arrives
        · split at arrives
          · exact step arrives
          · cases arrives

/-- The objects and keys that a query can lead to. -/
def Nearby (machine : Machine σ) (start query : Query) : Prop :=
  (query.object = start.object ∨ machine.Proxied query.object) ∧
    (query.key = start.key ∨ ∃ purpose : Purpose, query.key = .string purpose.trapName)

theorem Nearby.step
    (nearby : machine.Nearby start query)
    (consults : machine.Consults query later) :
    machine.Nearby start later := by
  cases consults with
  | handler arrives held =>
      obtain ⟨proxy, present⟩ := exists_proxy_of_lookup arrives
      exact ⟨.inr ⟨proxy, _, _, present, .inr held⟩, .inr ⟨query.purpose, rfl⟩⟩
  | target arrives _ named =>
      obtain ⟨proxy, present⟩ := exists_proxy_of_lookup arrives
      exact ⟨.inr ⟨proxy, _, _, present, .inl named⟩, nearby.2⟩

theorem nearby_of_path (path : Relation.ReflTransGen machine.Consults start query) :
    machine.Nearby start query := by
  induction path with
  | refl => exact ⟨.inl rfl, .inl rfl⟩
  | tail _ consults nearby => exact nearby.step consults

theorem finite_nearby (machine : Machine σ) (start : Query) :
    {query | machine.Nearby start query}.Finite := by
  have purposes : (Set.univ : Set Purpose).Finite :=
    Set.Finite.subset (Set.toFinite {.get, .has, .set, .trap}) fun purpose _ => by
      cases purpose <;> simp
  have keys : (insert start.key ((fun purpose : Purpose => PropertyKey.string purpose.trapName) ''
      Set.univ)).Finite := (purposes.image _).insert _
  have objects := machine.finite_proxied.insert start.object
  refine ((purposes.prod (objects.prod keys)).image fun parts : Purpose × ObjectId × PropertyKey =>
    Query.mk parts.1 parts.2.1 parts.2.2).subset ?_
  rintro ⟨purpose, object, key⟩ ⟨place, name⟩
  refine ⟨(purpose, object, key), ⟨trivial, place, ?_⟩, rfl⟩
  rcases name with same | ⟨purpose, same⟩
  · exact .inl same
  · exact .inr ⟨purpose, trivial, same.symm⟩

/-- Queries that do not come back to themselves come to an end. -/
theorem Unaided.accessible (unaided : machine.Unaided start) :
    Acc (fun later earlier => machine.Consults earlier later) start := by
  let Reached := {query // Relation.ReflTransGen machine.Consults start query}
  have finite : Finite Reached :=
    ((machine.finite_nearby start).subset fun _ => nearby_of_path).to_subtype
  let after : Reached -> Reached -> Prop := fun later earlier =>
    Relation.TransGen machine.Consults earlier.1 later.1
  have transitive : IsTrans Reached after := ⟨fun _ _ _ first second => second.trans first⟩
  have irreflexive : Std.Irrefl after :=
    ⟨fun query => unaided.returnless query.1 query.2⟩
  have founded : WellFounded after := Finite.wellFounded_of_trans_of_irrefl after
  have all : ∀ query : Reached, Acc (fun later earlier => machine.Consults earlier later)
      query.1 := by
    intro query
    induction query using founded.induction with
    | _ query step =>
        exact ⟨_, fun later consults =>
          step ⟨later, query.2.tail consults⟩ (.single consults)⟩
  exact all ⟨start, .refl⟩

end Machine
end ScriptVM

import Mathlib.Data.Fintype.Card
import ScriptVM.Proofs.CachedWrites

/-!
# Proxies without traps

A proxy whose handler has no trap passes every operation on to its target, and what is
behind any number of such proxies is reached in the end. Only the receiver of an assignment
stays the proxy, which then has nothing of its own to overwrite.
-/

namespace ScriptVM

variable {σ α : Type}

deriving instance DecidableEq for Lookup

/-! ## Proxies over an object -/

/-- The names of the traps that operations on properties look for. -/
def propertyTraps : List String :=
  ["get", "set", "has", "deleteProperty", "getPrototypeOf"]

namespace Machine

/-- A handler has none of the traps, itself or on its prototype chain. -/
def Trapless (machine : Machine σ) (handler : Value) : Prop :=
  ∃ id, handler.objectId? = some id ∧ ∀ name ∈ propertyTraps,
    machine.lookup (.string name) machine.config.maxPrototypeChain id = .absent

/-- An object is reached from another one through a number of proxies without traps. -/
inductive Veils (machine : Machine σ) : Nat -> ObjectId -> ObjectId -> Prop
  | bare {id : ObjectId} : machine.isProxy id = false -> Veils machine 0 id id
  | proxy {layers : Nat} {id next behind : ObjectId} {target handler : Value} :
      machine.kind? id = some (.proxy target handler) -> machine.Trapless handler ->
      target.objectId? = some next -> Veils machine layers next behind ->
      Veils machine (layers + 1) id behind

/-- An object is not a proxy and has data properties only. -/
structure HoldsData (machine : Machine σ) (id : ObjectId) : Prop where
  bare : machine.isProxy id = false
  data : ∀ key property, machine.ordinaryOwnProperty? id key = some property ->
    property.isData = true

/-- An object and all objects on its prototype chain have data properties only, and none
of them is a proxy. -/
def InheritsData (machine : Machine σ) (id : ObjectId) : Prop :=
  ∀ holder, Relation.ReflTransGen
    (fun child parent => machine.heap.prototypeOf child = some parent) id holder ->
      machine.HoldsData holder

variable {machine : Machine σ} {layers : Nat} {id next behind : ObjectId} {key : PropertyKey}

theorem InheritsData.parent
    (inherits : machine.InheritsData id)
    (link : machine.heap.prototypeOf id = some next) :
    machine.InheritsData next :=
  fun holder path => inherits holder (.head link path)

/-- An object inherits only data if it has only data and its prototype inherits only
data. -/
theorem InheritsData.of_parent
    (holds : machine.HoldsData id)
    (parent : ∀ next, machine.heap.prototypeOf id = some next -> machine.InheritsData next) :
    machine.InheritsData id := by
  intro holder path
  rcases Relation.ReflTransGen.cases_head path with rfl | ⟨next, link, rest⟩
  · exact holds
  · exact parent next link holder rest

namespace Veils

theorem bare_behind (veils : machine.Veils layers id behind) : machine.isProxy behind = false := by
  induction veils with
  | bare bare => exact bare
  | proxy _ _ _ _ step => exact step

/-- What is behind an object, and behind how many proxies, is determined. -/
theorem unique
    {other : Nat}
    {object : ObjectId}
    (veils : machine.Veils layers id behind)
    (again : machine.Veils other id object) :
    layers = other := by
  induction veils generalizing other with
  | bare bare =>
      cases again with
      | bare _ => rfl
      | proxy present => exact absurd present (kind?_of_bare bare _ _)
  | proxy present _ named _ step =>
      cases again with
      | bare bare => exact absurd present (kind?_of_bare bare _ _)
      | proxy same _ other deeper =>
          cases present.symm.trans same
          cases named.symm.trans other
          rw [step deeper]

/-- A proxy stands at every distance from what it veils. -/
theorem exists_proxy
    (veils : machine.Veils layers id behind)
    {distance : Nat}
    (within : distance < layers) :
    ∃ proxy, machine.Veils (distance + 1) proxy behind ∧
      proxy.index < machine.heap.objects.size := by
  induction veils with
  | bare _ => cases within
  | @proxy layers id next behind target handler present trapless named deeper step =>
      rcases Nat.lt_succ_iff_lt_or_eq.1 within with closer | rfl
      · exact step closer
      · refine ⟨id, .proxy present trapless named deeper, ?_⟩
        apply Classical.byContradiction
        intro beyond
        simp [kind?, Heap.payload?, Heap.get?,
          Array.getElem?_eq_none (Nat.le_of_not_lt beyond)] at present

/-- There are no more proxies over an object than objects. -/
theorem layers_le (veils : machine.Veils layers id behind) :
    layers <= machine.heap.objects.size := by
  choose proxy veiled within using
    fun distance : Fin layers => veils.exists_proxy distance.isLt
  have injective : Function.Injective fun distance =>
      (⟨(proxy distance).index, within distance⟩ : Fin machine.heap.objects.size) := by
    intro left right same
    have proxies : proxy left = proxy right := by
      have index := congrArg Fin.val same
      dsimp only at index
      cases first : proxy left
      cases second : proxy right
      simpa [first, second] using index
    have distances := (veiled left).unique (proxies ▸ veiled right)
    exact Fin.ext (Nat.succ.inj distances)
  simpa using Fintype.card_le_of_injective _ injective

theorem throughProxies
    (veils : machine.Veils layers id behind)
    {limit : Nat}
    (enough : layers < limit) :
    machine.throughProxies limit id = some behind := by
  induction veils generalizing limit with
  | @bare id bare =>
      obtain ⟨limit, rfl⟩ := Nat.exists_eq_add_one.2 enough
      rw [Machine.throughProxies]
      split
      · next target handler present => exact absurd present (kind?_of_bare bare _ _)
      · rfl
  | @proxy layers id next behind target handler present trapless named deeper step =>
      obtain ⟨limit, rfl⟩ := Nat.exists_eq_add_one.2 (Nat.zero_lt_of_lt enough)
      rw [Machine.throughProxies, present]
      dsimp only
      rw [named]
      exact step (Nat.lt_of_succ_lt_succ enough)

/-- The machine finds what is behind an object. -/
theorem behindProxies? (veils : machine.Veils layers id behind) :
    machine.behindProxies? id = some behind :=
  veils.throughProxies (Nat.lt_succ_of_le veils.layers_le)

end Veils

/-! ## Walks along the prototype chain -/

theorem lookup_of_proxy
    {target handler : Value}
    (present : machine.kind? id = some (.proxy target handler))
    (key : PropertyKey)
    (limit : Nat) :
    machine.lookup key (limit + 1) id = .atProxy target handler := by
  rw [lookup, present]

/-- A walk along a chain of data ends at no proxy and at no accessor. -/
theorem InheritsData.lookup
    (inherits : machine.InheritsData id)
    (key : PropertyKey)
    (limit : Nat) :
    (∃ property, machine.lookup key limit id = .found property ∧ property.isData = true) ∨
      machine.lookup key limit id = .absent ∨ machine.lookup key limit id = .tooLong := by
  induction limit generalizing id with
  | zero => exact Or.inr (Or.inr rfl)
  | succ limit step =>
      have holds := inherits id .refl
      rw [Machine.lookup]
      split
      · next target handler present => exact absurd present (kind?_of_bare holds.bare _ _)
      · split
        · next property own => exact Or.inl ⟨property, rfl, holds.data key property own⟩
        · split
          · next parent link => exact step (inherits.parent link)
          · exact Or.inr (Or.inl rfl)

theorem exists_store_of_array
    {state : Nat × Bool}
    (array : machine.arrayStatus? id = some state) :
    ∃ store, machine.kind? id = some (.array store) := by
  unfold arrayStatus? at array
  split at array
  · next store present => exact ⟨store, present⟩
  · cases array

/-- An array never lacks its length. -/
theorem ne_lengthKey_of_missing
    {status : Nat × Bool}
    (array : machine.arrayStatus? id = some status)
    (index : key.arrayIndex? = none)
    (missing : machine.ordinaryOwnProperty? id key = none) :
    ¬ (key == lengthKey) = true := by
  obtain ⟨store, present⟩ := exists_store_of_array array
  intro length
  unfold ordinaryOwnProperty? at missing
  rw [present] at missing
  dsimp only at missing
  rw [index, if_pos length] at missing
  cases missing

/-- Where a walk ends without a property, its first object has none. -/
theorem ordinaryOwnProperty?_of_absent
    {limit : Nat}
    (absent : machine.lookup key (limit + 1) id = .absent) :
    machine.ordinaryOwnProperty? id key = none := by
  rw [Machine.lookup] at absent
  split at absent
  · cases absent
  · split at absent
    · cases absent
    · next missing => exact missing

end Machine

/-! ## One proxy -/

namespace Exec

variable {name : String} {γ : Type}

variable {machine : Machine σ} {layers fuel : Nat} {id next behind : ObjectId}
  {target handler : Value}

/-- The environment that an invocation runs in has one unit of fuel less. -/
theorem perform_ofFuel (invocation : Invocation) (fuel : Nat) :
    (perform invocation : Exec σ invocation.Answer) (Env.ofFuel (fuel + 1)) =
      operation invocation (Env.ofFuel fuel) := rfl

theorem readBy_of_object
    (named : target.objectId? = some id)
    (read : ObjectId -> Value -> Exec σ Value)
    (key : PropertyKey) :
    readBy read target key = read id target := by
  cases target with
  | object other | function other =>
      cases named
      rfl
  | _ => cases named

/-- A handler without traps has no trap to give. -/
theorem trap?_of_trapless
    (trapless : machine.Trapless handler)
    (trap : name ∈ propertyTraps)
    (fuel : Nat) :
    trap? handler name (Env.ofFuel (fuel + 1)) machine = .ok none machine := by
  obtain ⟨id, named, absent⟩ := trapless
  have read : (perform (.get id name handler) : Exec σ Value) (Env.ofFuel (fuel + 1)) machine =
      .ok .undefined machine := by
    rw [perform_ofFuel]
    show getWithReceiver id name handler (Env.ofFuel fuel) machine = _
    unfold getWithReceiver
    rw [ask_bind, absent name trap]
    rfl
  have missing : readBy (fun id receiver => perform (.get id name receiver)) handler name
      (Env.ofFuel (fuel + 1)) machine = .ok .undefined machine := by
    rw [readBy_of_object named]
    exact read
  unfold trap?
  exact bind_of_ok _ missing

/-- Where a handler has no trap, an operation goes on with the target of its proxy. -/
theorem trap?_bind
    (trapless : machine.Trapless handler)
    (trap : name ∈ propertyTraps)
    (fuel : Nat)
    (go : Option Value -> Exec σ γ) :
    (trap? handler name >>= go) (Env.ofFuel (fuel + 1)) machine =
      go none (Env.ofFuel (fuel + 1)) machine :=
  bind_of_ok go (trap?_of_trapless trapless trap fuel)

theorem targetObject_bind
    {env : Env σ}
    (named : target.objectId? = some next)
    (go : ObjectId -> Exec σ γ) :
    (targetObject target >>= go) env machine = go next env machine := by
  unfold targetObject
  rw [named]
  rfl

/-- A walk that starts with a proxy without traps goes as far as the proxy. -/
theorem chain_of_trapless (trapless : machine.Trapless handler) :
    ∃ limit, machine.config.maxPrototypeChain = limit + 1 := by
  obtain ⟨id, -, absent⟩ := trapless
  cases size : machine.config.maxPrototypeChain with
  | zero =>
      have none := absent "get" (.head _)
      rw [size] at none
      cases none
  | succ limit => exact ⟨limit, rfl⟩

section

variable (present : machine.kind? id = some (.proxy target handler))
include present

theorem getWithReceiver_of_proxy
    (trapless : machine.Trapless handler)
    (named : target.objectId? = some next)
    (key : PropertyKey)
    (receiver : Value) :
    getWithReceiver id key receiver (Env.ofFuel (fuel + 1)) machine =
      getWithReceiver next key receiver (Env.ofFuel fuel) machine := by
  obtain ⟨limit, chain⟩ := chain_of_trapless trapless
  have walked : getWithReceiver id key receiver (Env.ofFuel (fuel + 1)) machine =
      proxyGet target handler key receiver (Env.ofFuel (fuel + 1)) machine := by
    unfold getWithReceiver
    rw [ask_bind, chain, Machine.lookup_of_proxy present]
  rw [walked]
  unfold proxyGet
  rw [trap?_bind trapless (by decide)]
  exact targetObject_bind named _

theorem hasProperty_of_proxy
    (trapless : machine.Trapless handler)
    (named : target.objectId? = some next)
    (key : PropertyKey) :
    hasProperty id key (Env.ofFuel (fuel + 1)) machine =
      hasProperty next key (Env.ofFuel fuel) machine := by
  obtain ⟨limit, chain⟩ := chain_of_trapless trapless
  have walked : hasProperty id key (Env.ofFuel (fuel + 1)) machine =
      proxyHas target handler key (Env.ofFuel (fuel + 1)) machine := by
    unfold hasProperty
    rw [ask_bind, chain, Machine.lookup_of_proxy present]
  rw [walked]
  unfold proxyHas
  rw [trap?_bind trapless (by decide)]
  exact targetObject_bind named _

theorem getPrototypeOf_of_proxy
    (trapless : machine.Trapless handler)
    (named : target.objectId? = some next) :
    getPrototypeOf id (Env.ofFuel (fuel + 1)) machine =
      getPrototypeOf next (Env.ofFuel fuel) machine := by
  have found : getPrototypeOf id (Env.ofFuel (fuel + 1)) machine =
      proxyPrototypeOf target handler (Env.ofFuel (fuel + 1)) machine := by
    unfold getPrototypeOf
    rw [ask_bind, present]
  rw [found]
  unfold proxyPrototypeOf
  rw [trap?_bind trapless (by decide)]
  exact targetObject_bind named _

theorem setWithReceiver_of_proxy
    (trapless : machine.Trapless handler)
    (named : target.objectId? = some next)
    (key : PropertyKey)
    (value receiver : Value) :
    setWithReceiver id key value receiver (Env.ofFuel (fuel + 1)) machine =
      setWithReceiver next key value receiver (Env.ofFuel fuel) machine := by
  have walked : setWithReceiver id key value receiver (Env.ofFuel (fuel + 1)) machine =
      proxySet target handler key value receiver (Env.ofFuel (fuel + 1)) machine := by
    unfold setWithReceiver
    rw [ask_bind, Machine.lookup_of_proxy present]
  rw [walked]
  unfold proxySet
  rw [trap?_bind trapless (by decide)]
  exact targetObject_bind named _

end

/-- Nothing is thrown where a deletion is refused in sloppy code. -/
theorem deleteProperty_sloppy
    (named : target.objectId? = some next)
    (key : PropertyKey)
    (env : Env σ)
    (machine : Machine σ) :
    deleteProperty target key false env machine = deleteOwn next key env machine := by
  have asked : deleteProperty target key false env machine =
      (deleteOwn next key >>= fun deleted =>
        if !deleted && false then
          typeError fun machine =>
            "Cannot delete property '" ++ machine.displayKey key ++ "' of " ++
              machine.display target
        else pure deleted) env machine := by
    cases target with
    | object other | function other =>
        cases named
        rfl
    | _ => cases named
  rw [asked]
  cases ran : deleteOwn next key env machine with
  | ok deleted after =>
      rw [bind_of_ok _ ran, Bool.and_false]
      rfl
  | error stop after => rw [bind_of_error _ ran]

theorem deleteOwn_of_proxy
    (present : machine.kind? id = some (.proxy target handler))
    (trapless : machine.Trapless handler)
    (named : target.objectId? = some next)
    (key : PropertyKey) :
    deleteOwn id key (Env.ofFuel (fuel + 1)) machine =
      deleteOwn next key (Env.ofFuel fuel) machine := by
  have found : deleteOwn id key (Env.ofFuel (fuel + 1)) machine =
      proxyDelete target handler key (Env.ofFuel (fuel + 1)) machine := by
    unfold deleteOwn
    rw [ask_bind, present]
  rw [found]
  unfold proxyDelete
  rw [trap?_bind trapless (by decide)]
  exact deleteProperty_sloppy named key _ machine

/-! ## Any number of proxies -/

/-- An operation that every proxy without traps passes on reaches what is behind all of
them. -/
theorem forwarded
    (operation : ObjectId -> Exec σ α)
    (forwards : ∀ {fuel id next target handler},
      machine.kind? id = some (.proxy target handler) -> machine.Trapless handler ->
      target.objectId? = some next ->
      operation id (Env.ofFuel (fuel + 1)) machine = operation next (Env.ofFuel fuel) machine)
    (veils : machine.Veils layers id behind)
    (enough : layers <= fuel) :
    operation id (Env.ofFuel fuel) machine =
      operation behind (Env.ofFuel (fuel - layers)) machine := by
  induction veils generalizing fuel with
  | bare _ => rfl
  | proxy present trapless named _ step =>
      obtain ⟨fuel, rfl⟩ := Nat.exists_eq_add_one.2 (Nat.zero_lt_of_lt enough)
      rw [forwards present trapless named, step (Nat.le_of_succ_le_succ enough),
        Nat.add_sub_add_right]

/-- Reading data does not depend on the receiver. -/
theorem getWithReceiver_of_data
    (inherits : machine.InheritsData id)
    (key : PropertyKey)
    (receiver other : Value)
    (env more : Env σ) :
    getWithReceiver id key receiver env machine = getWithReceiver id key other more machine := by
  unfold getWithReceiver
  rw [ask_bind, ask_bind]
  rcases inherits.lookup key machine.config.maxPrototypeChain with
    ⟨property, found, data⟩ | absent | long
  · rw [found]
    unfold Property.isData at data
    dsimp only
    unfold propertyValue
    split at data
    · next value writable slot =>
        rw [slot]
        rfl
    · cases data
  · rw [absent]
    rfl
  · rw [long]
    rfl

theorem hasProperty_of_data
    (inherits : machine.InheritsData id)
    (key : PropertyKey)
    (env more : Env σ) :
    hasProperty id key env machine = hasProperty id key more machine := by
  unfold hasProperty
  rw [ask_bind, ask_bind]
  rcases inherits.lookup key machine.config.maxPrototypeChain with
    ⟨property, found, data⟩ | absent | long
  · rw [found]
    rfl
  · rw [absent]
    rfl
  · rw [long]
    rfl

theorem getPrototypeOf_of_bare (bare : machine.isProxy id = false) (env : Env σ) :
    getPrototypeOf id env machine = .ok (machine.heap.prototypeOf id) machine := by
  unfold getPrototypeOf
  rw [ask_bind]
  cases present : machine.kind? id with
  | none => rfl
  | some kind =>
      cases kind with
      | proxy target handler => exact absurd present (Machine.kind?_of_bare bare _ _)
      | _ => rfl

theorem deleteOwn_of_bare
    (bare : machine.isProxy id = false)
    (key : PropertyKey)
    (fuel more : Nat) :
    deleteOwn id key (Env.ofFuel fuel) machine = deleteOwn id key (Env.ofFuel more) machine := by
  unfold deleteOwn
  rw [ask_bind, ask_bind]
  cases present : machine.kind? id with
  | none => rfl
  | some kind =>
      cases kind with
      | proxy target handler => exact absurd present (Machine.kind?_of_bare bare _ _)
      | _ => rfl

/-! ## Definitions and assignments -/

/-- A definition concerns what is behind the proxies. -/
theorem defineOwnProperty_of_veils
    (veils : machine.Veils layers id behind)
    (key : PropertyKey)
    (descriptor : Descriptor)
    (env : Env σ) :
    defineOwnProperty id key descriptor env machine =
      defineOwnProperty behind key descriptor env machine := by
  have found := veils.behindProxies?
  have itself := (Machine.Veils.bare veils.bare_behind).behindProxies?
  unfold defineOwnProperty
  rw [ask_bind, ask_bind, found, itself]

theorem changeOrRaise_ofFuel
    (operation : Machine σ -> Except Exception α × Machine σ)
    (fuel more : Nat)
    (machine : Machine σ) :
    changeOrRaise operation (Env.ofFuel fuel) machine =
      changeOrRaise operation (Env.ofFuel more) machine := by
  unfold changeOrRaise
  rw [bind_of_ok _ (change_of_unwatched (fun _ => rfl) operation machine),
    bind_of_ok _ (change_of_unwatched (fun _ => rfl) operation machine)]
  cases (operation machine).1 <;> rfl

/-- A new property is defined without running a script. -/
theorem createDataProperty_of_missing
    (bare : machine.isProxy id = false)
    {key : PropertyKey}
    (missing : machine.ordinaryOwnProperty? id key = none)
    (value : Value)
    (fuel more : Nat) :
    createDataProperty id key value (Env.ofFuel fuel) machine =
      createDataProperty id key value (Env.ofFuel more) machine := by
  have itself := (Machine.Veils.bare bare).behindProxies?
  unfold createDataProperty defineOwnProperty
  rw [ask_bind, ask_bind, itself]
  dsimp only
  rw [ask_bind, ask_bind]
  cases status : machine.arrayStatus? id with
  | none => rfl
  | some found =>
      obtain ⟨size, frozen⟩ := found
      cases index : key.arrayIndex? with
      | some index =>
          cases frozen with
          | true => rfl
          | false => exact changeOrRaise_ofFuel _ fuel more machine
      | none =>
          have other := Machine.ne_lengthKey_of_missing status index missing
          cases frozen with
          | true =>
              dsimp only
              rw [if_neg other]
              rfl
          | false =>
              dsimp only
              rw [if_neg other]
              rfl

end Exec

namespace Machine

/-- An object owns a key as a property that assignment may change. -/
def OwnsWritable (machine : Machine σ) (id : ObjectId) (key : PropertyKey) : Prop :=
  ∃ property, machine.ordinaryOwnProperty? id key = some property ∧ property.isWritable = true

end Machine

namespace Exec

variable {machine : Machine σ} {layers fuel : Nat} {id behind : ObjectId}
  {receiver target : Value} {key : PropertyKey}

/-- A receiver behind which there is an object gets a property like the object itself,
unless there is one to overwrite. -/
theorem assignOwn_of_veils
    (veils : machine.Veils layers id behind)
    (named : receiver.objectId? = some id)
    (object : target.objectId? = some behind)
    (fresh : ¬ machine.OwnsWritable behind key)
    (value : Value)
    (less more : Nat) :
    assignOwn receiver key value (Env.ofFuel less) machine =
      assignOwn target key value (Env.ofFuel more) machine := by
  have itself : machine.Veils 0 behind behind := .bare veils.bare_behind
  have own : machine.getOwnProperty? id key = machine.ordinaryOwnProperty? behind key := by
    unfold Machine.getOwnProperty?
    rw [veils.behindProxies?]
    rfl
  have same : machine.getOwnProperty? behind key = machine.ordinaryOwnProperty? behind key := by
    unfold Machine.getOwnProperty?
    rw [itself.behindProxies?]
    rfl
  unfold assignOwn
  rw [named, object]
  dsimp only
  rw [ask_bind, ask_bind, own, same]
  cases present : machine.ordinaryOwnProperty? behind key with
  | none =>
      dsimp only
      unfold createDataProperty
      rw [defineOwnProperty_of_veils veils]
      exact createDataProperty_of_missing veils.bare_behind present value less more
  | some property =>
      have readOnly : ¬ property.isWritable = true :=
        fun writable => fresh ⟨property, present, writable⟩
      dsimp only
      rw [if_neg readOnly, if_neg readOnly]
      rfl

theorem setWithReceiver_of_veils
    (enough : layers <= fuel)
    (veils : machine.Veils layers id behind)
    (inherits : machine.InheritsData behind)
    (named : receiver.objectId? = some id)
    (object : target.objectId? = some behind)
    (fresh : ¬ machine.OwnsWritable behind key)
    (value : Value) :
    setWithReceiver id key value receiver (Env.ofFuel fuel) machine =
      setWithReceiver behind key value target (Env.ofFuel fuel) machine := by
  rw [forwarded (fun id => setWithReceiver id key value receiver)
    (fun present trapless named => setWithReceiver_of_proxy present trapless named key value
      receiver) veils enough]
  have assigned := assignOwn_of_veils veils named object fresh value (fuel - layers) fuel
  unfold setWithReceiver
  rw [ask_bind, ask_bind]
  rcases inherits.lookup key (machine.config.maxPrototypeChain + 1) with
    ⟨property, found, data⟩ | absent | long
  · rw [found]
    dsimp only
    unfold Property.isData at data
    split at data
    · next held writable slot =>
        rw [slot]
        cases writable with
        | true => exact assigned
        | false => rfl
    · cases data
  · rw [absent]
    exact assigned
  · rw [long]
    rfl

/-- A proxy has nothing to overwrite, unless there is a property of its own. -/
theorem writeOwnValue_of_proxy
    {env : Env σ}
    (unwatched : ∀ seen, env.watch seen = false)
    {shown handler : Value}
    (present : machine.kind? id = some (.proxy shown handler))
    (none : machine.heap.getOwn? id key = none)
    (value : Value) :
    writeOwnValue id key value env machine = .ok false machine := by
  have status : machine.arrayStatus? id = .none := by
    unfold Machine.arrayStatus?
    rw [present]
  unfold writeOwnValue
  rw [ask_bind, status]
  dsimp only
  rw [if_neg (by simp), change_of_unwatched unwatched, none]

/-- Where the object behind a proxy owns a key that could be overwritten, the proxy refuses
the assignment, unless there is such a property of its own. -/
theorem setWithReceiver_of_ownsWritable
    (enough : layers < fuel)
    (veils : machine.Veils (layers + 1) id behind)
    (named : receiver.objectId? = some id)
    (owns : machine.OwnsWritable behind key)
    (none : machine.heap.getOwn? id key = none)
    (value : Value) :
    setWithReceiver id key value receiver (Env.ofFuel fuel) machine = .ok false machine := by
  obtain ⟨property, own, writable⟩ := owns
  have looked : machine.lookup key (machine.config.maxPrototypeChain + 1) behind =
      .found property := by
    rw [Machine.lookup, own]
    split
    · next shown handler present =>
        exact absurd present (Machine.kind?_of_bare veils.bare_behind _ _)
    · rfl
  obtain ⟨held, slot⟩ : ∃ held, property.slot = .data held true := by
    unfold Property.isWritable at writable
    split at writable
    · next held _ slot => exact ⟨held, writable ▸ slot⟩
    · cases writable
  have seen : machine.getOwnProperty? id key = some property := by
    unfold Machine.getOwnProperty?
    rw [veils.behindProxies?]
    exact own
  obtain ⟨shown, handler, present⟩ : ∃ shown handler,
      machine.kind? id = some (.proxy shown handler) := by
    cases veils with
    | proxy present => exact ⟨_, _, present⟩
  rw [forwarded (fun id => setWithReceiver id key value receiver)
    (fun present trapless named => setWithReceiver_of_proxy present trapless named key value
      receiver) veils enough]
  have refused : assignOwn receiver key value (Env.ofFuel (fuel - (layers + 1))) machine =
      .ok false machine := by
    unfold assignOwn
    rw [named]
    dsimp only
    rw [ask_bind, seen]
    dsimp only
    rw [if_pos writable]
    exact writeOwnValue_of_proxy (fun _ => rfl) present none value
  unfold setWithReceiver
  rw [ask_bind, looked]
  dsimp only
  rw [slot]
  exact refused

end Exec
end ScriptVM

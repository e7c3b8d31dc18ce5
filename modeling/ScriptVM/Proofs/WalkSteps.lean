import ScriptVM.Proofs.Proxies
import ScriptVM.Proofs.WalkQueries

/-!
# Steps of property walks

A computation terminates if there is an amount of fuel from which on it always comes to the same
end. Reading a property, looking for it and assigning to it do so where the walk for it arrives
at no proxy and calls for no function, and pass the walk on where a proxy has no trap.
-/

namespace ScriptVM

variable {σ α β : Type}

/-! ## Computations that end -/

namespace Exec

/-- With enough fuel, a computation always comes to the same end, and to a good one. -/
def Terminates
    (computation : Exec σ α)
    (machine : Machine σ)
    (good : EStateM.Result (Stop σ) (Machine σ) α -> Prop) : Prop :=
  ∃ least result, good result ∧
    ∀ fuel, least <= fuel -> computation (Env.ofFuel fuel) machine = result

namespace Terminates

variable {result : EStateM.Result (Stop σ) (Machine σ) α}

variable {machine : Machine σ} {good : EStateM.Result (Stop σ) (Machine σ) α -> Prop}
  {computation : Exec σ α}

theorem of_forall
    (fine : good result)
    (same : ∀ fuel, computation (Env.ofFuel fuel) machine = result) :
    computation.Terminates machine good :=
  ⟨0, result, fine, fun fuel _ => same fuel⟩

/-- The end that a computation always comes to has to be good. -/
theorem good_of_forall
    (ends : computation.Terminates machine good)
    (same : ∀ fuel, computation (Env.ofFuel fuel) machine = result) :
    good result := by
  obtain ⟨least, other, fine, runs⟩ := ends
  rwa [← same least, runs least (Nat.le_refl _)]

/-- What does the same as a computation that ends, ends. -/
theorem congr
    {computation other : Exec σ α}
    (ends : other.Terminates machine good)
    (same : ∀ env, computation env machine = other env machine) :
    computation.Terminates machine good := by
  obtain ⟨least, result, fine, runs⟩ := ends
  exact ⟨least, result, fine, fun fuel enough => (same _).trans (runs fuel enough)⟩

theorem mono
    {better : EStateM.Result (Stop σ) (Machine σ) α -> Prop}
    (ends : computation.Terminates machine better)
    (weaker : ∀ result, better result -> good result) :
    computation.Terminates machine good := by
  obtain ⟨least, result, fine, runs⟩ := ends
  exact ⟨least, result, weaker result fine, runs⟩

theorem bind
    {between : EStateM.Result (Stop σ) (Machine σ) β -> Prop}
    {first : Exec σ β}
    {next : β -> Exec σ α}
    (begins : first.Terminates machine between)
    (goesOn : ∀ answer after, between (.ok answer after) ->
      (next answer).Terminates after good)
    (stops : ∀ stop after, between (.error stop after) -> good (.error stop after)) :
    (first >>= next).Terminates machine good := by
  obtain ⟨least, result, fine, runs⟩ := begins
  cases result with
  | ok answer after =>
      obtain ⟨more, outcome, final, rest⟩ := goesOn answer after fine
      refine ⟨max least more, outcome, final, fun fuel enough => ?_⟩
      rw [bind_of_ok _ (runs fuel (Nat.le_trans (Nat.le_max_left ..) enough))]
      exact rest fuel (Nat.le_trans (Nat.le_max_right ..) enough)
  | error stop after =>
      exact ⟨least, _, stops stop after fine, fun fuel enough =>
        bind_of_error _ (runs fuel enough)⟩

theorem perform
    (invocation : Invocation)
    {good : EStateM.Result (Stop σ) (Machine σ) invocation.Answer -> Prop}
    (ends : (operation invocation).Terminates machine good) :
    (Exec.perform invocation : Exec σ invocation.Answer).Terminates machine good := by
  obtain ⟨least, result, fine, runs⟩ := ends
  refine ⟨least + 1, result, fine, fun fuel enough => ?_⟩
  obtain ⟨fuel, rfl⟩ := Nat.exists_eq_add_one.2 (Nat.zero_lt_of_lt enough)
  rw [perform_ofFuel]
  exact runs fuel (Nat.le_of_succ_le_succ enough)

theorem change
    {operation : Machine σ -> α × Machine σ}
    (fine : good (.ok (operation machine).1 (operation machine).2)) :
    (Exec.change operation).Terminates machine good :=
  .of_forall fine fun _ => change_of_unwatched (fun _ => rfl) operation machine

theorem changeOrRaise
    {operation : Machine σ -> Except Exception α × Machine σ}
    (answers : ∀ answer after, operation machine = (.ok answer, after) ->
      good (.ok answer after))
    (throws : ∀ exception after, operation machine = (.error exception, after) ->
      good (.error (.thrown exception) after)) :
    (Exec.changeOrRaise operation).Terminates machine good := by
  have changed : (Exec.change operation).Terminates machine fun result =>
      result = .ok (operation machine).1 (operation machine).2 := .change rfl
  refine changed.bind (fun answer after same => ?_) fun stop after same => by cases same
  obtain ⟨rfl, rfl⟩ : answer = (operation machine).1 ∧ after = (operation machine).2 := by
    cases same
    exact ⟨rfl, rfl⟩
  cases outcome : (operation machine).1 with
  | ok answer => exact .of_forall (answers answer _ (Prod.ext outcome rfl)) fun _ => rfl
  | error exception => exact .of_forall (throws exception _ (Prod.ext outcome rfl)) fun _ => rfl

end Terminates
end Exec

/-! ## Answers -/

/-- A value can be the result of a walk: what is read to find a trap is undefined or null. -/
def Purpose.Finds (purpose : Purpose) (value : Value) : Prop :=
  purpose = .trap -> value.isNullish = true

namespace Machine

/-- A computation gives an answer that is accepted or finds a chain of prototypes too long, and
leaves the machine as it is. -/
inductive Answered (machine : Machine σ) (accepts : α -> Prop) :
    EStateM.Result (Stop σ) (Machine σ) α -> Prop
  | answer {answer : α} : accepts answer -> Answered machine accepts (.ok answer machine)
  | chainOverflow : Answered machine accepts (.error (.thrown .chainOverflow) machine)

theorem Answered.any
    {machine : Machine σ}
    {accepts : α -> Prop}
    {result : EStateM.Result (Stop σ) (Machine σ) α}
    (answered : machine.Answered accepts result) :
    machine.Answered (fun _ => True) result := by
  cases answered with
  | answer _ => exact .answer trivial
  | chainOverflow => exact .chainOverflow

/-- A number is the length of an array within the bound. -/
def IsLength (number : Float) : Prop :=
  (Float.ofNat (Number.toWord number) != number) = false ∧ Number.toWord number <= maxArrayLength

/-- An assignment gives an answer or finds a chain of prototypes too long. An array throws back
an index or a length that is out of bounds, and a symbol for its length. -/
inductive Assigned (machine : Machine σ) (key : PropertyKey) (value receiver : Value) :
    EStateM.Result (Stop σ) (Machine σ) Bool -> Prop
  | answer (done : Bool) (after : Machine σ) : Assigned machine key value receiver (.ok done after)
  | chainOverflow :
      Assigned machine key value receiver (.error (.thrown .chainOverflow) machine)
  | beyondBound {index : Nat} : machine.isArray receiver = true ->
      key.arrayIndex? = some index -> maxArrayLength <= index ->
      Assigned machine key value receiver (.error (.thrown Machine.invalidLength) machine)
  | noLength {number : Float} : machine.isArray receiver = true -> key = lengthKey ->
      value.primitiveNumber = .ok number -> ¬ IsLength number ->
      Assigned machine key value receiver (.error (.thrown Machine.invalidLength) machine)
  | noNumber {symbol : SymbolId} : machine.isArray receiver = true -> key = lengthKey ->
      value = .symbol symbol ->
      Assigned machine key value receiver
        (.error (.thrown (.typeError "Cannot convert a Symbol value to a number")) machine)

/-- An assignment to the length of an array has to convert an object. -/
def Converts (machine : Machine σ) (key : PropertyKey) (value receiver : Value) : Prop :=
  key = lengthKey ∧ value.isObject = true ∧
    ∃ id, receiver.objectId? = some id ∧ (machine.arrayStatus? id).isSome = true

end Machine

/-! ## One step of a walk -/

namespace Exec

variable {machine : Machine σ} {purpose : Purpose} {key : PropertyKey} {id : ObjectId}
  {target handler value receiver : Value}

/-- A handler that is asked for a trap has none. -/
theorem terminates_trap?
    (held : handler.objectId? = some id)
    {name : String}
    (reads : (getWithReceiver id name handler).Terminates machine
      (machine.Answered (Purpose.Finds .trap))) :
    (trap? handler name).Terminates machine (machine.Answered fun trap => trap = none) := by
  have asked : (readBy (fun id receiver => perform (.get id name receiver)) handler name :
      Exec σ Value).Terminates machine (machine.Answered (Purpose.Finds .trap)) := by
    rw [readBy_of_object held]
    exact .perform (.get id name handler) reads
  refine asked.bind (fun value after read => ?_) fun stop after stopped => ?_
  · cases read with
    | answer finds =>
        refine .of_forall (.answer rfl) fun _ => ?_
        unfold asMethod
        rw [if_pos (finds rfl)]
        rfl
  · cases stopped
    exact .chainOverflow

/-- Operations that walk from objects for a key. Where such a walk arrives at no proxy it ends,
and behind a proxy without the trap it goes on from the target. -/
structure Walks
    (machine : Machine σ)
    (purpose : Purpose)
    (key : PropertyKey)
    (walk : ObjectId -> Exec σ α)
    (good : EStateM.Result (Stop σ) (Machine σ) α -> Prop) : Prop where
  ends : ∀ id, machine.Passive ⟨purpose, id, key⟩ ->
    (∀ target handler, machine.arrival ⟨purpose, id, key⟩ ≠ .atProxy target handler) ->
    (walk id).Terminates machine good
  passesOn : ∀ {id target handler next},
    machine.arrival ⟨purpose, id, key⟩ = .atProxy target handler ->
    target.objectId? = some next ->
    ∃ go : Option Value -> Exec σ α,
      (∀ env, walk id env machine = (trap? handler purpose.trapName >>= go) env machine) ∧
        ((walk next).Terminates machine good -> (go none).Terminates machine good)
  chainOverflow : good (.error (.thrown .chainOverflow) machine)

/-- A walk ends if all that it leads to at once does. -/
theorem Walks.step
    {walk : ObjectId -> Exec σ α}
    {good : EStateM.Result (Stop σ) (Machine σ) α -> Prop}
    (walks : Walks machine purpose key walk good)
    (wraps : machine.WrapsObjects)
    (passive : machine.Passive ⟨purpose, id, key⟩)
    (handlers : ∀ keeper (handler : Value),
      machine.Consults ⟨purpose, id, key⟩ ⟨.trap, keeper, purpose.trapName⟩ ->
      (getWithReceiver keeper purpose.trapName handler).Terminates machine
        (machine.Answered (Purpose.Finds .trap)))
    (targets : ∀ next, machine.Consults ⟨purpose, id, key⟩ ⟨purpose, next, key⟩ ->
      (walk next).Terminates machine good) :
    (walk id).Terminates machine good := by
  by_cases arrives : ∃ target handler,
      machine.arrival ⟨purpose, id, key⟩ = .atProxy target handler
  · obtain ⟨target, handler, arrives⟩ := arrives
    obtain ⟨proxy, present⟩ := Machine.exists_proxy_of_lookup arrives
    obtain ⟨next, named⟩ := Option.isSome_iff_exists.1 (wraps _ _ _ present).1
    obtain ⟨keeper, held⟩ := Option.isSome_iff_exists.1 (wraps _ _ _ present).2
    obtain ⟨go, same, goesOn⟩ := walks.passesOn arrives named
    obtain ⟨least, result, fine, runs⟩ :=
      terminates_trap? held (handlers keeper handler (.handler arrives held))
    have trap : (trap? handler purpose.trapName).Terminates machine (· = result) :=
      ⟨least, result, rfl, runs⟩
    refine (trap.bind (fun answer after answered => ?_) fun stop after stopped => ?_).congr same
    · cases answered
      cases fine with
      | answer missing =>
          subst missing
          -- Only now is it known that the target is consulted.
          exact goesOn (targets next (.target arrives (runs least (Nat.le_refl _)) named))
    · cases stopped
      cases fine
      exact walks.chainOverflow
  · exact walks.ends id passive fun target handler found => arrives ⟨target, handler, found⟩

/-! ## Where walks arrive -/

/-- What a read makes of where its walk arrives. -/
def readArrival (key : PropertyKey) (receiver : Value) : Lookup -> Exec σ Value
  | .found property => propertyValue property receiver
  | .atProxy target handler => proxyGet target handler key receiver
  | .absent => return .undefined
  | .tooLong => raise .chainOverflow

/-- What a look for a key makes of it. -/
def hasArrival (key : PropertyKey) : Lookup -> Exec σ Bool
  | .found _ => return true
  | .atProxy target handler => proxyHas target handler key
  | .absent => return false
  | .tooLong => raise .chainOverflow

/-- What an assignment makes of it. -/
def setArrival (key : PropertyKey) (value receiver : Value) : Lookup -> Exec σ Bool
  | .atProxy target handler => proxySet target handler key value receiver
  | .tooLong => raise .chainOverflow
  | .absent => assignOwn receiver key value
  | .found property =>
      match property.slot with
      | .data _ true => assignOwn receiver key value
      | .data _ false => return false
      | .accessor _ setter =>
          if setter.isCallable then do
            let _ <- call setter receiver [value]
            return true
          else return false

/-- An assignment walks and then deals with where it arrived. -/
theorem setWithReceiver_eq
    (id : ObjectId)
    (key : PropertyKey)
    (value receiver : Value)
    (env : Env σ)
    (machine : Machine σ) :
    setWithReceiver id key value receiver env machine =
      setArrival key value receiver (machine.arrival ⟨.set, id, key⟩) env machine :=
  rfl

/-! A proxy is asked for a trap first. Without it the target takes over. -/

theorem proxyGet_bind (target handler : Value) (key : PropertyKey) (receiver : Value) :
    ∃ go : Option Value -> Exec σ Value,
      proxyGet target handler key receiver = trap? handler "get" >>= go ∧
        go none = (do perform (.get (<- targetObject target) key receiver)) :=
  ⟨_, rfl, rfl⟩

theorem proxyHas_bind (target handler : Value) (key : PropertyKey) :
    ∃ go : Option Value -> Exec σ Bool,
      proxyHas target handler key = trap? handler "has" >>= go ∧
        go none = (do perform (.has (<- targetObject target) key)) :=
  ⟨_, rfl, rfl⟩

theorem proxySet_bind (target handler : Value) (key : PropertyKey) (value receiver : Value) :
    ∃ go : Option Value -> Exec σ Bool,
      proxySet target handler key value receiver = trap? handler "set" >>= go ∧
        go none = (do perform (.set (<- targetObject target) key value receiver)) :=
  ⟨_, rfl, rfl⟩

/-! ## Reading and looking -/

/-- The value of a property that calls for no function. -/
theorem terminates_propertyValue
    (reads : purpose = .get ∨ purpose = .trap)
    {property : Property}
    (spares : purpose.Spares property.slot)
    (receiver : Value) :
    (propertyValue property receiver).Terminates machine
      (machine.Answered purpose.Finds) := by
  obtain ⟨slot, enumerable, configurable⟩ := property
  cases slot with
  | data value writable =>
      refine .of_forall (.answer ?_) fun _ => rfl
      rintro rfl
      exact spares
  | accessor getter setter =>
      have idle : getter.isCallable = false := by
        rcases reads with rfl | rfl <;> exact spares
      have undefined : purpose.Finds .undefined := fun _ => rfl
      refine .of_forall (.answer undefined) fun fuel => ?_
      unfold propertyValue
      dsimp only
      rw [idle]
      rfl

theorem walks_getWithReceiver
    (machine : Machine σ)
    (reads : purpose = .get ∨ purpose = .trap)
    (key : PropertyKey)
    (receiver : Value) :
    Walks machine purpose key (fun id => getWithReceiver id key receiver)
      (machine.Answered purpose.Finds) := by
  have trapName : purpose.trapName = "get" := by
    rcases reads with rfl | rfl <;> rfl
  have walked : ∀ (id : ObjectId) (env : Env σ), getWithReceiver id key receiver env machine =
      readArrival key receiver (machine.arrival ⟨purpose, id, key⟩) env machine := by
    intro id env
    rcases reads with rfl | rfl <;> rfl
  refine ⟨fun id passive bare => ?_, fun {id target handler next} arrives named => ?_,
    .chainOverflow⟩
  · cases arrives : machine.arrival ⟨purpose, id, key⟩ with
    | found property =>
        refine (terminates_propertyValue reads (passive property arrives) receiver).congr
          fun env => ?_
        rw [walked, arrives]
        rfl
    | atProxy target handler => exact absurd arrives (bare target handler)
    | absent => exact .of_forall (.answer fun _ => rfl) fun _ => by rw [walked, arrives]; rfl
    | tooLong => exact .of_forall .chainOverflow fun _ => by rw [walked, arrives]; rfl
  · obtain ⟨go, asks, untrapped⟩ := proxyGet_bind target handler key receiver
    refine ⟨go, fun env => ?_, fun ends => ?_⟩
    · rw [walked, arrives, trapName]
      exact congrFun (congrFun asks env) machine
    · rw [untrapped]
      exact (Terminates.perform (.get next key receiver) ends).congr fun env =>
        targetObject_bind named _

theorem walks_hasProperty (machine : Machine σ) (key : PropertyKey) :
    Walks machine .has key (fun id => hasProperty id key) (machine.Answered fun _ => True) := by
  have walked : ∀ (id : ObjectId) (env : Env σ), hasProperty id key env machine =
      hasArrival key (machine.arrival ⟨.has, id, key⟩) env machine := fun _ _ => rfl
  refine ⟨fun id passive bare => ?_, fun {id target handler next} arrives named => ?_,
    .chainOverflow⟩
  · cases arrives : machine.arrival ⟨.has, id, key⟩ with
    | found property => exact .of_forall (.answer trivial) fun _ => by rw [walked, arrives]; rfl
    | atProxy target handler => exact absurd arrives (bare target handler)
    | absent => exact .of_forall (.answer trivial) fun _ => by rw [walked, arrives]; rfl
    | tooLong => exact .of_forall .chainOverflow fun _ => by rw [walked, arrives]; rfl
  · obtain ⟨go, asks, untrapped⟩ := proxyHas_bind target handler key
    refine ⟨go, fun env => ?_, fun ends => ?_⟩
    · rw [walked, arrives]
      exact congrFun (congrFun asks env) machine
    · rw [untrapped]
      exact (Terminates.perform (.has next key) ends).congr fun env =>
        targetObject_bind named _

/-- The walk of an assignment that arrives at no proxy and calls no setter ends with the
receiver, or changes nothing. -/
theorem setWithReceiver_cases
    (passive : machine.Passive ⟨.set, id, key⟩)
    (bare : ∀ target handler, machine.arrival ⟨.set, id, key⟩ ≠ .atProxy target handler)
    (value receiver : Value) :
    (∀ env, setWithReceiver id key value receiver env machine =
      assignOwn receiver key value env machine) ∨
      (∀ env, setWithReceiver id key value receiver env machine = .ok false machine) ∨
      ∀ env, setWithReceiver id key value receiver env machine =
        .error (.thrown .chainOverflow) machine := by
  have walked := fun env => setWithReceiver_eq id key value receiver env machine
  cases arrives : machine.arrival ⟨.set, id, key⟩ with
  | atProxy target handler => exact absurd arrives (bare target handler)
  | tooLong => exact .inr (.inr fun env => by rw [walked, arrives]; rfl)
  | absent => exact .inl fun env => by rw [walked, arrives]; rfl
  | found property =>
      have spares := passive property arrives
      obtain ⟨slot, enumerable, configurable⟩ := property
      cases slot with
      | data held writable =>
          cases writable with
          | true => exact .inl fun env => by rw [walked, arrives]; rfl
          | false => exact .inr (.inl fun env => by rw [walked, arrives]; rfl)
      | accessor getter setter =>
          have idle : setter.isCallable = false := spares
          refine .inr (.inl fun env => ?_)
          rw [walked, arrives]
          unfold setArrival
          dsimp only
          rw [idle]
          rfl

theorem walks_setWithReceiver
    {good : EStateM.Result (Stop σ) (Machine σ) Bool -> Prop}
    (key : PropertyKey)
    (value receiver : Value)
    (assigns : (assignOwn receiver key value).Terminates machine good)
    (refuses : good (.ok false machine))
    (chainOverflow : good (.error (.thrown .chainOverflow) machine)) :
    Walks machine .set key (fun id => setWithReceiver id key value receiver) good := by
  refine ⟨fun id passive bare => ?_, fun {id target handler next} arrives named => ?_,
    chainOverflow⟩
  · rcases setWithReceiver_cases passive bare value receiver with assigned | refused | stopped
    · exact assigns.congr assigned
    · exact .of_forall refuses fun _ => refused _
    · exact .of_forall chainOverflow fun _ => stopped _
  · obtain ⟨go, asks, untrapped⟩ := proxySet_bind target handler key value receiver
    refine ⟨go, fun env => ?_, fun ends => ?_⟩
    · rw [setWithReceiver_eq, arrives]
      exact congrFun (congrFun asks env) machine
    · rw [untrapped]
      exact (Terminates.perform (.set next key value receiver) ends).congr fun env =>
        targetObject_bind named _

end Exec

/-! ## Assignments -/

namespace Machine

variable {machine : Machine σ} {id : ObjectId} {receiver : Value}

theorem setElement_cases (machine : Machine σ) (id : ObjectId) (index : Nat) (value : Value) :
    (∃ done after, machine.setElement id index value = (.ok done, after)) ∨
      machine.setElement id index value = (.error invalidLength, machine) ∧
        maxArrayLength <= index := by
  unfold setElement
  split
  · exact .inl ⟨_, _, rfl⟩
  · exact .inl ⟨_, _, rfl⟩
  · split
    · exact .inl ⟨_, _, rfl⟩
    · split
      · exact .inl ⟨_, _, rfl⟩
      · split
        · next beyond => exact .inr ⟨rfl, beyond⟩
        · exact .inl ⟨_, _, rfl⟩

theorem isProxy_of_array {state : Nat × Bool} (array : machine.arrayStatus? id = some state) :
    machine.isProxy id = false := by
  obtain ⟨store, present⟩ := exists_store_of_array array
  unfold isProxy
  rw [present]
  rfl

theorem isArray_of_behind
    {behind : ObjectId}
    {state : Nat × Bool}
    (named : receiver.objectId? = some id)
    (found : machine.behindProxies? id = some behind)
    (array : machine.arrayStatus? behind = some state) :
    machine.isArray receiver = true := by
  obtain ⟨store, present⟩ := exists_store_of_array array
  unfold isArray
  rw [named, Option.bind_some, found, Option.bind_some, present]

end Machine

namespace Exec

variable {machine : Machine σ} {key : PropertyKey} {id : ObjectId} {value receiver : Value}
variable {index : Nat}

theorem terminates_setElement
    (indexed : key.arrayIndex? = some index)
    (array : machine.isArray receiver = true)
    (id : ObjectId)
    (element : Value) :
    (changeOrRaise fun machine => machine.setElement id index element).Terminates machine
      (machine.Assigned key value receiver) := by
  refine .changeOrRaise (fun done after _ => .answer done after) fun exception after outcome => ?_
  rcases Machine.setElement_cases machine id index element with ⟨_, _, set⟩ | ⟨refused, beyond⟩
  · cases set.symm.trans outcome
  · cases refused.symm.trans outcome
    exact .beyondBound array indexed beyond

/-- A value that is no object is converted without a call. -/
theorem toNumber_of_plain (plain : value.isObject = false) :
    (toNumber value : Exec σ Float) = ofExcept value.primitiveNumber := by
  unfold toNumber toPrimitive
  rw [plain]
  rfl

/-- The length of an array is set, or the value is no length. -/
theorem terminates_setArrayLength
    (plain : value.isObject = false)
    (length : key = Machine.lengthKey)
    (array : machine.isArray receiver = true)
    (id : ObjectId) :
    (setArrayLength id value).Terminates machine (machine.Assigned key value receiver) := by
  cases converted : value.primitiveNumber with
  | ok number =>
      have resized : (setArrayLength id value : Exec σ Bool) = (do
          if Float.ofNat (Number.toWord number) != number ||
              Machine.maxArrayLength < Number.toWord number then
            raise Machine.invalidLength
          else change fun machine => machine.setLength id (Number.toWord number)) := by
        unfold setArrayLength toWord
        rw [toNumber_of_plain plain, converted]
        rfl
      rw [resized]
      split
      · next refused =>
          refine .of_forall (.noLength array length converted fun fits => ?_) fun _ => rfl
          simp [fits.1, Nat.not_lt_of_le fits.2] at refused
      · exact .change (.answer _ _)
  | error exception =>
      have refused : (setArrayLength id value : Exec σ Bool) = raise exception := by
        unfold setArrayLength
        rw [toNumber_of_plain plain, converted]
        rfl
      rw [refused]
      refine .of_forall ?_ fun _ => rfl
      cases value with
      | symbol symbol =>
          cases converted
          exact .noNumber array length rfl
      | object | function => cases plain
      | _ => cases converted

section Behind

variable {behind : ObjectId} (found : machine.behindProxies? id = some behind) {size index : Nat}
include found

/-- An array that is not frozen takes the definition of an element. -/
theorem defineOwnProperty_of_element
    (array : machine.arrayStatus? behind = some (size, false))
    (indexed : key.arrayIndex? = some index)
    (descriptor : Descriptor)
    (env : Env σ) :
    defineOwnProperty id key descriptor env machine =
      defineElement behind index descriptor env machine := by
  unfold defineOwnProperty
  rw [ask_bind, found]
  dsimp only
  rw [ask_bind, array, indexed]

/-- A frozen array takes no definition of an element. -/
theorem defineOwnProperty_of_frozen
    (array : machine.arrayStatus? behind = some (size, true))
    (indexed : key.arrayIndex? = some index)
    (descriptor : Descriptor)
    (env : Env σ) :
    defineOwnProperty id key descriptor env machine = .ok false machine := by
  unfold defineOwnProperty
  rw [ask_bind, found]
  dsimp only
  rw [ask_bind, array, indexed]
  rfl

/-- Everything but the elements and the length of an array is defined in the table. -/
theorem defineOwnProperty_of_table
    (apart : (machine.arrayStatus? behind).isSome = true ->
      key.arrayIndex? = none ∧ (key == Machine.lengthKey) = false)
    (descriptor : Descriptor)
    (env : Env σ) :
    defineOwnProperty id key descriptor env machine =
      change (fun machine => machine.defineOrdinary behind key descriptor) env machine := by
  unfold defineOwnProperty
  rw [ask_bind, found]
  dsimp only
  rw [ask_bind]
  cases status : machine.arrayStatus? behind with
  | none => rfl
  | some state =>
      rw [status] at apart
      obtain ⟨unindexed, other⟩ := apart rfl
      obtain ⟨size, frozen⟩ := state
      rw [unindexed, other]
      cases frozen <;> rfl

/-- A new element of an array is set. -/
theorem createDataProperty_of_element
    (array : machine.arrayStatus? behind = some (size, false))
    (indexed : key.arrayIndex? = some index)
    (value : Value)
    (env : Env σ) :
    createDataProperty id key value env machine =
      changeOrRaise (fun machine => machine.setElement behind index value) env machine :=
  defineOwnProperty_of_element found array indexed (.plain value) env

end Behind

theorem terminates_createDataProperty
    (named : receiver.objectId? = some id)
    (missing : machine.getOwnProperty? id key = none)
    (value : Value) :
    (createDataProperty id key value).Terminates machine
      (machine.Assigned key value receiver) := by
  cases found : machine.behindProxies? id with
  | none =>
      refine .of_forall (.answer false machine) fun _ => ?_
      unfold createDataProperty defineOwnProperty
      rw [ask_bind, found]
      rfl
  | some behind =>
      by_cases apart : (machine.arrayStatus? behind).isSome = true ->
          key.arrayIndex? = none ∧ (key == Machine.lengthKey) = false
      · have defined : (change fun machine => machine.defineOrdinary behind key (.plain value) :
            Exec σ Bool).Terminates machine (machine.Assigned key value receiver) :=
          .change (.answer _ _)
        exact defined.congr (defineOwnProperty_of_table found apart (.plain value))
      · obtain ⟨status, near⟩ := Classical.not_imp.1 apart
        obtain ⟨⟨size, frozen⟩, array⟩ := Option.isSome_iff_exists.1 status
        cases indexed : key.arrayIndex? with
        | none =>
            have absent : machine.ordinaryOwnProperty? behind key = none := by
              unfold Machine.getOwnProperty? at missing
              rwa [found] at missing
            have other := Machine.ne_lengthKey_of_missing array indexed absent
            exact absurd ⟨indexed, Bool.eq_false_iff.2 other⟩ near
        | some index =>
            cases frozen with
            | true =>
                exact .of_forall (.answer false machine) fun _ =>
                  defineOwnProperty_of_frozen found array indexed (.plain value) _
            | false =>
                exact (terminates_setElement indexed
                  (Machine.isArray_of_behind named found array) behind value).congr
                  (createDataProperty_of_element found array indexed value)

/-- What overwriting does to the table of an object. -/
def overwrite (id : ObjectId) (key : PropertyKey) (value : Value) (machine : Machine σ) :
    Bool × Machine σ :=
  match machine.heap.getOwn? id key with
  | none => (false, machine)
  | some existing =>
      (true, machine.defineRaw id key
        (.ofData value true existing.enumerable existing.configurable))

/-- The element of an array is overwritten. -/
theorem writeOwnValue_of_element
    {state : Nat × Bool}
    (array : machine.arrayStatus? id = some state)
    (indexed : key.arrayIndex? = some index)
    (value : Value)
    (env : Env σ) :
    writeOwnValue id key value env machine =
      changeOrRaise (fun machine => machine.setElement id index value) env machine := by
  unfold writeOwnValue
  rw [ask_bind, array, indexed]

/-- The length of an array is overwritten. -/
theorem writeOwnValue_of_length
    (array : (machine.arrayStatus? id).isSome = true)
    (value : Value)
    (env : Env σ) :
    writeOwnValue id Machine.lengthKey value env machine =
      setArrayLength id value env machine := by
  obtain ⟨state, status⟩ := Option.isSome_iff_exists.1 array
  unfold writeOwnValue
  rw [ask_bind, status]
  rfl

/-- Everything else is overwritten in the table. -/
theorem writeOwnValue_of_table
    (apart : (machine.arrayStatus? id).isSome = true ->
      key.arrayIndex? = none ∧ (key == Machine.lengthKey) = false)
    (value : Value)
    (env : Env σ) :
    writeOwnValue id key value env machine = change (overwrite id key value) env machine := by
  unfold writeOwnValue
  rw [ask_bind]
  cases status : machine.arrayStatus? id with
  | none => rfl
  | some state =>
      rw [status] at apart
      obtain ⟨unindexed, other⟩ := apart rfl
      rw [unindexed, other]
      rfl

section

variable (named : receiver.objectId? = some id)
include named

theorem terminates_writeOwnValue
    (plain : ¬ machine.Converts key value receiver) :
    (writeOwnValue id key value).Terminates machine (machine.Assigned key value receiver) := by
  by_cases apart : (machine.arrayStatus? id).isSome = true ->
      key.arrayIndex? = none ∧ (key == Machine.lengthKey) = false
  · have overwritten : (change (overwrite id key value)).Terminates machine
        (machine.Assigned key value receiver) := .change (.answer _ _)
    exact overwritten.congr (writeOwnValue_of_table apart value)
  · obtain ⟨status, near⟩ := Classical.not_imp.1 apart
    obtain ⟨state, held⟩ := Option.isSome_iff_exists.1 status
    have bare := Machine.isProxy_of_array held
    have array := Machine.isArray_of_behind named (Machine.behindProxies?_of_bare bare) held
    cases indexed : key.arrayIndex? with
    | some index =>
        exact (terminates_setElement indexed array id value).congr
          (writeOwnValue_of_element held indexed value)
    | none =>
        have length : key = Machine.lengthKey :=
          eq_of_beq (Bool.eq_true_of_not_eq_false fun other => near ⟨indexed, other⟩)
        have simple : value.isObject = false :=
          Bool.eq_false_iff.2 fun object => plain ⟨length, object, id, named, status⟩
        subst length
        exact (terminates_setArrayLength simple rfl array id).congr
          (writeOwnValue_of_length status value)

theorem assignOwn_of_missing
    (missing : machine.getOwnProperty? id key = none)
    (value : Value)
    (env : Env σ) :
    assignOwn receiver key value env machine = createDataProperty id key value env machine := by
  unfold assignOwn
  rw [named]
  dsimp only
  rw [ask_bind, missing]

theorem assignOwn_of_present
    {property : Property}
    (present : machine.getOwnProperty? id key = some property)
    (value : Value)
    (env : Env σ) :
    assignOwn receiver key value env machine =
      (if property.isWritable then writeOwnValue id key value else return false : Exec σ Bool)
        env machine := by
  unfold assignOwn
  rw [named]
  dsimp only
  rw [ask_bind, present]

end

theorem terminates_assignOwn (plain : ¬ machine.Converts key value receiver) :
    (assignOwn receiver key value).Terminates machine (machine.Assigned key value receiver) := by
  cases named : receiver.objectId? with
  | none =>
      refine .of_forall (.answer false machine) fun _ => ?_
      unfold assignOwn
      rw [named]
      rfl
  | some id =>
      cases own : machine.getOwnProperty? id key with
      | none =>
          exact (terminates_createDataProperty named own value).congr
            (assignOwn_of_missing named own value)
      | some property =>
          cases writable : property.isWritable with
          | true =>
              refine (terminates_writeOwnValue named plain).congr fun env => ?_
              rw [assignOwn_of_present named own, writable, if_pos rfl]
          | false =>
              refine .of_forall (.answer false machine) fun fuel => ?_
              rw [assignOwn_of_present named own, writable]
              rfl

end Exec
end ScriptVM

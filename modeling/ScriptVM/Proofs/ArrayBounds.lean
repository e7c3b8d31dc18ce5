import ScriptVM.Proofs.ClosedObjects
import ScriptVM.Proofs.Doubles
import ScriptVM.Proofs.FirstCalls
import ScriptVM.Proofs.StoredProperties
import ScriptVM.Proofs.Trails

/-!
# Bounds of arrays

Writing an element, setting the length and constructing with a number keep the elements of an
array within a bound, or throw. An append asks for no bound. So an array is within it until an
append takes it one beyond, or until one is made beyond it in the first place.
-/

namespace ScriptVM

variable {σ : Type} {store : ArrayStore}

namespace Machine

variable {before after : Machine σ} {id : ObjectId} {store : ArrayStore}

/-! ## How arrays leave the bound -/

/-- An array goes beyond the bound: it takes one element more than it may have, or it is made
with more. -/
inductive Overfills (id : ObjectId) (before after : Machine σ) : Prop
  | appended {full more : ArrayStore} :
      before.kind? id = some (.array full) -> full.elements.size = maxArrayLength ->
      after.kind? id = some (.array more) -> more.elements.size = maxArrayLength + 1 ->
      Overfills id before after
  | made {more : ArrayStore} :
      before.heap.get? id = none -> after.kind? id = some (.array more) ->
      maxArrayLength < more.elements.size -> Overfills id before after

/-- What holds an array beyond the bound after one change held it before, or the change took the
array there. -/
theorem overfills_of_slot
    {allowed : PropertyKey -> Prop}
    {free : Prop}
    (change : SlotChange allowed free (before.heap.get? id) (after.heap.get? id))
    (array : after.kind? id = some (.array store))
    (beyond : maxArrayLength < store.elements.size) :
    Overfills id before after ∨
      ∃ earlier, before.kind? id = some (.array earlier) ∧
        maxArrayLength < earlier.elements.size := by
  have kept {first second : HeapObject ObjectKind}
      (old : before.heap.get? id = some first)
      (new : after.heap.get? id = some second)
      (payload : second.payload = first.payload) :
      ∃ earlier, before.kind? id = some (.array earlier) ∧
        maxArrayLength < earlier.elements.size := by
    refine ⟨store, ?_, beyond⟩
    rw [kind?_of_live old, ← payload, ← kind?_of_live new]
    exact array
  generalize old : before.heap.get? id = first at change
  generalize new : after.heap.get? id = second at change
  cases change with
  | same =>
      refine .inr ⟨store, ?_, beyond⟩
      unfold kind? Heap.payload? at array ⊢
      rwa [old, ← new]
  | freed =>
      unfold kind? Heap.payload? at array
      rw [new] at array
      cases array
  | made => exact .inl (.made old array beyond)
  | rewritten _ _ payload => exact .inr (kept old new payload)
  | added _ _ _ payload => exact .inr (kept old new payload)
  | removed _ _ payload => exact .inr (kept old new payload)
  | evolved object payload evolves =>
      have stored := (kind?_of_live new).symm.trans array
      obtain rfl : payload = .array store := Option.some.inj stored
      have held := kind?_of_live old
      generalize object.payload = earlier at evolves held
      cases evolves with
      | same => exact .inr ⟨store, held, beyond⟩
      | array full _ grows =>
          rcases Nat.lt_trichotomy full.elements.size maxArrayLength with short | exact | long
          · unfold ArrayStore.Grows at grows
            omega
          · refine .inl (.appended held exact array ?_)
            unfold ArrayStore.Grows at grows
            omega
          · exact .inr ⟨full, held, long⟩

end Machine

/-- An array is beyond the bound because some change on the way took it there. -/
theorem Stage.Trail.overfills
    {stage : Stage σ}
    {machines : List (Machine σ)}
    (trail : stage.Trail machines)
    {id : ObjectId}
    (array : stage.machine.kind? id = some (.array store))
    (beyond : Machine.maxArrayLength < store.elements.size) :
    ∃ before after, [after, before] <:+: machines ∧ Machine.Overfills id before after := by
  induction trail generalizing store with
  | start =>
      rw [show (blank _ _ _ : Stage σ).machine.kind? id = none from rfl] at array
      cases array
  | @step before after machines trail transition earlier =>
      rcases Machine.overfills_of_slot (transition.slot trail.tidy id) array beyond with
        overfills | ⟨old, held, long⟩
      · obtain ⟨rest, rfl⟩ := trail.exists_cons
        exact ⟨_, _, ⟨[], rest, rfl⟩, overfills⟩
      · obtain ⟨first, second, near, overfills⟩ := earlier held long
        exact ⟨first, second, near.trans (List.suffix_cons _ _).isInfix, overfills⟩

/-! ## What writes, lengths and constructions refuse -/

namespace Machine

variable {machine : Machine σ} {id : ObjectId}

/-- An array takes no element that would bring it beyond the bound. -/
theorem setElement_of_beyond
    {size index : Nat}
    (status : machine.arrayStatus? id = some (size, false))
    (extensible : machine.heap.isExtensible id = true)
    (missing : size <= index)
    (beyond : maxArrayLength <= index)
    (value : Value) :
    machine.setElement id index value = (.error invalidLength, machine) := by
  unfold setElement
  rw [status]
  dsimp only
  rw [if_neg (Nat.not_lt.2 missing), extensible, if_neg (by decide), if_pos beyond]

/-- The numbers of elements up to the bound are lengths. -/
theorem isLength_ofNat {size : Nat} (within : size <= maxArrayLength) :
    IsLength (Float.ofNat size) := by
  have small : size < 2 ^ 32 := Nat.lt_of_le_of_lt within (by decide)
  unfold IsLength
  rw [Number.toWord_ofNat small]
  refine ⟨?_, within⟩
  unfold bne
  rw [Number.ofNat_beq_self (by omega)]
  rfl

/-- Any other number of elements that fits into a word is none. -/
theorem not_isLength_ofNat
    {size : Nat}
    (small : size < 2 ^ 32)
    (beyond : maxArrayLength < size) :
    ¬ IsLength (Float.ofNat size) := by
  intro length
  have within := length.2
  rw [Number.toWord_ofNat small] at within
  omega

/-- An array that takes a length has it. -/
theorem exists_store_of_setLength
    {after : Machine σ}
    {length : Nat}
    (set : machine.setLength id length = (true, after)) :
    ∃ store, after.kind? id = some (.array store) ∧ store.elements.size = length := by
  unfold setLength at set
  split at set
  · cases set
  · cases set
  · next size status =>
      obtain ⟨store, present⟩ := exists_store_of_array status
      obtain ⟨object, live, array⟩ := Option.map_eq_some_iff.1 present
      cases set
      exact ⟨_, kind?_modifyElements live array _, size_resizeElements length _⟩

/-- The length that an array shows is the number of its elements. -/
theorem getOwnProperty?_length
    {store : ArrayStore}
    (array : machine.kind? id = some (.array store))
    (loose : store.frozen = false) :
    machine.getOwnProperty? id lengthKey =
      some (.ofData (.ofNat store.elements.size) true false false) := by
  have bare : machine.isProxy id = false := by
    unfold isProxy
    rw [array]
    rfl
  rw [getOwnProperty?_of_behind (behindProxies?_of_bare bare), ordinaryOwnProperty?_of_length array,
    loose]
  rfl

theorem resizeElements_size (elements : Array Value) :
    resizeElements elements.size elements = elements := by
  unfold resizeElements
  rw [if_pos (Nat.le_refl _)]
  simp

end Machine

namespace Exec

variable {env : Env σ} {machine : Machine σ} {id holder : ObjectId} {key : PropertyKey}

section Elements

variable {index : Nat}

variable {store : ArrayStore}
  (unwatched : ∀ seen, env.watch seen = false)
  (behind : machine.behindProxies? holder = some id)
  (array : machine.kind? id = some (.array store))
  (loose : store.frozen = false)

include unwatched behind array loose

theorem createDataProperty_of_beyond
    (extensible : machine.isExtensible holder = true)
    (indexed : key.arrayIndex? = some index)
    (missing : store.elements.size <= index)
    (beyond : Machine.maxArrayLength <= index)
    (value : Value) :
    createDataProperty holder key value env machine =
      .error (.thrown Machine.invalidLength) machine := by
  have status : machine.arrayStatus? id = some (store.elements.size, false) := by
    unfold Machine.arrayStatus?
    rw [array, ← loose]
  rw [Machine.isExtensible_of_behind behind] at extensible
  rw [createDataProperty_of_element behind status indexed, changeOrRaise_of_unwatched unwatched,
    Machine.setElement_of_beyond status extensible missing beyond]
  rfl

/-- An assignment beyond the end is one to a property that is missing. -/
theorem assignOwn_of_beyond
    (extensible : machine.isExtensible holder = true)
    (indexed : key.arrayIndex? = some index)
    (missing : store.elements.size <= index)
    (beyond : Machine.maxArrayLength <= index)
    {receiver : Value}
    (named : receiver.objectId? = some holder)
    (value : Value) :
    assignOwn receiver key value env machine = .error (.thrown Machine.invalidLength) machine := by
  have absent : machine.getOwnProperty? holder key = none := by
    rw [Machine.getOwnProperty?_of_behind behind,
      Machine.ordinaryOwnProperty?_of_index array indexed, ArrayStore.own?_of_size_le missing]
    rfl
  rw [assignOwn_of_missing named absent]
  exact createDataProperty_of_beyond unwatched behind array loose extensible indexed missing beyond
    value

end Elements

/-- The length of an array may be set to a length within the bound only. -/
theorem setArrayLength_number
    (unwatched : ∀ seen, env.watch seen = false)
    {size : Nat}
    (status : machine.arrayStatus? id = some (size, false))
    (number : Float) :
    (Machine.IsLength number -> setArrayLength id (.number number) env machine =
      .ok true (machine.modifyElements id (Machine.resizeElements (Number.toWord number)))) ∧
    (¬ Machine.IsLength number -> setArrayLength id (.number number) env machine =
      .error (.thrown Machine.invalidLength) machine) := by
  have resized : (setArrayLength id (.number number) : Exec σ Bool) =
      (if Float.ofNat (Number.toWord number) != number ||
          Machine.maxArrayLength < Number.toWord number then raise Machine.invalidLength
        else change fun machine => machine.setLength id (Number.toWord number)) := rfl
  rw [resized]
  refine ⟨fun length => ?_, fun other => ?_⟩
  · rw [if_neg (by simp [length.1, length.2]), change_of_unwatched unwatched]
    unfold Machine.setLength
    rw [status]
  · rw [if_pos ?_]
    · rfl
    · by_contra fits
      rw [Bool.or_eq_true, not_or] at fits
      exact other ⟨Bool.eq_false_iff.2 fits.1, by simpa using fits.2⟩

/-- An array within the bound takes its own length, and any other does not. -/
theorem assignOwn_own_length
    {store : ArrayStore}
    (unwatched : ∀ seen, env.watch seen = false)
    (array : machine.kind? id = some (.array store))
    (loose : store.frozen = false) :
    (store.elements.size <= Machine.maxArrayLength -> ∃ after,
      assignOwn (.object id) Machine.lengthKey (.ofNat store.elements.size) env machine =
        .ok true after ∧
      after.kind? id = some (.array store)) ∧
    (Machine.maxArrayLength < store.elements.size -> store.elements.size < 2 ^ 32 ->
      assignOwn (.object id) Machine.lengthKey (.ofNat store.elements.size) env machine =
        .error (.thrown Machine.invalidLength) machine) := by
  obtain ⟨object, live, payload⟩ := Option.map_eq_some_iff.1 array
  have status : machine.arrayStatus? id = some (store.elements.size, false) := by
    rw [Machine.arrayStatus?_of_live live payload, loose]
  have assigned : assignOwn (.object id) Machine.lengthKey (.ofNat store.elements.size) env machine =
      setArrayLength id (.number (Float.ofNat store.elements.size)) env machine :=
    (assignOwn_of_present rfl (Machine.getOwnProperty?_length array loose) _ env).trans
      (writeOwnValue_of_length (by rw [status]; rfl) _ env)
  have set := setArrayLength_number unwatched status (Float.ofNat store.elements.size)
  rw [assigned]
  refine ⟨fun within => ?_, fun beyond small => set.2 (Machine.not_isLength_ofNat small beyond)⟩
  refine ⟨_, set.1 (Machine.isLength_ofNat within), ?_⟩
  rw [Number.toWord_ofNat (Nat.lt_of_le_of_lt within (by decide)),
    Machine.kind?_modifyElements live payload, Machine.resizeElements_size]

/-- Whatever is converted to a length, an array that takes it is within the bound. -/
theorem size_le_of_setArrayLength
    {value : Value}
    {after : Machine σ}
    (taken : setArrayLength id value env machine = .ok true after) :
    ∃ store, after.kind? id = some (.array store) ∧
      store.elements.size <= Machine.maxArrayLength := by
  unfold setArrayLength at taken
  cases first : toNumber value env machine with
  | error stop _ => rw [bind_of_error _ first] at taken; cases taken
  | ok number middle =>
      rw [bind_of_ok _ first] at taken
      cases second : toWord value env middle with
      | error stop _ => rw [bind_of_error _ second] at taken; cases taken
      | ok length later =>
          rw [bind_of_ok _ second] at taken
          split at taken
          · cases taken
          · next fits =>
              rw [Bool.or_eq_true, not_or, decide_eq_true_iff] at fits
              obtain ⟨store, array, sized⟩ := Machine.exists_store_of_setLength (eq_of_change taken)
              exact ⟨store, array, by omega⟩

end Exec

namespace Builtins

/-- A new array gets no more elements than it may have from a number. -/
theorem initialElements_number (number : Float) :
    initialElements [.number number] = .error Machine.invalidLength ∨
      ∃ elements, initialElements [.number number] = .ok elements ∧
        elements.size <= Machine.maxArrayLength := by
  unfold initialElements
  dsimp only
  split
  · next fits =>
      refine .inr ⟨_, rfl, ?_⟩
      rw [Bool.and_eq_true, Bool.and_eq_true, decide_eq_true_iff, decide_eq_true_iff] at fits
      have bounded : Number.truncate number <= Machine.maxArrayLength :=
        Number.truncate_le_of_le_ofNat (by decide) fits.1.1 fits.1.2
      rw [Array.size_replicate]
      omega
  · exact .inl rfl

end Builtins

/-- Arrays stay within their bound until one goes beyond it by an append or by how it is made: in
all that an embedder can come across, an array that holds more elements than it may was taken
there by one change on the way. Definitions and assignments of elements beyond the bound throw and
change nothing, whatever proxies they go through, and so does a length that is none within the
bound. No length that is taken is beyond it, and neither is an array that is constructed with a
number. So an array within the bound that is not frozen takes its own length again, as it is read
from it. -/
theorem array_stores_bounded
    {sight : Sight σ}
    (visible : sight.Visible)
    {id : ObjectId}
    {store : ArrayStore}
    (array : sight.machine.kind? id = some (.array store)) :
    ((∃ machines, sight.machine.Trail machines) ∧
      ∀ machines, sight.machine.Trail machines -> Machine.maxArrayLength < store.elements.size ->
        ∃ before after, [after, before] <:+: machines ∧ Machine.Overfills id before after) ∧
    (∀ {holder : ObjectId} {key : PropertyKey} {index : Nat},
      sight.machine.behindProxies? holder = some id -> store.frozen = false ->
      sight.machine.isExtensible holder = true -> key.arrayIndex? = some index ->
      store.elements.size <= index -> Machine.maxArrayLength <= index ->
      ∀ (value : Value) (fuel : Nat),
        let refused : EStateM.Result (Stop σ) (Machine σ) Bool :=
          .error (.thrown Machine.invalidLength) sight.machine
        Exec.createDataProperty holder key value (Env.ofFuel fuel) sight.machine = refused ∧
          ∀ receiver : Value, receiver.objectId? = some holder ->
            Exec.assignOwn receiver key value (Env.ofFuel fuel) sight.machine = refused) ∧
    (∀ (value : Value) (fuel : Nat),
      (∀ number, value = .number number -> store.frozen = false -> ¬ Machine.IsLength number ->
        Exec.setArrayLength id value (Env.ofFuel fuel) sight.machine =
          .error (.thrown Machine.invalidLength) sight.machine) ∧
      ∀ after, Exec.setArrayLength id value (Env.ofFuel fuel) sight.machine = .ok true after ->
        ∃ store, after.kind? id = some (.array store) ∧
          store.elements.size <= Machine.maxArrayLength) ∧
    (∀ number : Float, Builtins.initialElements [.number number] = .error Machine.invalidLength ∨
      ∃ elements, Builtins.initialElements [.number number] = .ok elements ∧
        elements.size <= Machine.maxArrayLength) ∧
    (store.frozen = false -> store.elements.size <= Machine.maxArrayLength ->
      let length := Value.ofNat store.elements.size
      sight.machine.getOwnProperty? id Machine.lengthKey =
          some (.ofData length true false false) ∧
        ∀ fuel, ∃ after,
          Exec.assignOwn (.object id) Machine.lengthKey length (Env.ofFuel fuel) sight.machine =
            .ok true after ∧
          after.kind? id = some (.array store)) := by
  have unwatched (fuel : Nat) (seen : Sight σ) : (Env.ofFuel fuel).watch seen = false := rfl
  refine ⟨⟨visible.reached.2.exists_trail, ?_⟩, ?_, ?_, Builtins.initialElements_number, ?_⟩
  · rintro machines ⟨origins, trail⟩ beyond
    exact trail.overfills array beyond
  · intro holder key index behind loose extensible indexed missing beyond value fuel
    exact ⟨Exec.createDataProperty_of_beyond (unwatched fuel) behind array loose extensible
        indexed missing beyond value,
      fun receiver named => Exec.assignOwn_of_beyond (unwatched fuel) behind array loose
        extensible indexed missing beyond named value⟩
  · intro value fuel
    refine ⟨?_, fun after taken => Exec.size_le_of_setArrayLength taken⟩
    rintro number rfl loose other
    have status : sight.machine.arrayStatus? id = some (store.elements.size, false) := by
      unfold Machine.arrayStatus?
      rw [array, ← loose]
    exact (Exec.setArrayLength_number (unwatched fuel) status number).2 other
  · intro loose within
    exact ⟨Machine.getOwnProperty?_length array loose, fun fuel =>
      (Exec.assignOwn_own_length (unwatched fuel) array loose).1 within⟩

/-- An embedder makes an array. -/
def arrayProgram : HostProgram Unit :=
  .request (.createArray []) fun array => .finish (.ok array)

/-- The object is the function that appends to arrays. -/
def Machine.isPush (machine : Machine σ) (id : ObjectId) : Bool :=
  match machine.kind? id with
  | some (.native native) => native.behavior == .builtin .arrayPush
  | _ => false

/-- The function that appends to arrays, as their prototype has it. -/
def Machine.push? (machine : Machine σ) : Option ObjectId :=
  ((machine.getOwnProperty? machine.intrinsics.arrayPrototype "push").bind Property.value?).bind
    Value.objectId?

/-- The new array of that embedder is empty, and there is room to push. -/
theorem exists_arrayProgram :
    ∃ (array push : ObjectId) (machine : Machine Unit) (store : ArrayStore),
      machine.Settled ∧ machine.kind? array = some (.array store) ∧
        store.elements.size = 0 ∧ store.frozen = false ∧
        machine.heap.isExtensible array = true ∧ machine.isPush push = true ∧
        1 <= machine.config.maxPrototypeChain ∧
        machine.nativeDepth < machine.config.maxNativeDepth := by
  have seen : ∃ ended ∈ Exec.ended? ((Builtins.newMachine {} ()).runWithin 0 arrayProgram),
      ∃ array ∈ ended.1.objectId?, ∃ push ∈ ended.2.push?,
        ended.2.arrayStatus? array = some (0, false) ∧
        ended.2.heap.isExtensible array = true ∧ ended.2.isPush push = true ∧
        1 <= ended.2.config.maxPrototypeChain ∧
        ended.2.nativeDepth < ended.2.config.maxNativeDepth := by
    decide +kernel
  obtain ⟨⟨_, machine⟩, ended, array, _, push, _, status, rest⟩ := seen
  obtain ⟨store, present⟩ := Machine.exists_store_of_array status
  unfold Machine.arrayStatus? at status
  rw [present] at status
  obtain ⟨size, loose⟩ := Prod.mk.inj (Option.some.inj status)
  exact ⟨array, push, machine, store, .returned (.new {} ()) (Exec.eq_of_ended? ended), present,
    size, loose, rest⟩

/-- The empty array refuses an element beyond the bound and a fraction for its length, and takes
its own length. -/
theorem array_stores_bounded_arrayProgram :
    ∃ (sight : Sight Unit) (array : ObjectId), sight.Visible ∧
      Exec.createDataProperty array "16777216" .null (Env.ofFuel 0) sight.machine =
        .error (.thrown Machine.invalidLength) sight.machine ∧
      Exec.setArrayLength array (.number 0.5) (Env.ofFuel 0) sight.machine =
        .error (.thrown Machine.invalidLength) sight.machine ∧
      ∃ after, Exec.assignOwn (.object array) Machine.lengthKey (.ofNat 0) (Env.ofFuel 0)
        sight.machine = .ok true after := by
  obtain ⟨array, push, machine, store, settled, present, size, loose, extensible, _⟩ :=
    exists_arrayProgram
  have visible : Sight.Visible { machine } := .between settled
  have bare : machine.behindProxies? array = some array := by
    refine Machine.behindProxies?_of_bare ?_
    unfold Machine.isProxy
    rw [present]
    rfl
  have indexed : (PropertyKey.string "16777216").arrayIndex? = some 16777216 := by
    decide +kernel
  have fraction : ¬ Machine.IsLength 0.5 := by
    unfold Machine.IsLength
    decide +kernel
  obtain ⟨_, elements, lengths, _, own⟩ := array_stores_bounded visible present
  obtain ⟨_, taken⟩ := own loose (size ▸ Nat.zero_le _)
  obtain ⟨after, taken, _⟩ := taken 0
  rw [size] at taken
  exact ⟨{ machine }, array, visible,
    (elements bare loose ((Machine.isExtensible_of_behind bare).trans extensible) indexed
      (size ▸ Nat.zero_le _) (Nat.le_refl _) .null 0).1,
    (lengths (.number 0.5) 0).1 _ rfl loose fraction, after, taken⟩

/-! ## Appending without a bound -/

/-- No array is that function. -/
theorem Machine.isPush_modifyElements
    {machine : Machine σ}
    {id : ObjectId}
    (array : machine.kind? id = some (.array store))
    (push : ObjectId)
    (change : Array Value -> Array Value) :
    (machine.modifyElements id change).isPush push = machine.isPush push := by
  obtain ⟨object, live, payload⟩ := Option.map_eq_some_iff.1 array
  unfold isPush
  by_cases same : id = push
  · subst same
    rw [array, kind?_modifyElements live payload]
  · rw [show (machine.modifyElements id change).kind? push = machine.kind? push from
      (Heap.payload?_modifyPayload _ id push _).trans (if_neg same)]

namespace Exec

variable {machine : Machine σ} {id push : ObjectId} {store : ArrayStore}

variable (array : machine.kind? id = some (.array store))
include array

/-- An append asks for nothing but an array that is not frozen. -/
theorem arrayPush_of_array
    (loose : store.frozen = false)
    (chain : 1 <= machine.config.maxPrototypeChain)
    (value : Value)
    (fuel : Nat) :
    ∃ after,
      Builtins.arrayPush (.object id) [value] (Env.ofFuel fuel) machine =
        .ok (.ofNat (store.elements.size + 1)) after ∧
      after.kind? id = some (.array { store with elements := store.elements.push value }) := by
  obtain ⟨object, live, payload⟩ := Option.map_eq_some_iff.1 array
  have status := Machine.arrayStatus?_of_live live payload
  have grown := Machine.kind?_modifyElements live payload fun elements => elements.push value
  have pushed : pushElement id value (Env.ofFuel fuel) machine =
      .ok () (machine.modifyElements id fun elements => elements.push value) := by
    unfold pushElement
    rw [changeOrRaise_of_unwatched fun _ => rfl]
    unfold Machine.pushElement
    rw [status, loose]
    rfl
  have same : (machine.modifyElements id fun elements => elements.push value).config =
      machine.config := rfl
  generalize (machine.modifyElements id fun elements => elements.push value) = after at *
  have bare : after.isProxy id = false := by
    unfold Machine.isProxy
    rw [grown]
    rfl
  have held := Machine.getOwnProperty?_length grown loose
  rw [Array.size_push] at held
  rw [← same] at chain
  have looped : ([value].forM (pushElement id)) (Env.ofFuel fuel) machine = .ok () after :=
    (bind_of_ok _ pushed).trans rfl
  refine ⟨after, ?_, grown⟩
  unfold Builtins.arrayPush
  dsimp only [Value.objectId?]
  rw [ask_bind, status]
  exact (bind_of_ok _ looped).trans
    (getWithReceiver_of_own chain bare held rfl (.object id) (Env.ofFuel fuel))

/-- So does a call of the function that appends. -/
theorem answer_call_push
    (loose : store.frozen = false)
    (chain : 1 <= machine.config.maxPrototypeChain)
    (room : machine.nativeDepth < machine.config.maxNativeDepth)
    (pushes : machine.isPush push = true)
    (value : Value)
    (fuel : Nat) :
    ∃ after,
      answer (.call (.function push) (.object id) [value]) (Env.ofFuel (fuel + 1)) machine =
        .ok (.ok (.ofNat (store.elements.size + 1))) after ∧
      after.kind? id = some (.array { store with elements := store.elements.push value }) := by
  unfold Machine.isPush at pushes
  split at pushes
  · next native present =>
      have deeper : machine.deeper.kind? id = some (.array store) := array
      obtain ⟨middle, pushed, grown⟩ := arrayPush_of_array deeper loose chain value fuel
      have run : runNative native.behavior (.object id) [value] (Env.ofFuel fuel) machine.deeper =
          .ok (.ofNat (store.elements.size + 1)) middle := by
        rw [eq_of_beq pushes]
        exact pushed
      have called : callValue (.function push) (.object id) [value] (Env.ofFuel fuel) machine =
          .ok (.ofNat (store.elements.size + 1)) middle.shallower := by
        unfold callValue
        dsimp only
        rw [ask_bind, present]
        exact withNativeDepth_of_ok room rfl run rfl
      exact ⟨middle.shallower, attempt_of_ok called, grown⟩
  · cases pushes

/-- An element beyond the end is taken if it is within the bound. -/
theorem answer_createDataProperty_within
    {key : PropertyKey}
    (loose : store.frozen = false)
    (extensible : machine.heap.isExtensible id = true)
    {index : Nat}
    (indexed : key.arrayIndex? = some index)
    (missing : store.elements.size <= index)
    (within : index < Machine.maxArrayLength)
    (value : Value)
    (fuel : Nat) :
    answer (.createDataProperty id key value) (Env.ofFuel fuel) machine =
      .ok (.ok true) (machine.modifyElements id fun elements =>
        (Machine.resizeElements index elements).push value) := by
  have status : machine.arrayStatus? id = some (store.elements.size, false) := by
    unfold Machine.arrayStatus?
    rw [array, ← loose]
  have bare := Machine.behindProxies?_of_bare (Machine.isProxy_of_array status)
  refine attempt_of_ok ?_
  rw [createDataProperty_of_element bare status indexed, changeOrRaise_of_unwatched fun _ => rfl]
  unfold Machine.setElement
  rw [status]
  dsimp only
  rw [if_neg (Nat.not_lt.2 missing), extensible, if_neg (by decide), if_neg (Nat.not_le.2 within)]
  rfl

end Exec

/-- It fills the array up and pushes another element. -/
def overfillProgram (array push : ObjectId) : HostProgram Unit :=
  .request (.createDataProperty array "16777215" .null) fun _ =>
    .request (.call (.function push) (.object array) [.null]) fun _ => .finish (.ok .undefined)

/-- A push onto an array that is as long as it may be makes it longer, and then it does not take
its own length. -/
theorem push_overfills_array :
    ∃ (sight : Sight Unit) (id : ObjectId) (store : ArrayStore), sight.Visible ∧
      sight.machine.kind? id = some (.array store) ∧ store.frozen = false ∧
      store.elements.size = Machine.maxArrayLength + 1 ∧
      ∃ length, sight.machine.getOwnProperty? id Machine.lengthKey =
          some (.ofData length true false false) ∧
        ∀ fuel, Exec.assignOwn (.object id) Machine.lengthKey length (Env.ofFuel fuel)
          sight.machine = .error (.thrown Machine.invalidLength) sight.machine := by
  obtain ⟨array, push, machine, store, settled, present, size, loose, extensible, pushes, chain,
    room⟩ := exists_arrayProgram
  have indexed : (PropertyKey.string "16777215").arrayIndex? = some 16777215 := by
    decide +kernel
  have filled := Exec.answer_createDataProperty_within present loose extensible indexed
    (size ▸ Nat.zero_le _) (by decide) .null 1
  obtain ⟨object, live, payload⟩ := Option.map_eq_some_iff.1 present
  have full := Machine.kind?_modifyElements live payload fun elements =>
    (Machine.resizeElements 16777215 elements).push .null
  have still : (machine.modifyElements array fun elements =>
      (Machine.resizeElements 16777215 elements).push .null).isPush push = true :=
    (Machine.isPush_modifyElements present push _).trans pushes
  obtain ⟨after, pushed, grown⟩ := Exec.answer_call_push full loose chain room still .null 0
  have ran : machine.runWithin 1 (overfillProgram array push) = .ok .undefined after := by
    unfold Machine.runWithin overfillProgram
    rw [Exec.runProgram_request filled, Exec.runProgram_request pushed]
    rfl
  have large : (((Machine.resizeElements 16777215 store.elements).push .null).push .null).size =
      Machine.maxArrayLength + 1 := by
    rw [Array.size_push, Array.size_push, Machine.size_resizeElements]
    rfl
  refine ⟨{ machine := after }, array, _, .between (settled.returned ran), grown, loose, large,
    _, Machine.getOwnProperty?_length grown loose, fun fuel => ?_⟩
  exact (Exec.assignOwn_own_length (fun _ => rfl) grown loose).2 (by dsimp only; omega)
    (by dsimp only; rw [large]; decide)

end ScriptVM

import ScriptVM.Proofs.FrozenObjects
import ScriptVM.Proofs.OwnKeys
import ScriptVM.Proofs.WalkSteps

/-!
# Assigned and stored properties

What an assignment comes to at the object that is its receiver, and that a read sees what was
assigned last.
-/

/-!
## Assignments to own properties

What an assignment makes of an object that is no proxy, once its walk along the prototypes is
over. Only the length of an array takes a conversion of the value; for all other keys the
assignment is a function of the machine.
-/

namespace ScriptVM

variable {σ α : Type}

namespace Machine

/-- What a change comes to that may throw. -/
def settled (outcome : Except Exception α × Machine σ) :
    EStateM.Result (Stop σ) (Machine σ) α :=
  match outcome.1 with
  | .ok answer => .ok answer outcome.2
  | .error exception => .error (.thrown exception) outcome.2

/-- The object is an array, and the key that of its length. -/
def IsArrayLength (machine : Machine σ) (id : ObjectId) (key : PropertyKey) : Prop :=
  (machine.arrayStatus? id).isSome = true ∧ key = lengthKey

/-- Give an object a property in its table, or overwrite the one it has; false if the object or
the property does not allow it. -/
def storeInTable (machine : Machine σ) (id : ObjectId) (key : PropertyKey) (value : Value) :
    Bool × Machine σ :=
  match machine.heap.getOwn? id key with
  | none =>
      if machine.heap.isExtensible id then (true, machine.defineRaw id key (.plain value))
      else (false, machine)
  | some existing =>
      if existing.isWritable then
        (true, machine.defineRaw id key
          (.ofData value true existing.enumerable existing.configurable))
      else (false, machine)

/-- Assign to an own property other than the length of an array. -/
def storeOwn (machine : Machine σ) (id : ObjectId) (key : PropertyKey) (value : Value) :
    Except Exception Bool × Machine σ :=
  match machine.arrayStatus? id, key.arrayIndex? with
  | some _, some index => machine.setElement id index value
  | _, _ => ((.ok (machine.storeInTable id key value).1), (machine.storeInTable id key value).2)

variable {machine : Machine σ} {id : ObjectId} {key : PropertyKey} {property : Property}

/-- A walk from an object that is no proxy looks at the object first. -/
theorem lookup_of_bare (bare : machine.isProxy id = false) (key : PropertyKey) (limit : Nat) :
    machine.lookup key (limit + 1) id =
      match machine.ordinaryOwnProperty? id key with
      | some property => .found property
      | none =>
          match machine.heap.prototypeOf id with
          | some parent => machine.lookup key limit parent
          | none => .absent := by
  rw [lookup]
  split
  · next present => exact absurd present (kind?_of_bare bare _ _)
  · rfl

/-- The walk ends where the key is owned. -/
theorem lookup_of_held
    (bare : machine.isProxy id = false)
    (held : machine.getOwnProperty? id key = some property)
    (limit : Nat) :
    machine.lookup key (limit + 1) id = .found property := by
  rw [getOwnProperty?_of_behind (behindProxies?_of_bare bare)] at held
  rw [lookup_of_bare bare, held]

theorem ordinaryOwnProperty?_of_no_element
    (direct : ¬ machine.IsArrayLength id key)
    (apart : (machine.arrayStatus? id).isSome = true -> key.arrayIndex? = none) :
    machine.ordinaryOwnProperty? id key = machine.heap.getOwn? id key := by
  refine ordinaryOwnProperty?_of_table fun array => ⟨apart array, ?_⟩
  cases length : key == lengthKey with
  | false => rfl
  | true => exact absurd ⟨array, eq_of_beq length⟩ direct

/-- The elements of an array may be overwritten unless it is frozen. -/
theorem isWritable_of_element
    {size index : Nat}
    {frozen : Bool}
    (array : machine.arrayStatus? id = some (size, frozen))
    (indexed : key.arrayIndex? = some index)
    (held : machine.ordinaryOwnProperty? id key = some property) :
    property.isWritable = !frozen := by
  obtain ⟨store, present⟩ := exists_store_of_array array
  unfold arrayStatus? at array
  unfold ordinaryOwnProperty? at held
  rw [present] at array held
  dsimp only at held
  rw [indexed] at held
  dsimp only at held
  cases array
  split at held
  · cases held
  · cases held
  · cases held
    rfl

theorem setElement_of_frozen
    {size : Nat}
    (array : machine.arrayStatus? id = some (size, true))
    (index : Nat)
    (value : Value) :
    machine.setElement id index value = (.ok false, machine) := by
  unfold setElement
  rw [array]

/-- Outside of arrays, an assignment to an own property gives an answer. -/
theorem storeOwn_cases
    (machine : Machine σ)
    (id : ObjectId)
    (key : PropertyKey)
    (value : Value) :
    (∃ done after, machine.storeOwn id key value = (.ok done, after)) ∨
      machine.storeOwn id key value = (.error invalidLength, machine) ∧
        (machine.arrayStatus? id).isSome = true ∧
          ∃ index, key.arrayIndex? = some index ∧ maxArrayLength <= index := by
  unfold storeOwn
  split
  · next status index array indexed =>
      rcases setElement_cases machine id index value with done | ⟨refused, beyond⟩
      · exact .inl done
      · exact .inr ⟨refused, by rw [array]; rfl, index, indexed, beyond⟩
  · exact .inl ⟨_, _, rfl⟩

end Machine

namespace Exec

variable {env : Env σ} {machine : Machine σ} {id : ObjectId} {key : PropertyKey}
  {value receiver : Value}

variable (unwatched : ∀ seen, env.watch seen = false)
include unwatched

/-- A change that nobody watches and that may throw is made. -/
theorem changeOrRaise_of_unwatched
    (operation : Machine σ -> Except Exception α × Machine σ)
    (machine : Machine σ) :
    changeOrRaise operation env machine = Machine.settled (operation machine) := by
  unfold changeOrRaise Machine.settled
  rw [bind_of_ok _ (change_of_unwatched unwatched operation machine)]
  cases (operation machine).1 <;> rfl

/-- An element of an array is set, whether it was missing or not. -/
theorem assignOwn_of_element
    (named : receiver.objectId? = some id)
    {size index : Nat}
    {frozen : Bool}
    (array : machine.arrayStatus? id = some (size, frozen))
    (indexed : key.arrayIndex? = some index) :
    assignOwn receiver key value env machine =
      Machine.settled (machine.setElement id index value) := by
  have found := Machine.behindProxies?_of_bare (Machine.isProxy_of_array array)
  cases frozen with
  | true =>
      rw [Machine.setElement_of_frozen array]
      cases held : machine.ordinaryOwnProperty? id key with
      | none =>
          rw [assignOwn_of_missing named ((Machine.getOwnProperty?_of_behind found key).trans held)]
          exact defineOwnProperty_of_frozen found array indexed (.plain value) env
      | some property =>
          rw [assignOwn_of_present named ((Machine.getOwnProperty?_of_behind found key).trans held),
            Machine.isWritable_of_element array indexed held]
          rfl
  | false =>
      rw [← changeOrRaise_of_unwatched unwatched (fun machine => machine.setElement id index value)]
      cases held : machine.ordinaryOwnProperty? id key with
      | none =>
          rw [assignOwn_of_missing named ((Machine.getOwnProperty?_of_behind found key).trans held)]
          exact createDataProperty_of_element found array indexed value env
      | some property =>
          rw [assignOwn_of_present named ((Machine.getOwnProperty?_of_behind found key).trans held),
            Machine.isWritable_of_element array indexed held]
          exact writeOwnValue_of_element array indexed value env

/-- What is no element is stored in the table. -/
theorem assignOwn_of_table
    (named : receiver.objectId? = some id)
    (bare : machine.isProxy id = false)
    (direct : ¬ machine.IsArrayLength id key)
    (apart : (machine.arrayStatus? id).isSome = true -> key.arrayIndex? = none) :
    assignOwn receiver key value env machine =
      .ok (machine.storeInTable id key value).1 (machine.storeInTable id key value).2 := by
  have found := Machine.behindProxies?_of_bare bare
  have far : (machine.arrayStatus? id).isSome = true ->
      key.arrayIndex? = none ∧ (key == Machine.lengthKey) = false := fun array =>
    ⟨apart array, Bool.eq_false_iff.2 fun length => direct ⟨array, eq_of_beq length⟩⟩
  have own := (Machine.getOwnProperty?_of_behind found key).trans
    (Machine.ordinaryOwnProperty?_of_no_element direct apart)
  unfold Machine.storeInTable
  cases held : machine.heap.getOwn? id key with
  | none =>
      rw [assignOwn_of_missing named (own.trans held)]
      unfold createDataProperty
      rw [defineOwnProperty_of_table found far, change_of_unwatched unwatched]
      unfold Machine.defineOrdinary
      rw [held]
      rfl
  | some existing =>
      rw [assignOwn_of_present named (own.trans held)]
      cases writable : existing.isWritable with
      | false =>
          dsimp only
          rw [writable]
          rfl
      | true =>
          dsimp only
          rw [if_pos rfl, if_pos writable, writeOwnValue_of_table far,
            change_of_unwatched unwatched]
          unfold overwrite
          rw [held]

/-- An assignment to an own property runs no script, unless it is to the length of an array. -/
theorem assignOwn_eq_storeOwn
    (named : receiver.objectId? = some id)
    (bare : machine.isProxy id = false)
    (direct : ¬ machine.IsArrayLength id key) :
    assignOwn receiver key value env machine = Machine.settled (machine.storeOwn id key value) := by
  unfold Machine.storeOwn
  cases status : machine.arrayStatus? id with
  | none => exact assignOwn_of_table unwatched named bare direct (by simp [status])
  | some state =>
      cases indexed : key.arrayIndex? with
      | some index => exact assignOwn_of_element unwatched named status indexed
      | none => exact assignOwn_of_table unwatched named bare direct fun _ => indexed

end Exec
/-!
## Stored properties

A read sees what was last assigned, and the assignment changes nothing else: no other object, no
other property and no order of keys. Only an array has its length depend on its elements and its
elements on its length. An assignment that is refused or thrown back changes nothing at all.
-/

/-! ## Elements -/

namespace ArrayStore

variable {store : ArrayStore} {value : Value} {index : Nat}

/-- Below the new length nothing changes, and beyond it nothing is left. -/
theorem own?_resize (store : ArrayStore) (length place : Nat) :
    own? { store with elements := Machine.resizeElements length store.elements } place =
      if place < length then store.own? place else none := by
  split
  · next below =>
      unfold own? Machine.resizeElements
      dsimp only
      split
      · rw [Array.take_eq_extract, Array.getElem?_extract, if_pos (by omega), Nat.zero_add]
      · by_cases inside : place < store.elements.size
        · rw [Array.getElem?_append_left inside]
        · rw [Array.getElem?_append_right (by omega), Array.getElem?_replicate, if_pos (by omega),
            Array.getElem?_eq_none (by omega)]
          rfl
  · next beyond =>
      refine own?_of_size_le ?_
      rw [Machine.size_resizeElements]
      omega

/-- An element that is set is there, and all others stay. -/
theorem own?_set
    (inside : index < store.elements.size)
    (whole : value.isHole = false)
    (place : Nat) :
    own? { store with elements := store.elements.setIfInBounds index value } place =
      if place = index then some value else store.own? place := by
  unfold own?
  dsimp only
  rw [Array.getElem?_setIfInBounds]
  by_cases same : index = place
  · subst same
    simp [inside, whole]
  · rw [if_neg same, if_neg fun equal => same equal.symm]

/-- An element beyond the end is there, and the gap before it is not filled. -/
theorem own?_push
    (outside : store.elements.size <= index)
    (whole : value.isHole = false)
    (place : Nat) :
    own? { store with elements := (Machine.resizeElements index store.elements).push value }
        place =
      if place = index then some value else store.own? place := by
  have resized := own?_resize store index place
  unfold own? at resized ⊢
  dsimp only at resized ⊢
  rw [Array.getElem?_push, Machine.size_resizeElements]
  split
  · simp [whole]
  · rw [resized]
    split
    · rfl
    · rw [Array.getElem?_eq_none (by omega)]
      rfl

end ArrayStore

namespace Machine

/-- What an assignment that succeeds makes of a machine, and what a read sees then. -/
inductive Stored (machine : Machine σ) (env : Env σ) (id : ObjectId) (key : PropertyKey)
    (value : Value) (after : Machine σ) : Value -> Prop
  | property :
      ((machine.arrayStatus? id).isSome = true -> key.arrayIndex? = none ∧ key ≠ lengthKey) ->
      machine.ChangesOnly (· = key) id after ->
      Stored machine env id key value after value
  /-- The array grows if the element is beyond its end, and the gap stays empty. -/
  | element {size index : Nat} :
      machine.arrayStatus? id = some (size, false) -> key.arrayIndex? = some index ->
      machine.ChangesOnly (fun other => other = key ∨ other = lengthKey) id after ->
      after.getOwnProperty? id lengthKey =
        some (.ofData (.ofNat (max size (index + 1))) true false false) ->
      (∀ other place, other.arrayIndex? = some place -> size <= place -> place ≠ index ->
        after.getOwnProperty? id other = none) ->
      Stored machine env id key value after value
  /-- The value is converted, and the elements from the new length on are gone. -/
  | length {size length : Nat} {number : Float} :
      machine.arrayStatus? id = some (size, false) -> key = lengthKey ->
      Exec.toNumber value env machine = .ok number machine ->
      (Float.ofNat length == number) = true ->
      machine.ChangesOnly (fun other => other = lengthKey ∨
        ∃ place, length <= place ∧ place < size ∧ other = .index place) id after ->
      (∀ other place, other.arrayIndex? = some place -> length <= place ->
        after.getOwnProperty? id other = none) ->
      Stored machine env id key value after (.ofNat length)

variable {machine after : Machine σ} {id : ObjectId} {object : HeapObject ObjectKind}
  {key : PropertyKey} {value : Value} {env : Env σ}

theorem Stored.changesOnly
    {seen : Value}
    (stored : machine.Stored env id key value after seen) :
    ∃ changed, machine.ChangesOnly changed id after := by
  cases stored with
  | property _ changes => exact ⟨_, changes⟩
  | element _ _ changes _ _ => exact ⟨_, changes⟩
  | length _ _ _ _ changes _ => exact ⟨_, changes⟩

/-! ## The table -/

/-- What is stored in a table is there, and what is not stored leaves the machine as it is. -/
theorem storeInTable_cases
    (live : machine.heap.get? id = some object)
    (distinct : object.properties.keys.Nodup)
    (bare : machine.isProxy id = false)
    (apart : (machine.arrayStatus? id).isSome = true ->
      key.arrayIndex? = none ∧ key ≠ lengthKey)
    (value : Value) :
    (∃ after, machine.storeInTable id key value = (true, after) ∧
      machine.ChangesOnly (· = key) id after ∧
      ∃ property, after.getOwnProperty? id key = some property ∧
        property.slot = .data value true) ∨
      machine.storeInTable id key value = (false, machine) := by
  have stored : ∀ property : Property,
      machine.ChangesOnly (· = key) id (machine.defineRaw id key property) ∧
        (machine.defineRaw id key property).getOwnProperty? id key = some property := by
    intro property
    have kind : (machine.defineRaw id key property).kind? id = machine.kind? id :=
      Heap.payload?_define ..
    refine ⟨.defineRaw live distinct (isProxy_of_live bare live) key property, ?_⟩
    rw [getOwnProperty?_of_kind? kind bare, ordinaryOwnProperty?_of_table fun array => ?_]
    · exact getOwn?_defineRaw live distinct key property
    · unfold arrayStatus? at array apart
      rw [kind] at array
      exact ⟨(apart array).1, beq_eq_false_iff_ne.2 (apart array).2⟩
  unfold storeInTable
  split
  · split
    · exact .inl ⟨_, rfl, (stored _).1, _, (stored _).2, rfl⟩
    · exact .inr rfl
  · split
    · exact .inl ⟨_, rfl, (stored _).1, _, (stored _).2, rfl⟩
    · exact .inr rfl

/-! ## Elements and lengths -/

section Arrays

variable {index : Nat}

variable {store : ArrayStore} (live : machine.heap.get? id = some object)
  (array : object.payload = .array store)

include live array

theorem arrayStatus?_of_live :
    machine.arrayStatus? id = some (store.elements.size, store.frozen) := by
  unfold arrayStatus?
  rw [kind?_of_live live, array]

/-- The internal slots of an array whose elements were changed. -/
theorem kind?_modifyElements (change : Array Value -> Array Value) :
    (machine.modifyElements id change).kind? id =
      some (.array { store with elements := change store.elements }) := by
  show (machine.heap.modifyPayload id _).payload? id = _
  rw [Heap.payload?_modifyPayload, if_pos rfl,
    show machine.heap.payload? id = some (.array store) from
      (kind?_of_live live).trans (congrArg some array)]
  rfl

/-- After a change of elements, an array owns what its store says. -/
theorem getOwnProperty?_modifyElements
    (change : Array Value -> Array Value)
    (key : PropertyKey) :
    (machine.modifyElements id change).getOwnProperty? id key =
      (machine.modifyElements id change).ordinaryOwnProperty? id key := by
  refine getOwnProperty?_of_behind (behindProxies?_of_bare ?_) key
  unfold isProxy
  rw [kind?_modifyElements live array]
  rfl

/-- A change that sets one element stores it. -/
theorem stored_modifyElements
    (loose : store.frozen = false)
    (indexed : key.arrayIndex? = some index)
    {change : Array Value -> Array Value}
    (size : (change store.elements).size = max store.elements.size (index + 1))
    (elements : ∀ place, ArrayStore.own? { store with elements := change store.elements } place =
      if place = index then some value else store.own? place) :
    Stored machine env id key value (machine.modifyElements id change) value ∧
      (machine.modifyElements id change).getOwnProperty? id key =
        some (.ofData value true true true) := by
  have changed := kind?_modifyElements live array change
  have named : PropertyKey.index index = key := PropertyKey.index_of_arrayIndex? indexed
  have status : machine.arrayStatus? id = some (store.elements.size, false) := by
    rw [arrayStatus?_of_live live array, loose]
  refine ⟨.element status indexed ?_ ?_ fun other place at_ beyond apart => ?_, ?_⟩
  · refine .modifyElements live array change (.inr rfl) fun place same => ?_
    rw [elements, if_neg]
    rintro rfl
    exact same (.inl named)
  · rw [getOwnProperty?_modifyElements live array, ordinaryOwnProperty?_of_length changed, loose]
    dsimp only
    rw [size]
    rfl
  · rw [getOwnProperty?_modifyElements live array, ordinaryOwnProperty?_of_index changed at_,
      elements, if_neg apart, ArrayStore.own?_of_size_le beyond]
    rfl
  · rw [getOwnProperty?_modifyElements live array, ordinaryOwnProperty?_of_index changed indexed,
      elements, if_pos rfl, loose]
    rfl

/-- An element is stored, or the array does not allow it and stays as it is. -/
theorem setElement_stores
    (indexed : key.arrayIndex? = some index)
    (whole : value.isHole = false) :
    (∃ after, machine.setElement id index value = (.ok true, after) ∧
      Stored machine env id key value after value ∧
      after.getOwnProperty? id key = some (.ofData value true true true)) ∨
      machine.setElement id index value = (.ok false, machine) ∨
      machine.setElement id index value = (.error invalidLength, machine) := by
  have status := arrayStatus?_of_live live array
  unfold setElement
  rw [status]
  cases frozen : store.frozen with
  | true => exact .inr (.inl rfl)
  | false =>
      dsimp only
      split
      · next inside =>
          refine .inl ⟨_, rfl, stored_modifyElements live array frozen indexed ?_
            (ArrayStore.own?_set inside whole)⟩
          rw [Array.size_setIfInBounds]
          omega
      · next outside =>
          split
          · exact .inr (.inl rfl)
          · split
            · exact .inr (.inr rfl)
            · refine .inl ⟨_, rfl, stored_modifyElements live array frozen indexed ?_
                (ArrayStore.own?_push (Nat.not_lt.1 outside) whole)⟩
              rw [Array.size_push, size_resizeElements]
              omega

/-- A new length is stored, or the array is frozen and stays as it is. -/
theorem setLength_stores
    {number : Float}
    {length : Nat}
    (converted : Exec.toNumber value env machine = .ok number machine)
    (equal : (Float.ofNat length == number) = true) :
    (∃ after, machine.setLength id length = (true, after) ∧
      Stored machine env id lengthKey value after (.ofNat length) ∧
      after.getOwnProperty? id lengthKey = some (.ofData (.ofNat length) true false false)) ∨
      machine.setLength id length = (false, machine) := by
  have status := arrayStatus?_of_live live array
  unfold setLength
  rw [status]
  cases frozen : store.frozen with
  | true => exact .inr rfl
  | false =>
      have changed := kind?_modifyElements live array (resizeElements length)
      rw [frozen] at status
      refine .inl ⟨_, rfl, .length status rfl converted equal ?_
        fun other place indexed beyond => ?_, ?_⟩
      · refine .modifyElements live array _ (.inl rfl) fun place same => ?_
        rw [ArrayStore.own?_resize]
        split
        · rfl
        · next beyond =>
            refine (ArrayStore.own?_of_size_le (Nat.not_lt.1 fun inside => same ?_)).symm
            exact .inr ⟨place, Nat.not_lt.1 beyond, inside, rfl⟩
      · rw [getOwnProperty?_modifyElements live array,
          ordinaryOwnProperty?_of_index changed indexed, ArrayStore.own?_resize,
          if_neg (Nat.not_lt.2 beyond)]
        rfl
      · rw [getOwnProperty?_modifyElements live array, ordinaryOwnProperty?_of_length changed,
          frozen]
        dsimp only
        rw [size_resizeElements]
        rfl

end Arrays

/-- Neither an object nor any on its prototype chain is a proxy. -/
def Unveiled (machine : Machine σ) (id : ObjectId) : Prop :=
  ∀ holder, Relation.ReflTransGen
    (fun child parent => machine.heap.prototypeOf child = some parent) id holder ->
      machine.isProxy holder = false

theorem Unveiled.of_parent
    (bare : machine.isProxy id = false)
    (parent : ∀ next, machine.heap.prototypeOf id = some next -> machine.Unveiled next) :
    machine.Unveiled id := by
  intro holder path
  rcases Relation.ReflTransGen.cases_head path with rfl | ⟨next, linked, rest⟩
  · exact bare
  · exact parent next linked holder rest

theorem Unveiled.lookup
    (unveiled : machine.Unveiled id)
    (key : PropertyKey)
    (limit : Nat)
    (target handler : Value) :
    machine.lookup key limit id ≠ .atProxy target handler := by
  induction limit generalizing id with
  | zero => exact Lookup.noConfusion
  | succ limit step =>
      rw [lookup_of_bare (unveiled id .refl)]
      split
      · exact Lookup.noConfusion
      · split
        · next parent linked => exact step fun holder path => unveiled holder (.head linked path)
        · exact Lookup.noConfusion

/-- An assignment stores its value, so that the object owns what a read is to see, or leaves the
machine as it is. -/
inductive StoresOrKeeps (machine : Machine σ) (env : Env σ) (id : ObjectId) (key : PropertyKey)
    (value : Value) : EStateM.Result (Stop σ) (Machine σ) Bool -> Prop
  | stores {after : Machine σ} {seen : Value} {property : Property} :
      Stored machine env id key value after seen ->
      after.getOwnProperty? id key = some property -> property.slot = .data seen true ->
      StoresOrKeeps machine env id key value (.ok true after)
  | refuses : StoresOrKeeps machine env id key value (.ok false machine)
  | stops (stop : Stop σ) : StoresOrKeeps machine env id key value (.error stop machine)

end Machine

namespace Exec

/-- A computation that leaves the machine as it is, whatever it comes to. -/
def Quiet {α : Type} (computation : Exec σ α) (env : Env σ) (machine : Machine σ) : Prop :=
  (∃ answer, computation env machine = .ok answer machine) ∨
    ∃ stop, computation env machine = .error stop machine

variable {env : Env σ} {machine : Machine σ} {id : ObjectId} {object : HeapObject ObjectKind}
  {key : PropertyKey} {value receiver : Value}

/-- The length of an array is set to the value that is converted. -/
theorem setArrayLength_stores
    (unwatched : ∀ seen, env.watch seen = false)
    (live : machine.heap.get? id = some object)
    {store : ArrayStore}
    (array : object.payload = .array store)
    (quiet : Quiet (toNumber value) env machine) :
    machine.StoresOrKeeps env id Machine.lengthKey value (setArrayLength id value env machine) := by
  rcases quiet with ⟨number, converted⟩ | ⟨stop, converted⟩
  · have word : toWord value env machine = .ok (Number.toWord number) machine := by
      unfold toWord
      exact bind_of_ok _ converted
    unfold setArrayLength
    rw [bind_of_ok _ converted, bind_of_ok _ word]
    split
    · exact .stops _
    · next fits =>
        have equal : (Float.ofNat (Number.toWord number) == number) = true := by
          rw [Bool.or_eq_true, not_or] at fits
          simpa [bne] using fits.1
        rw [change_of_unwatched unwatched]
        rcases Machine.setLength_stores live array converted equal with
          ⟨after, set, stored, held⟩ | refused
        · rw [set]
          exact .stores stored held rfl
        · rw [refused]
          exact .refuses
  · have stopped : setArrayLength id value env machine = .error stop machine := by
      unfold setArrayLength
      exact bind_of_error _ converted
    rw [stopped]
    exact .stops stop

/-- An assignment to an object that is no proxy stores the value or changes nothing. -/
theorem assignOwn_stores
    (unwatched : ∀ seen, env.watch seen = false)
    (live : machine.heap.get? id = some object)
    (distinct : object.properties.keys.Nodup)
    (bare : machine.isProxy id = false)
    (named : receiver.objectId? = some id)
    (whole : value.isHole = false)
    (quiet : machine.IsArrayLength id key -> Quiet (toNumber value) env machine) :
    machine.StoresOrKeeps env id key value (assignOwn receiver key value env machine) := by
  by_cases length : machine.IsArrayLength id key
  · have converts := quiet length
    obtain ⟨status, rfl⟩ := length
    obtain ⟨⟨size, frozen⟩, status⟩ := Option.isSome_iff_exists.1 status
    obtain ⟨store, present⟩ := Machine.exists_store_of_array status
    have array : object.payload = .array store :=
      Option.some.inj ((Machine.kind?_of_live live).symm.trans present)
    have held := (Machine.getOwnProperty?_of_behind (Machine.behindProxies?_of_bare bare) _).trans
      (Machine.ordinaryOwnProperty?_of_length present)
    rw [assignOwn_of_present named held]
    split
    · rw [writeOwnValue_of_length (by rw [status]; rfl)]
      exact setArrayLength_stores unwatched live array converts
    · exact .refuses
  · rw [assignOwn_eq_storeOwn unwatched named bare length]
    unfold Machine.storeOwn
    split
    · next status index array indexed =>
        obtain ⟨store, present⟩ := Machine.exists_store_of_array array
        have slots : object.payload = .array store :=
          Option.some.inj ((Machine.kind?_of_live live).symm.trans present)
        rcases Machine.setElement_stores live slots indexed whole with
          ⟨after, set, stored, held⟩ | refused | thrown
        · rw [set]
          exact .stores stored held rfl
        · rw [refused]
          exact .refuses
        · rw [thrown]
          exact .stops _
    · next other =>
        have apart : (machine.arrayStatus? id).isSome = true ->
            key.arrayIndex? = none ∧ key ≠ Machine.lengthKey := by
          intro array
          refine ⟨?_, fun same => length ⟨array, same⟩⟩
          obtain ⟨status, present⟩ := Option.isSome_iff_exists.1 array
          cases indexed : key.arrayIndex? with
          | none => rfl
          | some index => exact (other status index present indexed).elim
        rcases Machine.storeInTable_cases live distinct bare apart value with
          ⟨after, set, changes, property, held, slot⟩ | refused
        · rw [set]
          exact .stores (.property apart changes) held slot
        · rw [refused]
          exact .refuses

/-- A read sees what the object owns. -/
theorem getWithReceiver_of_own
    (chain : 1 <= machine.config.maxPrototypeChain)
    (bare : machine.isProxy id = false)
    {property : Property}
    (held : machine.getOwnProperty? id key = some property)
    {seen : Value}
    {writable : Bool}
    (slot : property.slot = .data seen writable)
    (receiver : Value)
    (env : Env σ) :
    getWithReceiver id key receiver env machine = .ok seen machine := by
  obtain ⟨limit, room⟩ := Nat.exists_eq_add_one.2 chain
  unfold getWithReceiver
  rw [ask_bind, room, Machine.lookup_of_held bare held]
  dsimp only
  unfold propertyValue
  rw [slot]
  rfl

end Exec

/-- In all that an embedder can come across, an assignment to an object above which there is no
proxy, for a key whose setter is not called, either stores the value or leaves the machine as it
is. What is stored is what a read sees, and nothing else changes, except that elements and
length of an array depend on each other. -/
theorem reads_see_writes
    {sight : Sight σ}
    (visible : sight.Visible)
    {id : ObjectId}
    (live : sight.machine.heap.contains id = true)
    (unveiled : sight.machine.Unveiled id)
    (chain : 1 <= sight.machine.config.maxPrototypeChain)
    {key : PropertyKey}
    (passive : sight.machine.Passive ⟨.set, id, key⟩)
    {value receiver : Value}
    (whole : value.isHole = false)
    (named : receiver.objectId? = some id)
    (fuel : Nat)
    (quiet : sight.machine.IsArrayLength id key ->
      Exec.Quiet (Exec.toNumber value) (Env.ofFuel fuel) sight.machine) :
    match Exec.setWithReceiver id key value receiver (Env.ofFuel fuel) sight.machine with
    | .ok true after => ∃ seen,
        Exec.getWithReceiver id key receiver (Env.ofFuel fuel) after = .ok seen after ∧
          sight.machine.Stored (Env.ofFuel fuel) id key value after seen
    | .ok false after => after = sight.machine
    | .error _ after => after = sight.machine := by
  obtain ⟨layout, laid⟩ := visible.laid
  obtain ⟨object, live⟩ := Heap.contains_iff.1 live
  have distinct := (laid.objects id object live).distinct
  have bare := unveiled id .refl
  have outcome : sight.machine.StoresOrKeeps (Env.ofFuel fuel) id key value
      (Exec.setWithReceiver id key value receiver (Env.ofFuel fuel) sight.machine) := by
    rcases Exec.setWithReceiver_cases passive (unveiled.lookup key _) value receiver with
      assigns | refuses | stops
    · rw [assigns]
      exact Exec.assignOwn_stores (fun _ => rfl) live distinct bare named whole quiet
    · rw [refuses]
      exact .refuses
    · rw [stops]
      exact .stops _
  generalize Exec.setWithReceiver id key value receiver (Env.ofFuel fuel) sight.machine = result
    at outcome
  cases outcome with
  | refuses => rfl
  | stops => rfl
  | @stores after seen property stored held slot =>
      obtain ⟨changed, changes⟩ := stored.changesOnly
      refine ⟨seen, Exec.getWithReceiver_of_own ?_ ?_ held slot receiver _, stored⟩
      · rw [changes.outside]
        exact chain
      · exact changes.isProxy (Heap.contains_iff.2 ⟨object, live⟩) bare

/-- A program that makes an array and an object with a method that sets a global. -/
def convertingProgram : HostProgram Unit :=
  .request .createObject fun length =>
    .register "convert" 0 (fun _ _ =>
        .request (.setGlobal "converted" .null) fun _ => .finish (.ok (.number 0))) fun convert =>
      .request (.set length "valueOf" convert true) fun _ =>
        .request (.createArray [.null]) fun _ => .finish (.ok .undefined)

/-- The run of the program until the array is there. -/
def convertingRun : EStateM.Result (Stop Unit) (Machine Unit) Value :=
  Exec.runProgram convertingProgram
    (Env.watched 20 fun sight =>
      (sight.machine.arrayStatus? ⟨sight.machine.heap.objects.size - 1⟩).isSome)
    (Builtins.newMachine {} ())

/-- The object inherits from the first objects, as an array does, and none of them is a proxy. -/
abbrev Machine.LinkedLikeArray (machine : Machine Unit) (id : ObjectId) : Prop :=
  (machine.heap.prototypeOf id = some machine.intrinsics.arrayPrototype ∧
    machine.heap.prototypeOf machine.intrinsics.arrayPrototype =
      some machine.intrinsics.objectPrototype ∧
    machine.heap.prototypeOf machine.intrinsics.objectPrototype = none) ∧
  machine.isProxy id = false ∧ machine.isProxy machine.intrinsics.arrayPrototype = false ∧
    machine.isProxy machine.intrinsics.objectPrototype = false

theorem Machine.LinkedLikeArray.unveiled
    {machine : Machine Unit}
    {id : ObjectId}
    (linked : machine.LinkedLikeArray id) :
    machine.Unveiled id := by
  obtain ⟨⟨first, second, third⟩, bare, array, object⟩ := linked
  refine .of_parent bare fun next linked => ?_
  cases first.symm.trans linked
  refine .of_parent array fun next linked => ?_
  cases second.symm.trans linked
  refine .of_parent object fun next linked => ?_
  cases third.symm.trans linked

/-- The machine after an assignment that succeeds. -/
def Machine.ofAssignment? :
    EStateM.Result (Stop σ) (Machine σ) Bool -> Option (Machine σ)
  | .ok true after => some after
  | _ => none

theorem Machine.eq_of_ofAssignment?
    {result : EStateM.Result (Stop σ) (Machine σ) Bool}
    {after : Machine σ}
    (assigned : after ∈ Machine.ofAssignment? result) :
    result = .ok true after := by
  unfold ofAssignment? at assigned
  split at assigned
  · cases assigned
    rfl
  · cases assigned

/-- An element beyond the end of an array is read again, and the array is longer. -/
theorem reads_see_writes_convertingRun :
    ∃ sight ∈ Sight.ofRun? convertingRun, ∃ (id : ObjectId) (after : Machine Unit),
      Exec.setWithReceiver id "2" (.boolean true) (.object id) (Env.ofFuel 0) sight.machine =
          .ok true after ∧
        Exec.getWithReceiver id "2" (.object id) (Env.ofFuel 0) after =
          .ok (.boolean true) after ∧
        after.getOwnProperty? id Machine.lengthKey =
          some (.ofData (.ofNat 3) true false false) := by
  have seen : ∃ sight ∈ Sight.ofRun? convertingRun,
      let machine := sight.machine
      let id : ObjectId := ⟨machine.heap.objects.size - 1⟩
      machine.LinkedLikeArray id ∧ machine.heap.contains id = true ∧
      1 <= machine.config.maxPrototypeChain ∧
      machine.arrival ⟨.set, id, "2"⟩ = .absent ∧ machine.arrayStatus? id = some (1, false) ∧
      (Machine.ofAssignment? (Exec.setWithReceiver id "2" (.boolean true) (.object id)
        (Env.ofFuel 0) machine)).isSome = true := by
    decide +kernel
  obtain ⟨sight, interrupted, linked, live, chain, absent, array, assigned⟩ := seen
  obtain ⟨after, assigned⟩ := Option.isSome_iff_exists.1 assigned
  have apart : (PropertyKey.string "2").arrayIndex? = some 2 := by
    decide +kernel
  have whole : (Value.boolean true).isHole = false := rfl
  have named : (Value.object ⟨sight.machine.heap.objects.size - 1⟩).objectId? =
      some ⟨sight.machine.heap.objects.size - 1⟩ := rfl
  have stores := reads_see_writes (Sight.visible_of_ofRun? interrupted) live
    linked.unveiled chain
    (fun property found => by cases absent.symm.trans found) whole named 0
    (fun length => absurd length.2 (by decide))
  rw [Machine.eq_of_ofAssignment? assigned] at stores
  obtain ⟨seen, read, stored⟩ := stores
  cases stored with
  | property table _ =>
      have index := (table (by rw [array]; rfl)).1
      cases index.symm.trans apart
  | element status index _ grown _ =>
      cases array.symm.trans status
      cases apart.symm.trans index
      exact ⟨sight, interrupted, _, after, Machine.eq_of_ofAssignment? assigned, read, grown⟩
  | length _ length => exact absurd length (by decide)

/-- A length that is an object is converted by its method, which may set a global, and the
negative zero is converted to zero. -/
theorem length_conversion_shows :
    ∃ sight : Sight Unit, sight.Visible ∧ ∃ id, sight.machine.arrayStatus? id = some (1, false) ∧
      sight.machine.Unveiled id ∧ sight.machine.Passive ⟨.set, id, Machine.lengthKey⟩ ∧
      (∃ value after, Exec.setWithReceiver id Machine.lengthKey value (.object id) (Env.ofFuel 20)
          sight.machine = .ok true after ∧
        sight.machine.getGlobal? "converted" = none ∧
        after.getGlobal? "converted" = some .null) ∧
      ∃ after, Exec.setWithReceiver id Machine.lengthKey (.number (-0)) (.object id)
          (Env.ofFuel 0) sight.machine = .ok true after ∧
        ∃ seen, Exec.getWithReceiver id Machine.lengthKey (.object id) (Env.ofFuel 0) after =
          .ok seen after ∧ seen ≠ .number (-0) := by
  have seen : ∃ sight ∈ Sight.ofRun? convertingRun,
      let machine := sight.machine
      let id : ObjectId := ⟨machine.heap.objects.size - 1⟩
      machine.LinkedLikeArray id ∧ machine.arrayStatus? id = some (1, false) ∧
      machine.arrival ⟨.set, id, Machine.lengthKey⟩ =
        .found (.ofData (.ofNat 1) true false false) ∧
      machine.getGlobal? "converted" = none ∧
      (∃ after ∈ Machine.ofAssignment? (Exec.setWithReceiver id Machine.lengthKey
          (.object ⟨machine.heap.objects.size - 3⟩) (.object id) (Env.ofFuel 20) machine),
        after.getGlobal? "converted" = some .null) ∧
      ∃ after ∈ Machine.ofAssignment? (Exec.setWithReceiver id Machine.lengthKey (.number (-0))
          (.object id) (Env.ofFuel 0) machine),
        after.isProxy id = false ∧ 1 <= after.config.maxPrototypeChain ∧
          after.getOwnProperty? id Machine.lengthKey =
            some (.ofData (.ofNat 0) true false false) := by
    decide +kernel
  obtain ⟨sight, interrupted, linked, array, found, unset, ⟨after, converted, set⟩, later, zero,
    still, chain, held⟩ := seen
  refine ⟨sight, Sight.visible_of_ofRun? interrupted, _, array, linked.unveiled, ?_,
    ⟨_, after, Machine.eq_of_ofAssignment? converted, unset, set⟩, later,
    Machine.eq_of_ofAssignment? zero, .ofNat 0,
    Exec.getWithReceiver_of_own chain still held rfl _ _, ?_⟩
  · intro property same
    cases found.symm.trans same
    trivial
  · decide +kernel

end ScriptVM

import ScriptVM.Proofs.ArrayBounds
import ScriptVM.Proofs.DefinedProperties
import ScriptVM.Proofs.KeyOrders
import ScriptVM.Proofs.PrototypeChains
import ScriptVM.Proofs.ProxyTransparency

/-!
# Pushes

A push appends its arguments behind the length, to the store of an array and by assignments to any
other object. The two follow one law, up to the length of the other object, which counts only up
to the greatest length of an array.
-/

namespace ScriptVM

variable {σ : Type}

/-! ## Walks -/

/-- The outcome of a walk leaves an assignment to its receiver: it met no proxy, and nothing but
data that may be written. -/
def Lookup.leavesToReceiver : Lookup -> Bool
  | .absent | .tooLong => true
  | .found property => property.isWritable
  | .atProxy _ _ => false

namespace Machine

/-- An assignment of the key meets no proxy, no accessor and no read-only data. -/
def Unobstructed (machine : Machine σ) (id : ObjectId) (key : PropertyKey) : Prop :=
  (machine.lookup key (machine.config.maxPrototypeChain + 1) id).leavesToReceiver = true

instance (machine : Machine σ) (id : ObjectId) (key : PropertyKey) :
    Decidable (machine.Unobstructed id key) :=
  inferInstanceAs (Decidable (_ = true))

variable {machine before after : Machine σ} {id : ObjectId} {key : PropertyKey}
variable {changed : PropertyKey -> Prop}

/-- A walk does not notice a change of other keys. -/
theorem lookup_of_changesOnly
    (changes : before.ChangesOnly changed id after)
    (live : before.heap.contains id = true)
    (bare : before.isProxy id = false)
    (apart : ¬ changed key)
    (limit : Nat)
    (holder : ObjectId) :
    after.lookup key limit holder = before.lookup key limit holder := by
  have also := changes.isProxy live bare
  induction limit generalizing holder with
  | zero => rfl
  | succ limit step =>
      by_cases same : holder = id
      · subst same
        have own := changes.property key apart
        rw [getOwnProperty?_of_behind (behindProxies?_of_bare bare),
          getOwnProperty?_of_behind (behindProxies?_of_bare also)] at own
        rw [lookup_of_bare also, lookup_of_bare bare, own, changes.prototype]
        simp only [step]
      · have still := changes.objects holder same
        have kind : after.kind? holder = before.kind? holder := by
          unfold kind? Heap.payload?
          rw [still]
        have own : after.ordinaryOwnProperty? holder key =
            before.ordinaryOwnProperty? holder key := by
          unfold ordinaryOwnProperty? Heap.getOwn?
          rw [kind, still]
        have parent : after.heap.prototypeOf holder = before.heap.prototypeOf holder := by
          unfold Heap.prototypeOf
          rw [still]
        rw [lookup, lookup, kind, own, parent]
        simp only [step]

theorem Unobstructed.of_changesOnly
    (free : before.Unobstructed id key)
    (changes : before.ChangesOnly changed id after)
    (live : before.heap.contains id = true)
    (bare : before.isProxy id = false)
    (apart : ¬ changed key) :
    after.Unobstructed id key := by
  unfold Unobstructed at free ⊢
  rw [changes.outside]
  rw [changes.outside] at changes
  rw [lookup_of_changesOnly changes live bare apart]
  exact free

end Machine

namespace Exec

variable {env : Env σ} {machine : Machine σ} {id : ObjectId} {key : PropertyKey}
  {receiver value : Value} {object : HeapObject ObjectKind}

/-! ## The length -/

/-- The length of an object that is no array counts up to the greatest length of an array. -/
theorem lengthOfArrayLike_of_number
    {length : Nat}
    (small : length < 2 ^ 53)
    {after : Machine σ}
    (read : getProperty receiver Machine.lengthKey env machine = .ok (.ofNat length) after) :
    lengthOfArrayLike receiver env machine = .ok (min length Machine.maxArrayLength) after := by
  have converted : toNumber (.ofNat length) env after = .ok (Float.ofNat length) after := rfl
  unfold lengthOfArrayLike
  rw [bind_of_ok _ read, bind_of_ok _ converted]
  rcases Nat.eq_zero_or_pos length with rfl | positive
  · rfl
  · have counts : ¬ (decide (Float.ofNat length <= 0) || (Float.ofNat length).isNaN) = true := by
      rw [Number.isNaN_ofNat positive small, Bool.or_false, decide_eq_true_eq]
      exact Number.not_ofNat_le_zero positive small
    rw [if_neg counts]
    show EStateM.Result.ok _ after = _
    congr 1
    rw [apply_ite Number.truncate, Number.truncate_ofNat small,
      Number.truncate_ofNat (show Machine.maxArrayLength < 2 ^ 53 by decide)]
    simp only [Number.ofNat_lt_ofNat positive (show 0 < Machine.maxArrayLength by decide) small
      (by decide)]
    split <;> omega

/-! ## Assignments -/

end Exec

namespace Machine

/-- The object has data under a key, and may be assigned to there. -/
def OwnsValue (machine : Machine σ) (id : ObjectId) (key : PropertyKey) (value : Value) : Prop :=
  ∃ property, machine.getOwnProperty? id key = some property ∧ property.slot = .data value true

variable {machine : Machine σ} {id : ObjectId} {key : PropertyKey} {value : Value}
  {object : HeapObject ObjectKind}

namespace Roomy

theorem contains (roomy : machine.Roomy id object) : machine.heap.contains id = true :=
  Heap.contains_iff.2 ⟨object, roomy.live⟩

/-- What it does not own, or may be written, is stored. -/
theorem storeInTable
    (roomy : machine.Roomy id object)
    (writable : ∀ property, machine.getOwnProperty? id key = some property ->
      property.isWritable = true)
    (value : Value) :
    ∃ property, property.slot = .data value true ∧
      machine.storeInTable id key value = (true, machine.defineRaw id key property) := by
  rw [roomy.getOwnProperty?_eq] at writable
  unfold Machine.storeInTable
  cases held : machine.heap.getOwn? id key with
  | none =>
      refine ⟨.plain value, rfl, ?_⟩
      dsimp only
      rw [isExtensible_of_live roomy.live, roomy.extensible, if_pos rfl]
  | some existing =>
      refine ⟨.ofData value true existing.enumerable existing.configurable, rfl, ?_⟩
      dsimp only
      rw [if_pos (writable existing held)]

end Roomy

/-- A walk for an assignment that is not obstructed finds own data that may be written. -/
theorem Unobstructed.writable
    (free : machine.Unobstructed id key)
    (bare : machine.isProxy id = false)
    {property : Property}
    (held : machine.getOwnProperty? id key = some property) :
    machine.lookup key (machine.config.maxPrototypeChain + 1) id = .found property ∧
      property.isWritable = true := by
  have found := lookup_of_held bare held machine.config.maxPrototypeChain
  unfold Unobstructed at free
  rw [found] at free
  exact ⟨found, free⟩

end Machine

namespace Exec

variable {env : Env σ} {machine : Machine σ} {id : ObjectId} {key : PropertyKey}
  {receiver value : Value} {object : HeapObject ObjectKind}

/-- A walk that is not obstructed ends at the receiver, unless the chain is too long. -/
theorem setWithReceiver_of_unobstructed
    (free : machine.Unobstructed id key)
    (receiver value : Value)
    (env : Env σ) :
    setWithReceiver id key value receiver env machine = assignOwn receiver key value env machine ∨
      machine.lookup key (machine.config.maxPrototypeChain + 1) id = .tooLong ∧
        setWithReceiver id key value receiver env machine =
          .error (.thrown .chainOverflow) machine := by
  unfold Machine.Unobstructed at free
  unfold setWithReceiver
  rw [ask_bind]
  generalize machine.lookup key (machine.config.maxPrototypeChain + 1) id = walk at free ⊢
  cases walk with
  | atProxy target handler => cases free
  | absent => exact .inl rfl
  | tooLong => exact .inr ⟨rfl, rfl⟩
  | found property =>
      obtain ⟨slot, _, _⟩ := property
      cases slot with
      | accessor getter setter => cases free
      | data stored writable =>
          cases (show writable = true from free)
          exact .inl rfl

/-- An assignment that is not obstructed is made, or the chain is too long and nothing happens. -/
theorem setProperty_of_unobstructed
    (unwatched : ∀ seen, env.watch seen = false)
    (named : receiver.objectId? = some id)
    (roomy : machine.Roomy id object)
    (free : machine.Unobstructed id key)
    (value : Value) :
    (∃ after later, setProperty receiver key value true env machine = .ok () after ∧
      after.Roomy id later ∧ machine.ChangesOnly (· = key) id after ∧
        after.OwnsValue id key value) ∨
      machine.getOwnProperty? id key = none ∧
        setProperty receiver key value true env machine =
          .error (.thrown .chainOverflow) machine := by
  have direct : ¬ machine.IsArrayLength id key := by
    rintro ⟨array, -⟩
    rw [roomy.arrayStatus?] at array
    cases array
  obtain ⟨property, slot, stored⟩ := roomy.storeInTable
    (fun property held => (free.writable roomy.isProxy held).2) value
  obtain ⟨later, still, held, changes⟩ := roomy.defineRaw key property
  have assigned : assignOwn receiver key value env machine =
      .ok true (machine.defineRaw id key property) := by
    rw [assignOwn_of_table unwatched named roomy.isProxy direct (by simp [roomy.arrayStatus?]),
      stored]
  have walked : setProperty receiver key value true env machine = (do
      let done <- setWithReceiver id key value receiver
      if !done && true then
        typeError fun machine =>
          "Cannot assign to read only property '" ++ machine.displayKey key ++ "' of " ++
            machine.display receiver : Exec σ Unit) env machine := by
    unfold setProperty
    rw [ask_bind, named]
    rfl
  rcases setWithReceiver_of_unobstructed free receiver value env with set | ⟨long, thrown⟩
  · refine .inl ⟨_, later, ?_, still, changes, property, held, slot⟩
    rw [walked]
    exact bind_of_ok _ (set.trans assigned)
  · refine .inr ⟨?_, ?_⟩
    · cases own : machine.getOwnProperty? id key with
      | none => rfl
      | some existing => cases long.symm.trans (free.writable roomy.isProxy own).1
    · rw [walked]
      exact bind_of_error _ thrown

/-- Values are assigned one after the other, each to the index behind the one before. -/
theorem pushGeneric_of_unobstructed
    (unwatched : ∀ seen, env.watch seen = false)
    (named : receiver.objectId? = some id)
    (values : List Value)
    (start : Nat)
    {machine : Machine σ}
    {object : HeapObject ObjectKind}
    (roomy : machine.Roomy id object)
    (free : ∀ place, start <= place -> place < start + values.length ->
      machine.Unobstructed id (.index place)) :
    ∃ after, machine.ChangesOnly (fun key => ∃ place, start <= place ∧
        place < start + values.length ∧ key = .index place) id after ∧
      ((Builtins.pushGeneric receiver start values env machine =
          .ok (start + values.length) after ∧
        (∃ later, after.Roomy id later) ∧
        ∀ place value, values[place]? = some value ->
          after.OwnsValue id (.index (start + place)) value) ∨
        Builtins.pushGeneric receiver start values env machine =
          .error (.thrown .chainOverflow) after) := by
  induction values generalizing start machine object with
  | nil =>
      refine ⟨machine, .refl machine, .inl ⟨rfl, ⟨object, roomy⟩, fun place value stands => ?_⟩⟩
      cases stands
  | cons value rest step =>
      have apart {place : Nat} (beyond : start < place) :
          PropertyKey.index place ≠ .index start := fun same =>
        Nat.ne_of_gt beyond (PropertyKey.index_injective same)
      have first := free start (Nat.le_refl _) (by simp)
      rcases setProperty_of_unobstructed unwatched named roomy first value with
        ⟨middle, later, set, still, changes, there⟩ | ⟨-, thrown⟩
      · obtain ⟨after, rests, outcome⟩ := step (start + 1) still fun place least most =>
          (free place (by omega) (by simp only [List.length_cons]; omega)).of_changesOnly changes
            roomy.contains roomy.isProxy (apart least)
        have pushed : Builtins.pushGeneric receiver start (value :: rest) env machine =
            Builtins.pushGeneric receiver (start + 1) rest env middle := by
          rw [Builtins.pushGeneric]
          exact bind_of_ok _ set
        have count : start + 1 + rest.length = start + (value :: rest).length := by
          rw [List.length_cons]
          omega
        refine ⟨after, ?_, ?_⟩
        · refine changes.trans rests (fun key same => ⟨start, Nat.le_refl _, by simp, same⟩)
            fun key same => ?_
          obtain ⟨place, least, most, same⟩ := same
          exact ⟨place, by omega, by omega, same⟩
        · rw [pushed, ← count]
          rcases outcome with ⟨done, roomy, set⟩ | stopped
          · refine .inl ⟨done, roomy, fun place other stands => ?_⟩
            cases place with
            | zero =>
                cases stands
                obtain ⟨property, held, slot⟩ := there
                have kept := rests.property (.index start) (by
                  rintro ⟨place, least, -, same⟩
                  exact apart least same.symm)
                exact ⟨property, kept.trans held, slot⟩
            | succ place =>
                have last := set place other stands
                rwa [Nat.add_right_comm, Nat.add_assoc] at last
          · exact .inr stopped
      · refine ⟨machine, .refl machine, .inr ?_⟩
        rw [Builtins.pushGeneric]
        exact bind_of_error _ thrown

end Exec

/-! ## Pushes -/

namespace Machine

/-- The length and the indices of what is pushed. -/
def IsPushed (start count : Nat) (key : PropertyKey) : Prop :=
  key = lengthKey ∨ ∃ place, start <= place ∧ place < start + count ∧ key = .index place

/-- What a push comes to: all values stand behind the start and the length counts them, or the
bound on chains stops it. No other property changes. -/
inductive Pushes (machine : Machine σ) (id : ObjectId) (start : Nat) (values : List Value) :
    EStateM.Result (Stop σ) (Machine σ) Value -> Prop
  | appends {after : Machine σ} :
      machine.ChangesOnly (IsPushed start values.length) id after ->
      after.OwnsValue id lengthKey (.ofNat (start + values.length)) ->
      (∀ place value, values[place]? = some value ->
        after.OwnsValue id (.index (start + place)) value) ->
      Pushes machine id start values (.ok (.ofNat (start + values.length)) after)
  | overflows {after : Machine σ} :
      machine.ChangesOnly (IsPushed start values.length) id after ->
      Pushes machine id start values (.error (.thrown .chainOverflow) after)

end Machine

namespace Exec

variable {env : Env σ} {machine : Machine σ} {id : ObjectId} {receiver : Value}
  {object : HeapObject ObjectKind} {store : ArrayStore}

/-- A length that an object owns is read, if the bound on chains lets the walk begin. -/
theorem getProperty_of_ownsValue
    (named : receiver.objectId? = some id)
    (bare : machine.isProxy id = false)
    {key : PropertyKey}
    {value : Value}
    (owns : machine.OwnsValue id key value) :
    getProperty receiver key env machine =
      machine.bounded (machine.config.maxPrototypeChain = 0) value := by
  obtain ⟨property, held, slot⟩ := owns
  rw [getProperty_of_object named]
  unfold Machine.bounded
  split
  · next closed =>
      unfold getWithReceiver
      rw [ask_bind, closed]
      rfl
  · next room =>
      exact getWithReceiver_of_own (Nat.one_le_iff_ne_zero.2 room) bare held slot receiver env

variable (unwatched : ∀ seen, env.watch seen = false)
include unwatched

/-- An object that is no array is pushed to behind its length, which counts up to the greatest
length of an array. -/
theorem arrayPush_of_roomy
    (named : receiver.objectId? = some id)
    (roomy : machine.Roomy id object)
    {length : Nat}
    (counts : machine.OwnsValue id Machine.lengthKey (.ofNat length))
    (arguments : List Value)
    (fits : length + arguments.length < PropertyKey.indexBound)
    (free : ∀ key, Machine.IsPushed (min length Machine.maxArrayLength) arguments.length key ->
      machine.Unobstructed id key) :
    machine.Pushes id (min length Machine.maxArrayLength) arguments
      (Builtins.arrayPush receiver arguments env machine) := by
  have small : length < 2 ^ 53 := by
    unfold PropertyKey.indexBound at fits
    omega
  have read : getProperty receiver Machine.lengthKey env machine = _ :=
    getProperty_of_ownsValue named roomy.isProxy counts
  have pushed : Builtins.arrayPush receiver arguments env machine = (do
      let length <- lengthOfArrayLike receiver
      let length := Value.ofNat (<- Builtins.pushGeneric receiver length arguments)
      setProperty receiver Machine.lengthKey length true
      return length : Exec σ Value) env machine := by
    unfold Builtins.arrayPush
    rw [named]
    dsimp only
    rw [ask_bind, roomy.arrayStatus?]
    rfl
  rw [pushed]
  unfold Machine.bounded at read
  split at read
  · have stopped : lengthOfArrayLike receiver env machine =
        .error (.thrown .chainOverflow) machine := bind_of_error _ read
    rw [bind_of_error _ stopped]
    exact .overflows (.refl machine)
  · rw [bind_of_ok _ (lengthOfArrayLike_of_number small read)]
    generalize low : min length Machine.maxArrayLength = start at free ⊢
    obtain ⟨middle, changes, ⟨looped, ⟨later, still⟩, set⟩ | thrown⟩ :=
      pushGeneric_of_unobstructed unwatched named arguments start roomy fun place least most =>
        free _ (.inr ⟨place, least, most, rfl⟩)
    · have apart : ¬ ∃ place, start <= place ∧ place < start + arguments.length ∧
          Machine.lengthKey = .index place := by
        rintro ⟨place, -, most, same⟩
        have other := PropertyKey.index_ne_lengthKey (show place < PropertyKey.indexBound by omega)
        rw [← same, beq_self_eq_true] at other
        cases other
      have clear := (free _ (.inl rfl)).of_changesOnly changes roomy.contains roomy.isProxy apart
      rw [bind_of_ok _ looped]
      rcases setProperty_of_unobstructed unwatched named still clear
        (.ofNat (start + arguments.length)) with ⟨after, _, done, -, last, there⟩ | ⟨missing, -⟩
      · have all : machine.ChangesOnly (Machine.IsPushed start arguments.length) id after :=
          changes.trans last (fun _ => .inr) fun _ => .inl
        rw [show (_ : EStateM.Result (Stop σ) (Machine σ) Value) = _ from bind_of_ok _ done]
        refine .appends all there fun place value stands => ?_
        obtain ⟨property, held, slot⟩ := set place value stands
        refine ⟨property, (last.property _ fun same => apart ⟨start + place, ?_⟩).trans held, slot⟩
        have inside := (List.getElem?_eq_some_iff.1 stands).1
        exact ⟨by omega, by omega, same.symm⟩
      · obtain ⟨property, held, -⟩ := counts
        cases missing.symm.trans ((changes.property _ apart).trans held)
    · rw [bind_of_error _ thrown]
      exact .overflows (changes.trans (.refl middle) (fun _ => .inr) fun _ => False.elim)

/-- Elements are appended one after the other. -/
theorem pushElements_of_store
    (loose : store.frozen = false)
    (values : List Value)
    {machine : Machine σ}
    (array : machine.kind? id = some (.array store)) :
    ∃ after, (values.forM (pushElement id)) env machine = .ok () after ∧
      after.kind? id = some (.array { store with elements := store.elements ++ values.toArray }) ∧
      machine.ChangesOnly (Machine.IsPushed store.elements.size values.length) id after := by
  induction values generalizing machine store with
  | nil => exact ⟨machine, rfl, by simpa using array, .refl machine⟩
  | cons value rest step =>
      obtain ⟨object, live, payload⟩ := Option.map_eq_some_iff.1 array
      have grown := Machine.kind?_modifyElements live payload fun elements => elements.push value
      have pushed : pushElement id value env machine =
          .ok () (machine.modifyElements id fun elements => elements.push value) := by
        unfold pushElement
        rw [changeOrRaise_of_unwatched unwatched]
        unfold Machine.pushElement
        rw [Machine.arrayStatus?_of_live live payload, loose]
        rfl
      have first : machine.ChangesOnly (Machine.IsPushed store.elements.size 1) id
          (machine.modifyElements id fun elements => elements.push value) := by
        refine .modifyElements live payload _ (.inl rfl) fun place same => ?_
        have other : place ≠ store.elements.size := fun equal =>
          same (.inr ⟨place, by omega, by omega, rfl⟩)
        unfold ArrayStore.own?
        dsimp only
        rw [Array.getElem?_push, if_neg other]
      have still : { store with elements := store.elements.push value : ArrayStore }.frozen =
          false := loose
      obtain ⟨after, looped, filled, rests⟩ := step still grown
      refine ⟨after, (bind_of_ok _ pushed).trans looped, ?_, ?_⟩
      · rw [filled]
        simp
      · refine first.trans rests (fun key => ?_) fun key => ?_
        all_goals
          refine Or.imp_right fun ⟨place, least, most, same⟩ => ⟨place, ?_, ?_, same⟩
        all_goals
          simp only [Array.size_push, List.length_cons] at *
          omega

/-- An array is pushed to behind its elements. -/
theorem arrayPush_of_store
    (named : receiver.objectId? = some id)
    (array : machine.kind? id = some (.array store))
    (loose : store.frozen = false)
    (arguments : List Value)
    (whole : ∀ value ∈ arguments, value.isHole = false)
    (fits : store.elements.size + arguments.length < PropertyKey.indexBound) :
    machine.Pushes id store.elements.size arguments
      (Builtins.arrayPush receiver arguments env machine) := by
  obtain ⟨after, looped, filled, changes⟩ := pushElements_of_store unwatched loose arguments array
  have bare : after.isProxy id = false := by
    unfold Machine.isProxy
    rw [filled]
    rfl
  have behind := Machine.behindProxies?_of_bare bare
  have counts : after.OwnsValue id Machine.lengthKey
      (.ofNat (store.elements.size + arguments.length)) := by
    have held := Machine.getOwnProperty?_length filled loose
    rw [Array.size_append, List.size_toArray] at held
    exact ⟨_, held, rfl⟩
  have status : machine.arrayStatus? id = some (store.elements.size, store.frozen) := by
    unfold Machine.arrayStatus?
    rw [array]
  have pushed : Builtins.arrayPush receiver arguments env machine =
      getProperty receiver Machine.lengthKey env after := by
    unfold Builtins.arrayPush
    rw [named]
    dsimp only
    rw [ask_bind, status]
    exact bind_of_ok _ looped
  rw [pushed, getProperty_of_ownsValue named bare counts]
  unfold Machine.bounded
  split
  · exact .overflows changes
  · refine .appends changes counts fun place value stands => ?_
    obtain ⟨inside, rfl⟩ := List.getElem?_eq_some_iff.1 stands
    have small : store.elements.size + place < PropertyKey.indexBound := by omega
    refine ⟨.plain arguments[place], ?_, rfl⟩
    rw [Machine.getOwnProperty?_of_behind behind, Machine.ordinaryOwnProperty?_of_index filled
      (PropertyKey.arrayIndex?_index small)]
    have owned : ArrayStore.own? { store with elements := store.elements ++ arguments.toArray }
        (store.elements.size + place) = some arguments[place] := by
      unfold ArrayStore.own?
      dsimp only
      rw [Array.getElem?_append_right (by omega), Nat.add_sub_cancel_left]
      simp [inside, whole _ (List.getElem_mem inside)]
    rw [owned, Option.map_some]
    dsimp only
    rw [loose]
    rfl

end Exec

/-- In all that an embedder can come across, a push appends its arguments behind the elements of an
array that is not frozen. That it does so to a closed array, too, is a defect. To an extensible
object that is no array it appends them behind its own length, of which no more counts than the
greatest length of an array, as long as no assignment is obstructed. -/
theorem pushes_append_at_length
    {sight : Sight σ}
    (visible : sight.Visible)
    {id : ObjectId}
    {receiver : Value}
    (named : receiver.objectId? = some id)
    {length : Nat}
    {arguments : List Value}
    (whole : ∀ value ∈ arguments, value.isHole = false)
    (fits : length + arguments.length < PropertyKey.indexBound)
    (fuel : Nat) :
    let machine := sight.machine
    let result := Builtins.arrayPush receiver arguments (Env.ofFuel fuel) machine
    (∀ store, machine.kind? id = some (.array store) -> store.frozen = false ->
      store.elements.size = length -> machine.Pushes id length arguments result) ∧
    (machine.isProxy id = false -> machine.arrayStatus? id = none ->
      machine.heap.isExtensible id = true ->
      machine.OwnsValue id Machine.lengthKey (.ofNat length) ->
      (∀ key, Machine.IsPushed (min length Machine.maxArrayLength) arguments.length key ->
        machine.Unobstructed id key) ->
      machine.Pushes id (min length Machine.maxArrayLength) arguments result) := by
  intro machine result
  have unwatched : ∀ seen : Sight σ, (Env.ofFuel fuel).watch seen = false := fun _ => rfl
  refine ⟨fun store array loose size => ?_, fun bare simple extensible counts free => ?_⟩
  · subst size
    exact Exec.arrayPush_of_store unwatched named array loose arguments whole fits
  · obtain ⟨layout, laid⟩ := visible.laid
    obtain ⟨object, roomy⟩ := Machine.roomy_of_extensible laid bare simple extensible
    exact Exec.arrayPush_of_roomy unwatched named roomy counts arguments fits free

/-- An embedder makes an array, and then an object with a length. -/
def lengthsProgram (length : Nat) : HostProgram Unit :=
  .request (.createArray [.null]) fun _ =>
    .request .createObject fun object =>
      .request (.createDataProperty (object.objectId?.getD ⟨0⟩) "length" (.ofNat length)) fun _ =>
        .finish (.ok object)

/-- Both take a value, the array at its end and the object at its length. -/
theorem pushes_append_at_length_lengthsProgram :
    ∃ (sight : Sight Unit) (array id : ObjectId), sight.Visible ∧
      sight.machine.Pushes array 1 [.null]
        (Builtins.arrayPush (.object array) [.null] (Env.ofFuel 9) sight.machine) ∧
      sight.machine.Pushes id 3 [.null]
        (Builtins.arrayPush (.object id) [.null] (Env.ofFuel 9) sight.machine) := by
  have seen : ∃ ended ∈ Exec.ended?
        ((Builtins.newMachine {} ()).runWithin 20 (lengthsProgram 3)),
      ∃ id ∈ ended.1.objectId?, ended.2.arrayStatus? ⟨id.index - 1⟩ = some (1, false) ∧
        ended.2.isProxy id = false ∧ ended.2.arrayStatus? id = none ∧
        ended.2.heap.isExtensible id = true ∧
        ended.2.getOwnProperty? id Machine.lengthKey = some (.plain (.ofNat 3)) ∧
        ended.2.Unobstructed id Machine.lengthKey ∧ ended.2.Unobstructed id (.index 3) := by
    decide +kernel
  obtain ⟨⟨_, machine⟩, ended, id, _, status, bare, simple, extensible, held, length, index⟩ := seen
  obtain ⟨store, array⟩ := Machine.exists_store_of_array status
  have same : (store.elements.size, store.frozen) = (1, false) := by
    unfold Machine.arrayStatus? at status
    rw [array] at status
    exact Option.some.inj status
  have visible : Sight.Visible { machine } :=
    .between (.returned (.new {} ()) (Exec.eq_of_ended? ended))
  have whole : ∀ value ∈ [Value.null], value.isHole = false := by decide
  have fits : 3 + [Value.null].length < PropertyKey.indexBound := by decide
  refine ⟨{ machine }, ⟨id.index - 1⟩, id, visible,
    (pushes_append_at_length visible rfl whole (by decide) 9).1 store array
      (Prod.mk.inj same).2 (Prod.mk.inj same).1,
    (pushes_append_at_length visible rfl whole fits 9).2 bare simple extensible ⟨_, held, rfl⟩ ?_⟩
  rintro key (rfl | ⟨place, least, most, rfl⟩)
  · exact length
  · obtain rfl : place = 3 := Nat.le_antisymm (Nat.le_of_lt_succ most) least
    exact index

/-- A greater length does not count: nothing is in the way, but the value stands at the greatest
length of an array instead of behind the length, and the length becomes one more than that. -/
theorem push_cuts_length :
    ∃ (sight : Sight Unit) (id : ObjectId), sight.Visible ∧
      sight.machine.OwnsValue id Machine.lengthKey (.ofNat 16777217) ∧
      (sight.machine.isProxy id = false ∧ sight.machine.arrayStatus? id = none ∧
        sight.machine.heap.isExtensible id = true) ∧
      (∀ key ∈ [Machine.lengthKey, .index 16777216, .index 16777217],
        sight.machine.Unobstructed id key) ∧
      ∃ after, Builtins.arrayPush (.object id) [.null] (Env.ofFuel 9) sight.machine =
          .ok (.ofNat 16777217) after ∧
        (.ofNat 16777217 : Value) ≠ .ofNat (16777217 + 1) ∧
        after.getOwnProperty? id Machine.lengthKey = some (.plain (.ofNat 16777217)) ∧
        after.getOwnProperty? id (.index 16777216) = some (.plain .null) ∧
        after.getOwnProperty? id (.index 16777217) = none := by
  have seen : ∃ ended ∈ Exec.ended?
        ((Builtins.newMachine {} ()).runWithin 20 (lengthsProgram 16777217)),
      ∃ id ∈ ended.1.objectId?,
        ended.2.getOwnProperty? id Machine.lengthKey = some (.plain (.ofNat 16777217)) ∧
        (ended.2.isProxy id = false ∧ ended.2.arrayStatus? id = none ∧
          ended.2.heap.isExtensible id = true) ∧
        (∀ key ∈ [Machine.lengthKey, .index 16777216, .index 16777217],
          ended.2.Unobstructed id key) ∧
        ∃ pushed ∈ Exec.ended?
            (Builtins.arrayPush (.object id) [.null] (Env.ofFuel 9) ended.2),
          pushed.1 = .ofNat 16777217 ∧ (.ofNat 16777217 : Value) ≠ .ofNat (16777217 + 1) ∧
          pushed.2.getOwnProperty? id Machine.lengthKey = some (.plain (.ofNat 16777217)) ∧
          pushed.2.getOwnProperty? id (.index 16777216) = some (.plain .null) ∧
          pushed.2.getOwnProperty? id (.index 16777217) = none := by
    decide +kernel
  obtain ⟨⟨_, machine⟩, ended, id, _, held, simple, free, ⟨_, after⟩, pushed, rfl, set⟩ := seen
  exact ⟨{ machine }, id, .between (.returned (.new {} ()) (Exec.eq_of_ended? ended)),
    ⟨_, held, rfl⟩, simple, free, after, Exec.eq_of_ended? pushed, set⟩

end ScriptVM

import ScriptVM.Proofs.ClosedObjects
import ScriptVM.Proofs.StoredProperties

/-!
# Defined properties

The instructions that define a property ask for one that is configurable. Either the object has
exactly this property afterwards, or the definition is refused or thrown back, and all its own
properties are what they were. What becomes of a refusal is up to the instruction: fields and
methods throw, while accessors of literals and copied properties pass over it.
-/

namespace ScriptVM

variable {σ : Type}

/-! ## Tables -/

namespace PropertyTable

theorem offset?_eq (table : PropertyTable) (key : PropertyKey) :
    table.offset? key = table.keys.findIdx? (· == key) := by
  unfold offset? keys
  obtain ⟨⟨entries⟩⟩ := table
  rw [List.findIdx?_map, List.findIdx?_toArray]
  rfl

theorem lookup?_of_offset?
    {table : PropertyTable}
    {key : PropertyKey}
    {offset : Nat}
    {entry : PropertyKey × Property}
    (found : table.offset? key = some offset)
    (stands : table.at? offset = some entry) :
    table.lookup? key = some (offset, entry.2) := by
  unfold lookup?
  rw [found]
  show (table.at? offset).bind _ = _
  rw [stands]
  rfl

/-- What is put under a key is what is found there, even if the key stands at other places,
too. -/
theorem get?_of_put (table : PropertyTable) (key : PropertyKey) (property : Property) :
    (table.put key property).get? key = some property := by
  unfold put get?
  cases found : table.lookup? key with
  | some entry =>
      obtain ⟨offset, existing⟩ := entry
      have stands := at?_of_lookup? found
      have placed : table.offset? key = some offset := by
        unfold lookup? at found
        obtain ⟨place, placed, rest⟩ := Option.bind_eq_some_iff.1 found
        obtain ⟨_, _, same⟩ := Option.bind_eq_some_iff.1 rest
        cases same
        exact placed
      dsimp only
      have still : (table.setAt offset property).offset? key = some offset := by
        rw [offset?_eq, keys_setAt, ← offset?_eq, placed]
      have rewritten : (table.setAt offset property).at? offset = some (key, property) := by
        rw [at?_setAt, if_pos rfl, stands]
        rfl
      rw [lookup?_of_offset? still rewritten]
      rfl
  | none =>
      have absent := lookup?_eq_none_iff.1 found
      dsimp only
      have last : (table.append key property).offset? key = some table.size := by
        rw [offset?_eq, keys_append, List.findIdx?_append, List.findIdx?_eq_none_iff.2]
        · simp [keys, size]
        · exact fun other member => beq_eq_false_iff_ne.2 fun same => absent (same ▸ member)
      have added : (table.append key property).at? table.size = some (key, property) := by
        rw [at?_append, if_pos rfl]
      rw [lookup?_of_offset? last added]
      rfl

end PropertyTable

/-! ## Changes that leave proxies alone -/

namespace Machine

variable {machine before after : Machine σ} {holder id : ObjectId} {key : PropertyKey}
variable {change : ObjectKind -> ObjectKind}

/-- What is behind proxies depends on the proxies only. -/
theorem behindProxies?_of_same
    (size : after.heap.objects.size = before.heap.objects.size)
    (proxies : ∀ id target handler, after.kind? id = some (.proxy target handler) ↔
      before.kind? id = some (.proxy target handler))
    (holder : ObjectId) :
    after.behindProxies? holder = before.behindProxies? holder := by
  have walk : ∀ fuel holder, after.throughProxies fuel holder =
      before.throughProxies fuel holder := by
    intro fuel
    induction fuel with
    | zero => exact fun _ => rfl
    | succ fuel step =>
        intro holder
        rw [throughProxies, throughProxies]
        cases proxy : before.isProxy holder with
        | true =>
            obtain ⟨target, handler, present⟩ := exists_proxy_of_isProxy proxy
            rw [(proxies _ _ _).2 present, present]
            dsimp only
            exact congrArg _ (funext step)
        | false =>
            have bare := kind?_of_bare proxy
            split
            · next target handler present =>
                exact absurd ((proxies _ _ _).1 present) (bare target handler)
            · rfl
  unfold behindProxies?
  rw [size]
  exact walk _ holder

theorem behindProxies?_defineRaw
    (machine : Machine σ)
    (id : ObjectId)
    (key : PropertyKey)
    (property : Property)
    (holder : ObjectId) :
    (machine.defineRaw id key property).behindProxies? holder = machine.behindProxies? holder := by
  obtain ⟨_, alters, _⟩ := machine.heap.alters_define id key property
  refine behindProxies?_of_same alters.size (fun other target handler => ?_) holder
  have kind : (machine.defineRaw id key property).kind? other = machine.kind? other :=
    Heap.payload?_define ..
  rw [kind]

/-- A change of internal slots that makes no proxy and keeps those that there are. -/
theorem behindProxies?_modifyPayload
    (machine : Machine σ)
    (id : ObjectId)
    (proxies : ∀ kind target handler, change kind = .proxy target handler ↔
      kind = .proxy target handler)
    (holder : ObjectId) :
    (machine.modifyHeap fun heap => heap.modifyPayload id change).behindProxies? holder =
      machine.behindProxies? holder := by
  have alters := machine.heap.alters_modifyPayload id change
  refine behindProxies?_of_same alters.size (fun other target handler => ?_) holder
  show Option.map _ ((machine.heap.modifyPayload id change).get? other) = _ ↔
    Option.map _ (machine.heap.get? other) = _
  rw [alters.get?]
  split
  · cases machine.heap.get? other with
    | none => exact Iff.rfl
    | some object =>
        simp only [Option.map_some, Option.some.injEq]
        exact proxies ..
  · exact Iff.rfl

/-- The own properties of an object are its elements and those in its table. -/
theorem ordinary_of_same
    (stores : ∀ store, after.kind? id = some (.array store) ↔
      before.kind? id = some (.array store))
    (tables : (after.heap.get? id).map HeapObject.properties =
      (before.heap.get? id).map HeapObject.properties) :
    (∀ key, after.ordinaryOwnProperty? id key = before.ordinaryOwnProperty? id key) ∧
      after.ordinaryOwnKeys id = before.ordinaryOwnKeys id := by
  have held (machine : Machine σ) (key : PropertyKey) : machine.heap.getOwn? id key =
      ((machine.heap.get? id).map HeapObject.properties).bind (·.get? key) := by
    rw [Option.bind_map]
    rfl
  have listed (machine : Machine σ) : machine.heap.ownKeys id =
      (((machine.heap.get? id).map HeapObject.properties).map PropertyTable.keys).getD [] := by
    rw [Option.map_map]
    rfl
  unfold ordinaryOwnProperty? ordinaryOwnKeys
  simp only [held after, listed after, tables, ← held before, ← listed before]
  by_cases array : ∃ store, before.kind? id = some (.array store)
  · obtain ⟨store, present⟩ := array
    rw [present, (stores store).2 present]
    exact ⟨fun _ => rfl, rfl⟩
  · have other : ∀ store, before.kind? id ≠ some (.array store) := not_exists.1 array
    have also : ∀ store, after.kind? id ≠ some (.array store) := fun store present =>
      other store ((stores store).1 present)
    refine ⟨fun key => ?_, ?_⟩
    all_goals
      split
      · next store present => exact absurd present (also store)
      · rfl

/-- No own property is in the internal slots, apart from those of arrays. -/
theorem own_modifyPayload
    (machine : Machine σ)
    (id : ObjectId)
    (proxies : ∀ kind target handler, change kind = .proxy target handler ↔
      kind = .proxy target handler)
    (arrays : ∀ kind store, change kind = .array store ↔ kind = .array store)
    (holder : ObjectId) :
    let after := machine.modifyHeap fun heap => heap.modifyPayload id change
    (∀ key, after.getOwnProperty? holder key = machine.getOwnProperty? holder key) ∧
      after.ownKeys holder = machine.ownKeys holder := by
  intro after
  have behind := behindProxies?_modifyPayload machine id proxies holder
  unfold getOwnProperty? ownKeys
  rw [show after.behindProxies? holder = _ from behind]
  cases machine.behindProxies? holder with
  | none => exact ⟨fun _ => rfl, rfl⟩
  | some target =>
      refine ordinary_of_same (fun store => ?_) ?_
      · rw [show after.kind? target = _ from
          Heap.payload?_modifyPayload machine.heap id target change]
        split
        · show Option.map change (machine.kind? target) = _ ↔ _
          cases machine.kind? target with
          | none => exact Iff.rfl
          | some kind => simp only [Option.map_some, Option.some.injEq, arrays]
        · exact Iff.rfl
      · rw [show after.heap.get? target = _ from
          (machine.heap.alters_modifyPayload id change).get? target]
        split
        · exact Option.map_map ..
        · rfl

theorem own_modifyClosure
    (machine : Machine σ)
    (id : ObjectId)
    (change : Closure -> Closure)
    (holder : ObjectId) :
    (∀ key, (machine.modifyClosure id change).getOwnProperty? holder key =
      machine.getOwnProperty? holder key) ∧
      (machine.modifyClosure id change).ownKeys holder = machine.ownKeys holder :=
  machine.own_modifyPayload id (fun kind => by cases kind <;> simp)
    (fun kind => by cases kind <;> simp) holder

/-! ## What a definition comes to -/

/-- An object takes a change of a property that is configurable, and a new one if it is
extensible and not a frozen array. -/
def Admits (machine : Machine σ) (holder : ObjectId) (key : PropertyKey) : Prop :=
  match machine.getOwnProperty? holder key with
  | some current => current.configurable = true
  | none => machine.isExtensible holder = true ∧
      ∀ size, (machine.behindProxies? holder).bind machine.arrayStatus? ≠ some (size, true)

theorem not_admits_of_missing
    (missing : machine.getOwnProperty? holder key = none)
    (closed : machine.isExtensible holder = false) :
    ¬ machine.Admits holder key := by
  unfold Admits
  rw [missing, closed]
  exact fun admits => Bool.false_ne_true admits.1

theorem not_admits_of_fixed
    {current : Property}
    (held : machine.getOwnProperty? holder key = some current)
    (fixed : current.configurable = false) :
    ¬ machine.Admits holder key := by
  unfold Admits
  rw [held]
  exact Bool.eq_false_iff.1 fixed

/-- What a definition comes to that asks for a configurable property: the object has it, or the
machine stays as it is. It is refused only by an object that does not take it. -/
inductive Defined (machine : Machine σ) (holder : ObjectId) (key : PropertyKey)
    (property : Property) : EStateM.Result (Stop σ) (Machine σ) Bool -> Prop
  | defines {after : Machine σ} : after.getOwnProperty? holder key = some property ->
      Defined machine holder key property (.ok true after)
  | refuses : ¬ machine.Admits holder key ->
      Defined machine holder key property (.ok false machine)
  | throws (exception : Exception) :
      Defined machine holder key property (.error (.thrown exception) machine)

end Machine

namespace Descriptor

/-- A descriptor asks for a configurable property and says all about it, or about a half of an
accessor. -/
def IsDefinite (descriptor : Descriptor) : Prop :=
  descriptor.configurable = some true ∧ (descriptor.isAccessor = true ∨
    ∃ value writable enumerable, descriptor = .ofData value writable enumerable true ∧
      value.isHole = false)

variable {descriptor : Descriptor}

theorem isDefinite_ofData
    {value : Value}
    (whole : value.isHole = false)
    (writable enumerable : Bool) :
    (ofData value writable enumerable true).IsDefinite :=
  ⟨rfl, .inr ⟨value, writable, enumerable, rfl, whole⟩⟩

/-- A descriptor of data with all fields leaves nothing of what was there. -/
theorem merge_ofData
    (value : Value)
    (writable enumerable configurable : Bool)
    (current : Option Property) :
    (ofData value writable enumerable configurable).merge current =
      .ofData value writable enumerable configurable := by
  cases current with
  | none => rfl
  | some property =>
      obtain ⟨slot, _, _⟩ := property
      cases slot <;> rfl

theorem configurable_of_refused
    {current : Property}
    (refused : descriptor.isCompatible current = false) :
    current.configurable = false := by
  cases configurable : current.configurable with
  | false => rfl
  | true =>
      unfold isCompatible at refused
      rw [configurable, if_pos rfl] at refused
      cases refused

end Descriptor

namespace Machine

variable {machine : Machine σ} {holder id : ObjectId} {key : PropertyKey}
  {descriptor : Descriptor}

variable (behind : machine.behindProxies? holder = some id)
include behind

/-- A property that is defined in the table is there. -/
theorem getOwnProperty?_defineRaw
    (apart : (machine.arrayStatus? id).isSome = true ->
      key.arrayIndex? = none ∧ (key == lengthKey) = false)
    {object : HeapObject ObjectKind}
    (live : machine.heap.get? id = some object)
    (property : Property) :
    (machine.defineRaw id key property).getOwnProperty? holder key = some property := by
  rw [getOwnProperty?_of_behind ((behindProxies?_defineRaw ..).trans behind)]
  have status : (machine.defineRaw id key property).arrayStatus? id = machine.arrayStatus? id := by
    unfold arrayStatus?
    rw [show (machine.defineRaw id key property).kind? id = machine.kind? id from
      Heap.payload?_define ..]
  rw [ordinaryOwnProperty?_of_table (status ▸ apart)]
  obtain ⟨shape, made⟩ : ∃ shape, (machine.defineRaw id key property).heap.get? id =
      some { object with shape, properties := object.properties.put key property } :=
    Heap.exists_get?_define live key property
  rw [Heap.getOwn?_of_live made]
  exact PropertyTable.get?_of_put ..

theorem defined_defineOrdinary
    (apart : (machine.arrayStatus? id).isSome = true ->
      key.arrayIndex? = none ∧ (key == lengthKey) = false) :
    machine.Defined holder key (descriptor.merge (machine.getOwnProperty? holder key))
      (.ok (machine.defineOrdinary id key descriptor).1
        (machine.defineOrdinary id key descriptor).2) := by
  have own : machine.getOwnProperty? holder key = machine.heap.getOwn? id key :=
    (getOwnProperty?_of_behind behind key).trans (ordinaryOwnProperty?_of_table apart)
  unfold defineOrdinary
  rw [own]
  cases held : machine.heap.getOwn? id key with
  | none =>
      dsimp only
      split
      · next extensible =>
          cases live : machine.heap.get? id with
          | none =>
              unfold Heap.isExtensible at extensible
              rw [live] at extensible
              cases extensible
          | some object => exact .defines (getOwnProperty?_defineRaw behind apart live _)
      · next closed =>
          exact .refuses (not_admits_of_missing (own.trans held)
            ((isExtensible_of_behind behind).trans (Bool.eq_false_iff.2 closed)))
  | some current =>
      dsimp only
      split
      · obtain ⟨object, live, _⟩ := Option.bind_eq_some_iff.1 held
        exact .defines (getOwnProperty?_defineRaw behind apart live _)
      · next refused =>
          exact .refuses (not_admits_of_fixed (own.trans held)
            (Descriptor.configurable_of_refused (Bool.eq_false_iff.2 refused)))

/-- An element of an array that is not frozen is set, or it is beyond the end. -/
theorem defined_setElement
    {store : ArrayStore}
    (array : machine.kind? id = some (.array store))
    (loose : store.frozen = false)
    {index : Nat}
    (indexed : key.arrayIndex? = some index)
    {value : Value}
    (whole : value.isHole = false) :
    machine.Defined holder key (.plain value) (settled (machine.setElement id index value)) := by
  have status : machine.arrayStatus? id = some (store.elements.size, false) := by
    unfold arrayStatus?
    rw [array, ← loose]
  have written : ∀ change : Array Value -> Array Value,
      ArrayStore.own? { store with elements := change store.elements } index = some value ->
        (machine.modifyElements id change).getOwnProperty? holder key = some (.plain value) := by
    intro change set
    have still : (machine.modifyElements id change).behindProxies? holder = some id := by
      refine (behindProxies?_modifyPayload machine id (fun kind target handler => ?_) holder).trans
        behind
      cases kind <;> simp
    have made : (machine.modifyElements id change).kind? id =
        some (.array { store with elements := change store.elements }) := by
      obtain ⟨object, live, payload⟩ := Option.map_eq_some_iff.1 array
      unfold modifyElements modifyHeap Heap.modifyPayload kind? Heap.payload?
      rw [Heap.get?_modify_self, live, Option.map_some, Option.map_some]
      dsimp only
      rw [payload]
    rw [getOwnProperty?_of_behind still, ordinaryOwnProperty?_of_index made indexed, set,
      Option.map_some]
    dsimp only
    rw [loose]
    rfl
  unfold setElement
  rw [status]
  dsimp only
  split
  · next inside => exact .defines (written _ (by rw [ArrayStore.own?_set inside whole, if_pos rfl]))
  · next outside =>
      split
      · next closed =>
          refine .refuses (not_admits_of_missing ?_
            ((isExtensible_of_behind behind).trans (by simpa using closed)))
          rw [getOwnProperty?_of_behind behind, ordinaryOwnProperty?_of_index array indexed,
            ArrayStore.own?_of_size_le (Nat.not_lt.1 outside)]
          rfl
      · split
        · exact .throws _
        · exact .defines (written _ (by
            rw [ArrayStore.own?_push (Nat.not_lt.1 outside) whole, if_pos rfl]))

end Machine

namespace Exec

variable {env : Env σ} {machine : Machine σ} {holder id : ObjectId} {key : PropertyKey}
  {descriptor : Descriptor}

theorem defined_defineElement
    (unwatched : ∀ seen, env.watch seen = false)
    (behind : machine.behindProxies? holder = some id)
    {store : ArrayStore}
    (array : machine.kind? id = some (.array store))
    (loose : store.frozen = false)
    {index : Nat}
    (indexed : key.arrayIndex? = some index)
    (definite : descriptor.IsDefinite) :
    machine.Defined holder key (descriptor.merge (machine.getOwnProperty? holder key))
      (defineElement id index descriptor env machine) := by
  unfold defineElement
  rcases definite.2 with accessor | ⟨value, writable, enumerable, rfl, whole⟩
  · rw [accessor]
    exact .throws _
  · rw [Descriptor.merge_ofData]
    cases writable with
    | false => exact .throws _
    | true =>
        cases enumerable with
        | false => exact .throws _
        | true =>
            have set := Machine.defined_setElement behind array loose indexed whole
            rw [← changeOrRaise_of_unwatched unwatched
              (fun machine => machine.setElement id index value)] at set
            exact set

/-- A definition that asks for a configurable property defines it, is refused or is thrown
back. -/
theorem defined_defineOwnProperty
    (unwatched : ∀ seen, env.watch seen = false)
    (machine : Machine σ)
    (holder : ObjectId)
    (key : PropertyKey)
    (definite : descriptor.IsDefinite) :
    machine.Defined holder key (descriptor.merge (machine.getOwnProperty? holder key))
      (defineOwnProperty holder key descriptor env machine) := by
  cases behind : machine.behindProxies? holder with
  | none =>
      have missing : machine.getOwnProperty? holder key = none := by
        unfold Machine.getOwnProperty?
        rw [behind]
        rfl
      unfold defineOwnProperty
      rw [ask_bind, behind]
      refine .refuses (Machine.not_admits_of_missing missing ?_)
      unfold Machine.isExtensible
      rw [behind]
  | some id =>
      by_cases apart : (machine.arrayStatus? id).isSome = true ->
          key.arrayIndex? = none ∧ (key == Machine.lengthKey) = false
      · rw [defineOwnProperty_of_table behind apart, change_of_unwatched unwatched]
        exact Machine.defined_defineOrdinary behind apart
      · obtain ⟨array, exotic⟩ := Classical.not_imp.1 apart
        obtain ⟨⟨size, frozen⟩, status⟩ := Option.isSome_iff_exists.1 array
        obtain ⟨store, present⟩ := Machine.exists_store_of_array status
        have same : (store.elements.size, store.frozen) = (size, frozen) := by
          unfold Machine.arrayStatus? at status
          rw [present] at status
          exact Option.some.inj status
        cases indexed : key.arrayIndex? with
        | some index =>
            cases frozen with
            | true =>
                rw [defineOwnProperty_of_frozen behind status indexed]
                refine .refuses fun admits => ?_
                cases held : machine.getOwnProperty? holder key with
                | none =>
                    unfold Machine.Admits at admits
                    rw [held, behind] at admits
                    exact admits.2 size status
                | some current =>
                    refine Machine.not_admits_of_fixed held ?_ admits
                    rw [Machine.getOwnProperty?_of_behind behind,
                      Machine.ordinaryOwnProperty?_of_index present indexed,
                      (Prod.mk.inj same).2] at held
                    obtain ⟨value, _, rfl⟩ := Option.map_eq_some_iff.1 held
                    rfl
            | false =>
                rw [defineOwnProperty_of_element behind status indexed]
                exact defined_defineElement unwatched behind present (Prod.mk.inj same).2 indexed
                  definite
        | none =>
            have length : (key == Machine.lengthKey) = true := by
              cases other : key == Machine.lengthKey with
              | true => rfl
              | false => exact absurd ⟨indexed, other⟩ exotic
            have refused : defineOwnProperty holder key descriptor env machine =
                .ok false machine := by
              unfold defineOwnProperty
              rw [ask_bind, behind]
              dsimp only
              rw [ask_bind, status, indexed]
              have hard : defineArrayLength id frozen descriptor env machine =
                  .ok false machine := by
                unfold defineArrayLength
                rw [definite.1, beq_self_eq_true, Bool.or_true, if_pos rfl]
                rfl
              rw [← hard]
              cases frozen <;> exact congrFun (congrFun (if_pos length) env) machine
            rw [refused]
            obtain rfl := eq_of_beq length
            exact .refuses (Machine.not_admits_of_fixed ((Machine.getOwnProperty?_of_behind behind
              _).trans (Machine.ordinaryOwnProperty?_of_length present)) rfl)

end Exec

namespace Exec

/-- An object that is no array takes no new property once it is closed. -/
theorem defineOwnProperty_of_closed
    {env : Env σ}
    (unwatched : ∀ seen, env.watch seen = false)
    {machine : Machine σ}
    {holder id : ObjectId}
    {key : PropertyKey}
    (behind : machine.behindProxies? holder = some id)
    (simple : machine.arrayStatus? id = none)
    (missing : machine.getOwnProperty? holder key = none)
    (closed : machine.isExtensible holder = false)
    (descriptor : Descriptor) :
    defineOwnProperty holder key descriptor env machine = .ok false machine := by
  have apart : (machine.arrayStatus? id).isSome = true ->
      key.arrayIndex? = none ∧ (key == Machine.lengthKey) = false := by
    rw [simple]
    exact nofun
  rw [Machine.getOwnProperty?_of_behind behind, Machine.ordinaryOwnProperty?_of_table apart]
    at missing
  rw [Machine.isExtensible_of_behind behind] at closed
  rw [defineOwnProperty_of_table behind apart, change_of_unwatched unwatched]
  unfold Machine.defineOrdinary
  rw [missing]
  dsimp only
  rw [closed]
  rfl

end Exec

/-! ## Refusals -/

namespace Machine

variable {machine before : Machine σ} {holder : ObjectId} {key : PropertyKey}
  {property : Property} {env : Env σ} {computation : Exec σ Bool}

/-- A property is defined, or something is thrown and no own property of the object changes. -/
inductive DefinesOrThrows (machine : Machine σ) (holder : ObjectId) (key : PropertyKey)
    (property : Property) : EStateM.Result (Stop σ) (Machine σ) Unit -> Prop
  | defines {after : Machine σ} : after.getOwnProperty? holder key = some property ->
      DefinesOrThrows machine holder key property (.ok () after)
  | throws {after : Machine σ} (exception : Exception) :
      (∀ key, after.getOwnProperty? holder key = machine.getOwnProperty? holder key) ->
      after.ownKeys holder = machine.ownKeys holder ->
      DefinesOrThrows machine holder key property (.error (.thrown exception) after)

/-- What a definition starts from counts by the own properties of the object. -/
theorem DefinesOrThrows.of_same
    {result : EStateM.Result (Stop σ) (Machine σ) Unit}
    (outcome : machine.DefinesOrThrows holder key property result)
    (held : ∀ key, machine.getOwnProperty? holder key = before.getOwnProperty? holder key)
    (listed : machine.ownKeys holder = before.ownKeys holder) :
    before.DefinesOrThrows holder key property result := by
  cases outcome with
  | defines there => exact .defines there
  | throws exception still same =>
      exact .throws exception (fun key => (still key).trans (held key)) (same.trans listed)

variable (defined : machine.Defined holder key property (computation env machine))
include defined

/-- One who throws when a definition is refused defines the property or throws. -/
theorem Defined.definesOrThrows
    (message : Machine σ -> String) :
    machine.DefinesOrThrows holder key property
      ((do if !(<- computation) then Exec.typeError message : Exec σ Unit) env machine) := by
  generalize ran : computation env machine = result at defined
  cases defined with
  | defines there =>
      rw [Exec.bind_of_ok _ ran]
      exact .defines there
  | refuses closed =>
      rw [Exec.bind_of_ok _ ran]
      exact .throws _ (fun _ => rfl) rfl
  | throws exception =>
      rw [Exec.bind_of_error _ ran]
      exact .throws _ (fun _ => rfl) rfl

/-- One who passes over a refusal does so where the object does not take the definition, and
nothing has happened then. -/
theorem Defined.definesOrPasses :
    let result := (do let _ <- computation : Exec σ Unit) env machine
    machine.DefinesOrThrows holder key property result ∨
      ¬ machine.Admits holder key ∧ result = .ok () machine := by
  intro result
  generalize ran : computation env machine = answered at defined
  cases defined with
  | defines there =>
      refine .inl ?_
      rw [show result = _ from Exec.bind_of_ok _ ran]
      exact .defines there
  | refuses closed => exact .inr ⟨closed, Exec.bind_of_ok _ ran⟩
  | throws exception =>
      refine .inl ?_
      rw [show result = _ from Exec.bind_of_error _ ran]
      exact .throws _ (fun _ => rfl) rfl

end Machine

/-! ## Objects that take everything -/

namespace Machine

/-- An object whose properties are all in its table takes new ones. -/
structure Roomy (machine : Machine σ) (id : ObjectId) (object : HeapObject ObjectKind) :
    Prop where
  live : machine.heap.get? id = some object
  distinct : object.properties.keys.Nodup
  bare : object.payload.isProxy = false
  simple : ∀ store, object.payload ≠ .array store
  extensible : object.extensible = true

variable {machine : Machine σ} {id : ObjectId} {object : HeapObject ObjectKind}
  {key : PropertyKey}

namespace Roomy

theorem isProxy (roomy : machine.Roomy id object) : machine.isProxy id = false := by
  unfold Machine.isProxy
  rw [kind?_of_live roomy.live]
  exact roomy.bare

theorem behind (roomy : machine.Roomy id object) : machine.behindProxies? id = some id :=
  behindProxies?_of_bare roomy.isProxy

theorem arrayStatus? (roomy : machine.Roomy id object) : machine.arrayStatus? id = none := by
  unfold Machine.arrayStatus?
  rw [kind?_of_live roomy.live]
  split
  · next store array => exact absurd (Option.some.inj array) (roomy.simple store)
  · rfl

theorem apart
    (roomy : machine.Roomy id object)
    (array : (machine.arrayStatus? id).isSome = true) :
    key.arrayIndex? = none ∧ (key == lengthKey) = false := by
  rw [roomy.arrayStatus?] at array
  cases array

theorem getOwnProperty?_eq (roomy : machine.Roomy id object) (key : PropertyKey) :
    machine.getOwnProperty? id key = machine.heap.getOwn? id key := by
  rw [getOwnProperty?_of_behind roomy.behind, ordinaryOwnProperty?_of_table roomy.apart]

theorem defineRaw (roomy : machine.Roomy id object) (key : PropertyKey) (property : Property) :
    ∃ later, (machine.defineRaw id key property).Roomy id later ∧
      (machine.defineRaw id key property).getOwnProperty? id key = some property ∧
      machine.ChangesOnly (· = key) id (machine.defineRaw id key property) := by
  obtain ⟨shape, made⟩ : ∃ shape, (machine.defineRaw id key property).heap.get? id =
      some { object with shape, properties := object.properties.put key property } :=
    Heap.exists_get?_define roomy.live key property
  exact ⟨_, ⟨made, PropertyTable.nodup_keys_put roomy.distinct, roomy.bare, roomy.simple,
    roomy.extensible⟩, getOwnProperty?_defineRaw roomy.behind roomy.apart roomy.live property,
    .defineRaw roomy.live roomy.distinct roomy.bare key property⟩

/-- Data is defined there under a key that is missing or configurable. -/
theorem createDataProperty
    (roomy : machine.Roomy id object)
    (admits : ∀ current, machine.getOwnProperty? id key = some current ->
      current.configurable = true)
    (value : Value)
    {env : Env σ}
    (unwatched : ∀ seen, env.watch seen = false) :
    Exec.createDataProperty id key value env machine =
      .ok true (machine.defineRaw id key (.plain value)) := by
  rw [roomy.getOwnProperty?_eq] at admits
  unfold Exec.createDataProperty
  rw [Exec.defineOwnProperty_of_table roomy.behind roomy.apart,
    Exec.change_of_unwatched unwatched]
  unfold defineOrdinary
  cases held : machine.heap.getOwn? id key with
  | none =>
      dsimp only
      rw [isExtensible_of_live roomy.live, roomy.extensible]
      rfl
  | some current =>
      have loose : (Descriptor.plain value).isCompatible current = true :=
        if_pos (admits current held)
      dsimp only
      rw [loose, Descriptor.plain, Descriptor.merge_ofData]
      rfl

end Roomy

/-- Such is every object that is neither a proxy nor an array and takes new properties. -/
theorem roomy_of_extensible
    {layout : Layout}
    (laid : machine.heap.Laid layout)
    {target : ObjectId}
    (bare : machine.isProxy target = false)
    (simple : machine.arrayStatus? target = none)
    (extensible : machine.heap.isExtensible target = true) :
    ∃ object, machine.Roomy target object := by
  cases live : machine.heap.get? target with
  | none =>
      unfold Heap.isExtensible at extensible
      rw [live] at extensible
      cases extensible
  | some object =>
      refine ⟨object, live, (laid.objects target object live).distinct, ?_, fun store array => ?_,
        (isExtensible_of_live live).symm.trans extensible⟩
      · unfold isProxy at bare
        rw [kind?_of_live live] at bare
        exact bare
      · unfold arrayStatus? at simple
        rw [kind?_of_live live, array] at simple
        cases simple

end Machine

/-! ## The instructions -/

/-- The halves of an accessor; where there is none, both are undefined. -/
def Property.halves : Option Property -> Value × Value
  | some { slot := .accessor getter setter, .. } => (getter, setter)
  | _ => (.undefined, .undefined)

/-- A half that is not given is kept. -/
theorem Descriptor.merge_accessor
    {get set : Option Value}
    (half : get.isSome || set.isSome)
    (enumerable : Bool)
    (current : Option Property) :
    ({ get, set, enumerable := some enumerable, configurable := some true } :
        Descriptor).merge current =
      .ofAccessors (get.getD (Property.halves current).1) (set.getD (Property.halves current).2)
        enumerable true := by
  unfold merge mergeSlot isAccessor
  dsimp only
  rw [if_pos half]
  cases current with
  | none => rfl
  | some property =>
      obtain ⟨slot, _, _⟩ := property
      cases slot <;> rfl

/-- The property that a class element asks for, given what is there. -/
def MethodKind.property (method : Value) (current : Option Property) : MethodKind -> Property
  | .method => .hidden method
  | .getter => .ofAccessors method (Property.halves current).2 false true
  | .setter => .ofAccessors (Property.halves current).1 method false true

theorem Exec.methodDescriptor_definite
    {method : Value}
    (whole : method.isHole = false)
    (kind : MethodKind)
    (current : Option Property) :
    (methodDescriptor method kind).IsDefinite ∧
      (methodDescriptor method kind).merge current = kind.property method current := by
  cases kind with
  | method => exact ⟨Descriptor.isDefinite_ofData whole .., Descriptor.merge_ofData ..⟩
  | getter => exact ⟨⟨rfl, .inl rfl⟩, Descriptor.merge_accessor rfl ..⟩
  | setter => exact ⟨⟨rfl, .inl rfl⟩, Descriptor.merge_accessor rfl ..⟩

namespace Exec

variable {env : Env σ} {value : Value}

variable (unwatched : ∀ seen, env.watch seen = false)
include unwatched

theorem definesOrThrows_defineField
    (machine : Machine σ)
    (target : ObjectId)
    (key : PropertyKey)
    (whole : value.isHole = false) :
    machine.DefinesOrThrows target key (.plain value)
      (defineField target key value env machine) := by
  have defined := defined_defineOwnProperty unwatched machine target key
    (Descriptor.isDefinite_ofData whole true true)
  rw [Descriptor.merge_ofData] at defined
  exact defined.definesOrThrows _

theorem definesOrThrows_defineMethod
    (machine : Machine σ)
    (target : ObjectId)
    (key : PropertyKey)
    {method : Value}
    (whole : method.isHole = false)
    (kind : MethodKind) :
    machine.DefinesOrThrows target key
      (kind.property method (machine.getOwnProperty? target key))
      (defineMethod target key method kind env machine) := by
  have install (start : Machine σ) : start.DefinesOrThrows target key
      (kind.property method (start.getOwnProperty? target key))
      ((do if !(<- defineOwnProperty target key (methodDescriptor method kind)) then
            typeError fun machine => "Cannot redefine property: " ++ machine.displayKey key :
          Exec σ Unit) env start) := by
    obtain ⟨definite, merged⟩ := methodDescriptor_definite whole kind
      (start.getOwnProperty? target key)
    have defined := defined_defineOwnProperty unwatched start target key definite
    rw [merged] at defined
    exact defined.definesOrThrows _
  unfold defineMethod
  cases method.objectId? with
  | none => exact install machine
  | some id =>
      dsimp only
      have linked : (update fun machine => machine.modifyClosure id fun closure =>
          { closure with homeObject := some target } : Exec σ Unit) env machine = _ :=
        change_of_unwatched unwatched _ machine
      rw [bind_of_ok _ linked]
      obtain ⟨held, listed⟩ := machine.own_modifyClosure id
        (fun closure => { closure with homeObject := some target }) target
      have outcome := install (machine.modifyClosure id fun closure =>
        { closure with homeObject := some target })
      rw [held] at outcome
      exact outcome.of_same held listed

theorem defines_defineAccessor
    (machine : Machine σ)
    (target : ObjectId)
    (key : PropertyKey)
    {getter setter : Value}
    (half : (getter.isUndefined && setter.isUndefined) = false) :
    let halves := Property.halves (machine.getOwnProperty? target key)
    let result := defineAccessor target key getter setter env machine
    machine.DefinesOrThrows target key
        (.ofAccessors (if getter.isUndefined then halves.1 else getter)
          (if setter.isUndefined then halves.2 else setter) true true) result ∨
      ¬ machine.Admits target key ∧ result = .ok () machine := by
  have kept : ∀ value held : Value,
      (if value.isUndefined then none else some value : Option Value).getD held =
        if value.isUndefined then held else value := by
    intro value held
    split <;> rfl
  have given : ((if getter.isUndefined then none else some getter : Option Value).isSome ||
      (if setter.isUndefined then none else some setter : Option Value).isSome) = true := by
    cases missing : getter.isUndefined <;> cases other : setter.isUndefined <;> simp_all
  have definite : Descriptor.IsDefinite
      { get := if getter.isUndefined then none else some getter
        set := if setter.isUndefined then none else some setter
        enumerable := some true
        configurable := some true } := ⟨rfl, .inl given⟩
  have defined := defined_defineOwnProperty unwatched machine target key definite
  rw [Descriptor.merge_accessor given, kept, kept] at defined
  exact defined.definesOrPasses

theorem defines_createDataProperty
    (machine : Machine σ)
    (target : ObjectId)
    (key : PropertyKey)
    (whole : value.isHole = false) :
    let result := (do let _ <- createDataProperty target key value : Exec σ Unit) env machine
    machine.DefinesOrThrows target key (.plain value) result ∨
      ¬ machine.Admits target key ∧ result = .ok () machine := by
  have defined := defined_defineOwnProperty unwatched machine target key
    (Descriptor.isDefinite_ofData whole true true)
  rw [Descriptor.merge_ofData] at defined
  exact defined.definesOrPasses

end Exec

/-- A field or a class element is defined exactly as asked, or the target keeps its properties
and something is thrown. So is an accessor of a literal, of which a half that is not given is
kept, and every property that is copied, once it is read, with the exception of a target that
does not take it: it is passed over. -/
theorem definitions_define_or_throw
    (machine : Machine σ)
    (fuel : Nat)
    (target : ObjectId)
    (key : PropertyKey) :
    let env := Env.ofFuel fuel
    let current := machine.getOwnProperty? target key
    (∀ value : Value, value.isHole = false ->
      machine.DefinesOrThrows target key (.plain value)
        (Exec.defineField target key value env machine)) ∧
    (∀ (method : Value) (kind : MethodKind), method.isHole = false ->
      machine.DefinesOrThrows target key (kind.property method current)
        (Exec.defineMethod target key method kind env machine)) ∧
    (∀ getter setter : Value, (getter.isUndefined && setter.isUndefined) = false ->
      let result := Exec.defineAccessor target key getter setter env machine
      machine.DefinesOrThrows target key
          (.ofAccessors
            (if getter.isUndefined then (Property.halves current).1 else getter)
            (if setter.isUndefined then (Property.halves current).2 else setter) true true)
          result ∨
        ¬ machine.Admits target key ∧ result = .ok () machine) ∧
    (∀ (source : ObjectId) (receiver value : Value) (read : Machine σ),
      machine.ownsEnumerable source key = true ->
      Exec.getWithReceiver source key receiver env machine = .ok value read ->
      value.isHole = false ->
      let result := Exec.copyProperty target source receiver key env machine
      read.DefinesOrThrows target key (.plain value) result ∨
        ¬ read.Admits target key ∧ result = .ok () read) ∧
    ∀ text unit index, (unit, index) ∈ (Text.units16 text).zipIdx ->
      let value : Value := .string (Text.ofUnit unit)
      let result :=
        (do let _ <- Exec.createDataProperty target (.index index) value : Exec σ Unit) env machine
      machine.DefinesOrThrows target (.index index) (.plain value) result ∨
        ¬ machine.Admits target (.index index) ∧ result = .ok () machine := by
  intro env current
  have unwatched : ∀ seen, env.watch seen = false := fun _ => rfl
  refine ⟨fun value whole => Exec.definesOrThrows_defineField unwatched machine target key whole,
    fun method kind whole =>
      Exec.definesOrThrows_defineMethod unwatched machine target key whole kind,
    fun getter setter half => Exec.defines_defineAccessor unwatched machine target key half,
    fun source receiver value read shown reads whole => ?_,
    fun text unit index _ => Exec.defines_createDataProperty unwatched machine target _ rfl⟩
  have copies : Exec.copyProperty target source receiver key env machine =
      (do let _ <- Exec.createDataProperty target key value : Exec σ Unit) env read := by
    unfold Exec.copyProperty
    rw [Exec.ask_bind, if_pos shown]
    exact Exec.bind_of_ok _ reads
  rw [copies]
  exact Exec.defines_createDataProperty unwatched read target key whole

/-- An embedder makes an object with a property and one without. -/
def copyingProgram : HostProgram Unit :=
  .request .createObject fun source =>
    .request (.createDataProperty (source.objectId?.getD ⟨0⟩) "x" .null) fun _ =>
      .request .createObject fun target => .finish (.ok target)

/-- Field, method, accessor and copy are all defined on the new object. -/
theorem definitions_define_or_throw_copyingProgram :
    ∃ (sight : Sight Unit) (source target : ObjectId), sight.Visible ∧
      sight.machine.getOwnProperty? target "x" = none ∧
      sight.machine.DefinesOrThrows target "x" (.plain .null)
        (Exec.defineField target "x" .null (Env.ofFuel 9) sight.machine) ∧
      sight.machine.DefinesOrThrows target "x" (.hidden .null)
        (Exec.defineMethod target "x" .null .method (Env.ofFuel 9) sight.machine) ∧
      sight.machine.DefinesOrThrows target "x" (.ofAccessors .null .undefined true true)
        (Exec.defineAccessor target "x" .null .undefined (Env.ofFuel 9) sight.machine) ∧
      sight.machine.DefinesOrThrows target "x" (.plain .null)
        (Exec.copyProperty target source (.object source) "x" (Env.ofFuel 9) sight.machine) := by
  have seen : ∃ ended ∈ Exec.ended? ((Builtins.newMachine {} ()).runWithin 20 copyingProgram),
      ∃ target ∈ ended.1.objectId?, ended.2.getOwnProperty? target "x" = none ∧
        ended.2.isExtensible target = true ∧
        (ended.2.behindProxies? target).bind ended.2.arrayStatus? = none ∧
        ended.2.ownsEnumerable ⟨target.index - 1⟩ "x" = true ∧
        ended.2.isProxy ⟨target.index - 1⟩ = false ∧
        0 < ended.2.config.maxPrototypeChain ∧
        ended.2.getOwnProperty? ⟨target.index - 1⟩ "x" = some (.plain .null) := by
    decide +kernel
  obtain ⟨⟨_, machine⟩, ended, target, _, missing, extensible, simple, shown, bare, room, held⟩ :=
    seen
  have visible : Sight.Visible { machine } :=
    .between (.returned (.new {} ()) (Exec.eq_of_ended? ended))
  have admits : machine.Admits target "x" := by
    unfold Machine.Admits
    rw [missing, simple]
    exact ⟨extensible, fun _ => nofun⟩
  have reads : Exec.getWithReceiver ⟨target.index - 1⟩ "x" (.object ⟨target.index - 1⟩)
      (Env.ofFuel 9) machine = .ok .null machine :=
    Exec.getWithReceiver_of_own room bare held rfl _ _
  obtain ⟨field, method, accessor, copy, -⟩ := definitions_define_or_throw machine 9 target "x"
  have literal := accessor .null .undefined rfl
  rw [show machine.getOwnProperty? target "x" = none from missing] at literal
  exact ⟨{ machine }, ⟨target.index - 1⟩, target, visible, missing, field .null rfl,
    method .null .method rfl, literal.resolve_right fun passes => passes.1 admits,
    (copy _ _ .null machine shown reads rfl).resolve_right fun passes => passes.1 admits⟩

/-- An embedder freezes an object. -/
def freezingProgram : HostProgram Unit :=
  .request .createObject fun object =>
    .request (.freeze (object.objectId?.getD ⟨0⟩)) fun _ => .finish (.ok object)

/-- An accessor of a frozen object is passed over: the definition returns and there is none. A
field of the same object is thrown back. -/
theorem frozen_object_swallows_accessor :
    ∃ (sight : Sight Unit) (target : ObjectId), sight.Visible ∧
      let getter : Value := .function sight.machine.intrinsics.functionPrototype
      Exec.defineAccessor target "x" getter .undefined (Env.ofFuel 9) sight.machine =
        .ok () sight.machine ∧
      sight.machine.getOwnProperty? target "x" = none ∧
      ∃ exception, Exec.defineField target "x" getter (Env.ofFuel 9) sight.machine =
        .error (.thrown exception) sight.machine := by
  have seen : ∃ ended ∈ Exec.ended? ((Builtins.newMachine {} ()).runWithin 20 freezingProgram),
      ∃ target ∈ ended.1.objectId?, ended.2.getOwnProperty? target "x" = none ∧
        ended.2.isExtensible target = false ∧
        ended.2.isProxy target = false ∧ ended.2.arrayStatus? target = none := by
    decide +kernel
  obtain ⟨⟨_, machine⟩, ended, target, _, missing, closed, bare, simple⟩ := seen
  have visible : Sight.Visible { machine } :=
    .between (.returned (.new {} ()) (Exec.eq_of_ended? ended))
  have refused (descriptor : Descriptor) : Exec.defineOwnProperty target "x" descriptor
      (Env.ofFuel 9) machine = .ok false machine :=
    Exec.defineOwnProperty_of_closed (fun _ => rfl) (Machine.behindProxies?_of_bare bare) simple
      missing closed descriptor
  exact ⟨{ machine }, target, visible, Exec.bind_of_ok _ (refused _), missing, _,
    Exec.bind_of_ok _ (refused _)⟩

end ScriptVM

import ScriptVM.Proofs.StoredProperties
import ScriptVM.Proofs.OwnKeys
import ScriptVM.Proofs.PinnedProperties

/-!
# Closed objects

An object that takes no new properties never takes any again, and whatever a machine goes on
with, it owns no key that it did not own. Only the elements of an array that is not frozen are
out of this: one may be pushed, or fill a gap, though none is defined beyond the end.
-/

namespace ScriptVM

variable {σ : Type}

/-! ## What closed objects keep -/

namespace HeapObject

/-- A closed object stays closed, and of the keys in question its table gets none. -/
structure Closes (key? : Option PropertyKey) (before after : HeapObject ObjectKind) : Prop where
  payload : before.payload.Endures after.payload
  closed : before.extensible = false -> after.extensible = false
  keys : ∀ key, (∀ only ∈ key?, only = key) -> before.extensible = false ->
    key ∈ after.properties.keys -> key ∈ before.properties.keys

namespace Closes

variable {key? : Option PropertyKey} {first second third : HeapObject ObjectKind}

theorem refl (object : HeapObject ObjectKind) : object.Closes key? object where
  payload := .same _
  closed closed := closed
  keys _ _ _ listed := listed

theorem trans (earlier : first.Closes key? second) (later : second.Closes key? third) :
    first.Closes key? third where
  payload := earlier.payload.trans later.payload
  closed closed := later.closed (earlier.closed closed)
  keys key asked closed listed :=
    earlier.keys key asked closed (later.keys key asked (earlier.closed closed) listed)

/-- A property may be put where its key is not in question, is there, or finds room. -/
theorem put
    (shape : ShapeId)
    {key : PropertyKey}
    {property : Property}
    (room : (∀ only ∈ key?, only = key) -> first.extensible = false ->
      key ∈ first.properties.keys) :
    first.Closes key? { first with shape, properties := first.properties.put key property } where
  payload := .same _
  closed closed := closed
  keys other asked closed listed := by
    rcases PropertyTable.mem_keys_put.1 listed with old | rfl
    · exact old
    · exact room asked closed

end Closes

theorem Step.closes
    {first second : HeapObject ObjectKind}
    (step : first.Step second)
    (key? : Option PropertyKey) :
    first.Closes key? second := by
  cases step with
  | inner payload properties extensible =>
      exact ⟨payload, extensible, fun key _ _ listed => properties ▸ listed⟩
  | @put key _ shape _ room =>
      refine .put shape fun _ closed => ?_
      by_contra absent
      rw [room (PropertyTable.get?_eq_none_iff.2 absent)] at closed
      cases closed
  | erase =>
      refine ⟨.same _, id, fun key _ _ listed => ?_⟩
      dsimp only at listed
      rw [PropertyTable.keys_eraseAt] at listed
      exact List.mem_of_mem_eraseIdx listed

end HeapObject

namespace Pin

variable {pin : Pin} {before after : Machine σ}

instance (pin : Pin) : pin.Admits (HeapObject.Closes pin.key?) where
  refl := .refl
  trans := .trans
  step step _ := step.closes pin.key?
  put _ shape _ apart := .put shape fun covered => absurd covered apart
  setAt _ _ _ _ := ⟨.same _, id, fun _ _ _ listed => by rwa [PropertyTable.keys_setAt] at listed⟩

/-- A closed object stays closed over any number of runs. -/
theorem closes_of_leads (leads : Relation.ReflTransGen pin.Leads before after) :
    pin.Passes (HeapObject.Closes pin.key?) before after :=
  admitted_of_leads leads

end Pin

namespace Machine

variable {machine before after : Machine σ} {id holder : ObjectId}
  {object later : HeapObject ObjectKind} {key : PropertyKey}

theorem isExtensible_of_live (live : machine.heap.get? id = some object) :
    machine.heap.isExtensible id = object.extensible := by
  unfold Heap.isExtensible
  rw [live]
  rfl

theorem isExtensible_of_behind (behind : machine.behindProxies? holder = some id) :
    machine.isExtensible holder = machine.heap.isExtensible id := by
  unfold isExtensible
  rw [behind]

/-- The own keys of a closed object that come up later are those of elements that its array
allows to be written. -/
theorem mem_ordinaryOwnKeys_of_closes
    {key? : Option PropertyKey}
    (live : before.heap.get? id = some object)
    (stands : after.heap.get? id = some later)
    (closes : object.Closes key? later)
    (asked : ∀ only ∈ key?, only = key)
    (closed : object.extensible = false)
    (listed : key ∈ after.ordinaryOwnKeys id)
    (absent : key ∉ before.ordinaryOwnKeys id) :
    ∃ size place, before.arrayStatus? id = some (size, false) ∧ key = .index place := by
  rw [mem_ordinaryOwnKeys_iff live, not_or] at absent
  rcases (mem_ordinaryOwnKeys_iff stands).1 listed with ⟨last, array, exotic⟩ | table
  · obtain ⟨first, slots, same⟩ : ∃ first, object.payload = .array first ∧
        (first.frozen = true -> last = first) := by
      have endures := closes.payload
      rw [array] at endures
      generalize object.payload = payload at endures
      cases endures with
      | same => exact ⟨last, rfl, fun _ => rfl⟩
      | array first _ kept => exact ⟨first, rfl, kept⟩
      | plain _ _ _ impossible => cases impossible
    have loose : first.frozen = false := by
      refine Bool.eq_false_iff.2 fun frozen => ?_
      rw [same frozen] at exotic
      exact absent.1 ⟨first, slots, exotic⟩
    rcases exotic with length | ⟨place, named, _⟩
    · exact absurd ⟨first, slots, .inl length⟩ absent.1
    · refine ⟨first.elements.size, place, ?_, named.symm⟩
      unfold arrayStatus?
      rw [kind?_of_live live, slots, ← loose]
  · exact absurd (closes.keys key asked closed table) absent.2

/-- What becomes of a closed array when something is put under the key of an element: it stays
as it is, or it is written within its length and gains that key at most. -/
inductive GainsAtMost (machine : Machine σ) (id : ObjectId) (key : PropertyKey) (within : Prop) :
    EStateM.Result (Stop σ) (Machine σ) Bool -> Prop
  | refuses : GainsAtMost machine id key within (.ok false machine)
  | stops (stop : Stop σ) : GainsAtMost machine id key within (.error stop machine)
  | puts {done : Bool} {after : Machine σ} :
      within -> (∀ other ∈ after.ownKeys id, other ∈ machine.ownKeys id ∨ other = key) ->
      GainsAtMost machine id key within (.ok done after)

/-- An element of a closed array is set, unless it is beyond the end or the array frozen. -/
theorem gainsAtMost_setElement
    (live : machine.heap.get? id = some object)
    {store : ArrayStore}
    (array : object.payload = .array store)
    (closed : machine.heap.isExtensible id = false)
    {index : Nat}
    (indexed : key.arrayIndex? = some index)
    (value : Value) :
    machine.GainsAtMost id key (index < store.elements.size)
      (settled (machine.setElement id index value)) := by
  have status : machine.arrayStatus? id = some (store.elements.size, store.frozen) := by
    unfold arrayStatus?
    rw [kind?_of_live live, array]
  have bare : machine.isProxy id = false := isProxy_of_array status
  unfold setElement
  rw [status, closed]
  cases store.frozen with
  | true => exact .refuses
  | false =>
      dsimp only
      split
      · next within =>
          have changes : machine.ChangesOnly (fun other => other = key ∨ other = lengthKey) id
              (machine.modifyElements id fun elements => elements.setIfInBounds index value) := by
            refine .modifyElements live array _ (.inr rfl) fun place apart => ?_
            have elsewhere : index ≠ place := fun same =>
              apart (.inl (same ▸ PropertyKey.index_of_arrayIndex? indexed))
            unfold ArrayStore.own?
            rw [Array.getElem?_setIfInBounds_ne elsewhere]
          refine .puts within fun other listed => ?_
          by_cases same : other = key
          · exact .inr same
          · by_cases length : other = lengthKey
            · rw [length, ownKeys_of_behind (behindProxies?_of_bare bare)]
              exact .inl (length_mem_ordinaryOwnKeys live array)
            · exact .inl ((changes.mem_ownKeys (not_or.2 ⟨same, length⟩)).1 listed)
      · exact .refuses

/-- An object that is no proxy owns what it did while it is not touched. -/
theorem ownKeys_of_untouched
    (live : before.heap.get? id = some object)
    (stands : after.heap.get? id = some object)
    (bare : before.isProxy id = false) :
    after.ownKeys id = before.ownKeys id := by
  have kind : after.kind? id = before.kind? id :=
    (kind?_of_live stands).trans (kind?_of_live live).symm
  have still : after.isProxy id = false := by
    unfold isProxy
    rw [kind]
    exact bare
  rw [ownKeys_of_behind (behindProxies?_of_bare bare),
    ownKeys_of_behind (behindProxies?_of_bare still)]
  unfold ordinaryOwnKeys
  rw [kind, ownKeys_of_live live, ownKeys_of_live stands]

end Machine

/-! ## Putting elements -/

namespace Exec

/-- What puts something under a key of the holder, or of what is behind it: any definition, and
the assignment in which a set ends after its walk along the prototypes. -/
inductive Puts (holder : ObjectId) (key : PropertyKey) : Exec σ Bool -> Prop
  | define (descriptor : Descriptor) : Puts holder key (defineOwnProperty holder key descriptor)
  | assign {receiver : Value} (value : Value) : receiver.objectId? = some holder ->
      Puts holder key (assignOwn receiver key value)

variable {env : Env σ} {machine : Machine σ} {holder id : ObjectId}
  {object : HeapObject ObjectKind} {key : PropertyKey}

section Arrays

variable (unwatched : ∀ seen, env.watch seen = false)
  (behind : machine.behindProxies? holder = some id)
  (live : machine.heap.get? id = some object)
  {store : ArrayStore} (array : object.payload = .array store)
  (closed : machine.heap.isExtensible id = false)
  {index : Nat} (indexed : key.arrayIndex? = some index)

include unwatched behind live array closed indexed

theorem gainsAtMost_defineOwnProperty (descriptor : Descriptor) :
    machine.GainsAtMost id key (index < store.elements.size)
      (defineOwnProperty holder key descriptor env machine) := by
  have status : machine.arrayStatus? id = some (store.elements.size, store.frozen) := by
    unfold Machine.arrayStatus?
    rw [Machine.kind?_of_live live, array]
  cases loose : store.frozen with
  | true =>
      rw [loose] at status
      rw [defineOwnProperty_of_frozen behind status indexed]
      exact .refuses
  | false =>
      rw [loose] at status
      rw [defineOwnProperty_of_element behind status indexed]
      unfold defineElement
      split
      · exact .stops _
      · rw [changeOrRaise_of_unwatched unwatched]
        exact Machine.gainsAtMost_setElement live array closed indexed _

/-- The assignment to a property that the holder has gives the object behind it no key. -/
theorem gainsAtMost_writeOwnValue
    {property : Property}
    (held : machine.getOwnProperty? holder key = some property)
    (value : Value) :
    machine.GainsAtMost id key (index < store.elements.size)
      (writeOwnValue holder key value env machine) := by
  have bare := Machine.isProxy_of_throughProxies behind
  have present : machine.kind? id = some (.array store) :=
    (Machine.kind?_of_live live).trans (congrArg some array)
  cases veiled : machine.isProxy holder with
  | false =>
      cases (Machine.behindProxies?_of_bare veiled).symm.trans behind
      have status : machine.arrayStatus? holder = some (store.elements.size, store.frozen) := by
        unfold Machine.arrayStatus?
        rw [present]
      rw [writeOwnValue_of_element status indexed, changeOrRaise_of_unwatched unwatched]
      exact Machine.gainsAtMost_setElement live array closed indexed value
  | true =>
      obtain ⟨target, handler, proxy⟩ := Machine.exists_proxy_of_isProxy veiled
      have within : index < store.elements.size := by
        rw [Machine.getOwnProperty?_of_behind behind,
          Machine.ordinaryOwnProperty?_of_index present indexed] at held
        by_contra beyond
        rw [ArrayStore.own?_of_size_le (Nat.not_lt.1 beyond)] at held
        cases held
      have apart : holder ≠ id := by
        rintro rfl
        rw [bare] at veiled
        cases veiled
      have status : machine.arrayStatus? holder = none := by
        unfold Machine.arrayStatus?
        rw [proxy]
      rw [writeOwnValue_of_table (fun array => by rw [status] at array; cases array),
        change_of_unwatched unwatched]
      unfold overwrite
      split
      · exact .refuses
      · refine .puts within fun other listed => .inl ?_
        rwa [Machine.ownKeys_of_untouched live
          ((Heap.get?_define_of_ne apart key _).trans live) bare] at listed

/-- Under the key of an element, a closed array takes nothing beyond its end. -/
theorem Puts.gainsAtMost {computation : Exec σ Bool} (puts : Puts holder key computation) :
    machine.GainsAtMost id key (index < store.elements.size) (computation env machine) := by
  cases puts with
  | define descriptor =>
      exact gainsAtMost_defineOwnProperty unwatched behind live array closed indexed descriptor
  | assign value named =>
      cases held : machine.getOwnProperty? holder key with
      | none =>
          rw [assignOwn_of_missing named held]
          exact gainsAtMost_defineOwnProperty unwatched behind live array closed indexed _
      | some property =>
          rw [assignOwn_of_present named held]
          split
          · exact gainsAtMost_writeOwnValue unwatched behind live array closed indexed held value
          · exact .refuses

end Arrays
end Exec

/-- Closed objects gain nothing: in all that an embedder can come across, an object that takes no
new properties takes none after any number of runs, and it owns no key that it did not own,
unless that is the index of an element and the object an array that is not frozen. Such an array
gains an element by a definition or an assignment only where one is missing within its length. The
runs may be of any kind, with the holder alive and nothing on the way that overwrites the
property in question without a check. -/
theorem closed_objects_gain_nothing
    {sight : Sight σ}
    (visible : sight.Visible)
    {holder object : ObjectId}
    (behind : sight.machine.behindProxies? holder = some object)
    (live : sight.machine.heap.contains object = true)
    (closed : sight.machine.isExtensible holder = false) :
    (∀ (key : PropertyKey) (later : Machine σ),
      let pin : Pin := ⟨holder, object, some key, sight.machine.intrinsics.global⟩
      sight.machine.Spares pin.Reserves ->
      Relation.ReflTransGen pin.Leads sight.machine later ->
      later.isExtensible holder = false ∧
        (key ∈ later.ownKeys holder -> key ∈ sight.machine.ownKeys holder ∨
          ∃ size place, sight.machine.arrayStatus? object = some (size, false) ∧
            key = .index place)) ∧
    (∀ (key : PropertyKey) (index size : Nat) (frozen : Bool),
      key.arrayIndex? = some index ->
      sight.machine.arrayStatus? object = some (size, frozen) ->
      ∀ (computation : Exec σ Bool) (fuel : Nat), Exec.Puts holder key computation ->
        sight.machine.GainsAtMost object key (index < size)
          (computation (Env.ofFuel fuel) sight.machine)) := by
  obtain ⟨found, alive⟩ := Heap.contains_iff.1 live
  rw [Machine.isExtensible_of_behind behind] at closed
  refine ⟨?_, ?_⟩
  · intro key later pin spares leads
    have stands : pin.Stands sight.machine := visible.stands behind live rfl spares
    have passes := Pin.closes_of_leads leads
    have still := (passes.stands stands).behind
    obtain ⟨last, stays, closes⟩ := passes.keeps stands found alive
    rw [Machine.isExtensible_of_live alive] at closed
    refine ⟨?_, fun listed => ?_⟩
    · rw [Machine.isExtensible_of_behind still, Machine.isExtensible_of_live stays]
      exact closes.closed closed
    · rw [Machine.ownKeys_of_behind still] at listed
      rw [Machine.ownKeys_of_behind behind, or_iff_not_imp_left]
      exact Machine.mem_ordinaryOwnKeys_of_closes alive stays closes
        (fun only member => (Option.some.inj member).symm) closed listed
  · intro key index size frozen indexed status computation fuel puts
    obtain ⟨store, present⟩ := Machine.exists_store_of_array status
    have array : found.payload = .array store :=
      Option.some.inj ((Machine.kind?_of_live alive).symm.trans present)
    unfold Machine.arrayStatus? at status
    rw [present] at status
    cases status
    exact puts.gainsAtMost (fun _ => rfl) behind alive array closed indexed

/-- A program that closes an array with a gap. -/
def closeProgram : HostProgram Unit :=
  .request (.createArray [.null, .null]) fun array =>
    .request (.delete array "0" true) fun _ =>
      .request (.preventExtensions (array.objectId?.getD ⟨0⟩)) fun _ => .finish (.ok .undefined)

/-- The run of the program until the array is closed. -/
def closeRun : EStateM.Result (Stop Unit) (Machine Unit) Value :=
  Exec.runProgram closeProgram
    (Env.watched 20 fun sight =>
      let id : ObjectId := ⟨sight.machine.heap.objects.size - 1⟩
      (sight.machine.arrayStatus? id).isSome && !sight.machine.isExtensible id)
    (Builtins.newMachine {} ())

/-- The indices are written in digits. -/
theorem PropertyKey.ne_index
    {name : String}
    {char : Char}
    (member : char ∈ name.toList)
    (other : char.isDigit = false)
    (place : Nat) :
    PropertyKey.string name ≠ .index place := by
  intro same
  have digits : name = String.ofList (Number.digitChars place) := PropertyKey.string.inj same
  rw [digits, String.toList_ofList] at member
  have digit := Nat.isDigit_of_mem_toDigits (by decide) (by decide) member
  rw [other] at digit
  cases digit

/-- A closed array gets no other property, though an embedder writes to it, and no element beyond
its end. -/
theorem closed_objects_gain_nothing_closeRun :
    ∃ sight ∈ Sight.ofRun? closeRun, ∃ (id : ObjectId) (later : Machine Unit),
      later ∈ Machine.ofRun? (writeRun id sight.machine) ∧
        later.getGlobal? "y" = some .null ∧ sight.machine.getGlobal? "y" = none ∧
        later.isExtensible id = false ∧ (.string "x") ∉ later.ownKeys id ∧
        ∀ answer after, Exec.createDataProperty id "2" .null (Env.ofFuel 0) sight.machine =
          .ok answer after -> answer = false ∧ after = sight.machine := by
  have seen : ∃ sight ∈ Sight.ofRun? closeRun,
      let id : ObjectId := ⟨sight.machine.heap.objects.size - 1⟩
      sight.machine.heap.contains id = true ∧ sight.machine.isProxy id = false ∧
      id ≠ sight.machine.intrinsics.global ∧ sight.machine.isExtensible id = false ∧
      sight.machine.arrayStatus? id = some (2, false) ∧
      (.string "x") ∉ sight.machine.ownKeys id ∧
      ∃ later ∈ Machine.ofRun? (writeRun id sight.machine),
        later.getGlobal? "y" = some .null ∧ sight.machine.getGlobal? "y" = none := by
    decide +kernel
  obtain ⟨sight, interrupted, live, bare, apart, closed, array, absent, later, ended, set,
    unset⟩ := seen
  have index : (PropertyKey.string "2").arrayIndex? = some 2 := by
    decide +kernel
  obtain ⟨runs, puts⟩ := closed_objects_gain_nothing (Sight.visible_of_ofRun? interrupted)
    (Machine.behindProxies?_of_bare bare) live closed
  obtain ⟨still, gains⟩ := runs "x" later (sight.machine.spares_of_ne apart)
    (.single (Pin.leads_writeRun apart ended _))
  refine ⟨sight, interrupted, _, later, ended, set, unset, still, fun listed => ?_,
    fun answer after defined => ?_⟩
  · rcases gains listed with old | ⟨_, place, _, same⟩
    · exact absent old
    · have written : 'x' ∈ "x".toList := .head _
      exact PropertyKey.ne_index written rfl place same
  · have outcome := puts "2" 2 2 false index array _ 0 (.define (.plain .null))
    unfold Exec.createDataProperty at defined
    rw [defined] at outcome
    cases outcome with
    | refuses => exact ⟨rfl, rfl⟩
    | puts within _ => exact absurd within (Nat.lt_irrefl 2)

/-- A push onto a closed array gives it an element, and so does the definition of one in a
gap. -/
theorem pushes_extend_closed_arrays :
    ∃ sight : Sight Unit, sight.Visible ∧ ∃ id, sight.machine.heap.contains id = true ∧
      sight.machine.isExtensible id = false ∧
      (∃ later ∈ Machine.ofRun? (Builtins.run .arrayPush (.object id) [.null] (Env.ofFuel 20)
          sight.machine),
        (.string "2") ∉ sight.machine.ownKeys id ∧ (.string "2") ∈ later.ownKeys id) ∧
      ∃ later ∈ Machine.ofRun? (Exec.createDataProperty id "0" .null (Env.ofFuel 0)
          sight.machine),
        (.string "0") ∉ sight.machine.ownKeys id ∧ (.string "0") ∈ later.ownKeys id := by
  have seen : ∃ sight ∈ Sight.ofRun? closeRun,
      let id : ObjectId := ⟨sight.machine.heap.objects.size - 1⟩
      sight.machine.heap.contains id = true ∧ sight.machine.isExtensible id = false ∧
      (∃ later ∈ Machine.ofRun? (Builtins.run .arrayPush (.object id) [.null] (Env.ofFuel 20)
          sight.machine),
        (.string "2") ∉ sight.machine.ownKeys id ∧
        later.getOwnProperty? id "2" = some (.ofData .null true true true)) ∧
      ∃ later ∈ Machine.ofRun? (Exec.createDataProperty id "0" .null (Env.ofFuel 0)
          sight.machine),
        (.string "0") ∉ sight.machine.ownKeys id ∧
        later.getOwnProperty? id "0" = some (.ofData .null true true true) := by
    decide +kernel
  obtain ⟨sight, interrupted, live, closed, ⟨pushed, push, unpushed, element⟩,
    filled, fill, missing, held⟩ := seen
  exact ⟨sight, Sight.visible_of_ofRun? interrupted, _, live, closed,
    ⟨pushed, push, unpushed, Machine.mem_ownKeys_of_own element⟩,
    filled, fill, missing, Machine.mem_ownKeys_of_own held⟩

end ScriptVM

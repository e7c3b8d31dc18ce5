import ScriptVM.Proofs.OwnKeys
import ScriptVM.Proofs.WalkSteps

/-!
# Rules of property definitions

The ES algorithm `ValidateAndApplyPropertyDescriptor` says which definitions of a property are
accepted and what property they give. On objects that are neither arrays nor proxies a machine
follows it, except that it compares the halves of accessors by strict equality, where the
algorithm asks for the same value. That makes a difference only for halves that are numbers.
-/

namespace ScriptVM

variable {σ : Type}

namespace Descriptor

variable {sameHalf : Value -> Value -> Bool} {descriptor : Descriptor}

/-! ## The algorithm -/

/-- The rules for a property that is not configurable: it keeps its attributes and its kind, an
accessor keeps its halves, and data that is not writable keeps its value. -/
structure Respects (sameHalf : Value -> Value -> Bool) (current : Property)
    (descriptor : Descriptor) : Prop where
  configurable : descriptor.configurable ≠ some true
  enumerable : ∀ asked, descriptor.enumerable = some asked -> asked = current.enumerable
  data : descriptor.isData = true -> current.isData = true
  accessor : descriptor.isAccessor = true -> current.isData = false
  getter : ∀ getter setter asked, current.slot = .accessor getter setter ->
    descriptor.get = some asked -> sameHalf asked getter = true
  setter : ∀ getter setter asked, current.slot = .accessor getter setter ->
    descriptor.set = some asked -> sameHalf asked setter = true
  writable : ∀ value, current.slot = .data value false -> descriptor.writable ≠ some true
  value : ∀ value asked, current.slot = .data value false ->
    descriptor.value = some asked -> asked.same value = true

/-- The algorithm accepts the descriptor, for a property that there is or for a new one. -/
def Accepted (sameHalf : Value -> Value -> Bool) (extensible : Bool) (descriptor : Descriptor) :
    Option Property -> Prop
  | none => extensible = true
  | some current => current.configurable = true ∨ descriptor.Respects sameHalf current

/-- The slot of a property that is created or changes its kind: absent fields take defaults. -/
def newSlot (descriptor : Descriptor) : Slot :=
  if descriptor.isAccessor then
    .accessor (descriptor.get.getD .undefined) (descriptor.set.getD .undefined)
  else .data (descriptor.value.getD .undefined) (descriptor.writable.getD false)

/-- The slot of a property that keeps its kind: absent fields stay as they are. -/
def keptSlot (descriptor : Descriptor) : Slot -> Slot
  | .data value writable =>
      .data (descriptor.value.getD value) (descriptor.writable.getD writable)
  | .accessor getter setter =>
      .accessor (descriptor.get.getD getter) (descriptor.set.getD setter)

/-- The descriptor asks for the other kind of property. -/
def converts (descriptor : Descriptor) (current : Property) : Bool :=
  if current.isData then descriptor.isAccessor else descriptor.isData

/-- The property that the algorithm gives. -/
def applied (descriptor : Descriptor) : Option Property -> Property
  | none =>
      { slot := descriptor.newSlot
        enumerable := descriptor.enumerable.getD false
        configurable := descriptor.configurable.getD false }
  | some current =>
      { slot :=
          if descriptor.converts current then descriptor.newSlot
          else descriptor.keptSlot current.slot
        enumerable := descriptor.enumerable.getD current.enumerable
        configurable := descriptor.configurable.getD current.configurable }

/-! ## The machine's way -/

theorem isCompatible_data {value : Value} {writable enumerable : Bool} :
    descriptor.isCompatible ⟨.data value writable, enumerable, false⟩ = true ↔
      descriptor.configurable ≠ some true ∧
        (∀ asked, descriptor.enumerable = some asked -> asked = enumerable) ∧
        descriptor.isAccessor = false ∧ (writable = false -> descriptor.writable ≠ some true ∧
          ∀ asked, descriptor.value = some asked -> asked.same value = true) := by
  unfold isCompatible
  cases writable <;> simp [Option.all_eq_true, Option.any_eq_false]

theorem isCompatible_accessor {getter setter : Value} {enumerable : Bool} :
    descriptor.isCompatible ⟨.accessor getter setter, enumerable, false⟩ = true ↔
      descriptor.configurable ≠ some true ∧
        (∀ asked, descriptor.enumerable = some asked -> asked = enumerable) ∧
        descriptor.isData = false ∧
        (∀ asked, descriptor.get = some asked -> asked.strictlyEquals getter = true) ∧
          ∀ asked, descriptor.set = some asked -> asked.strictlyEquals setter = true := by
  unfold isCompatible
  simp [Option.all_eq_true, Option.any_eq_false]

/-- What is compatible with a property is what respects it. -/
theorem isCompatible_iff {current : Property} :
    descriptor.isCompatible current = true ↔
      current.configurable = true ∨ descriptor.Respects Value.strictlyEquals current := by
  obtain ⟨slot, enumerable, configurable⟩ := current
  cases configurable with
  | true => simp [isCompatible]
  | false =>
      rw [or_iff_right Bool.false_ne_true]
      cases slot with
      | data value writable =>
          rw [isCompatible_data]
          constructor
          · rintro ⟨configures, enumerates, data, locked⟩
            refine ⟨configures, enumerates, fun _ => rfl, fun accessor => ?_, ?_, ?_, ?_, ?_⟩
            · exact absurd accessor (Bool.eq_false_iff.1 data)
            · rintro _ _ _ ⟨⟩
            · rintro _ _ _ ⟨⟩
            · rintro _ ⟨⟩
              exact (locked rfl).1
            · rintro _ asked ⟨⟩
              exact (locked rfl).2 asked
          · intro respects
            refine ⟨respects.configurable, respects.enumerable, ?_, ?_⟩
            · refine Bool.eq_false_iff.2 fun accessor => ?_
              cases respects.accessor accessor
            · rintro rfl
              exact ⟨respects.writable value rfl, fun asked => respects.value value asked rfl⟩
      | accessor getter setter =>
          rw [isCompatible_accessor]
          constructor
          · rintro ⟨configures, enumerates, accessor, gets, sets⟩
            refine ⟨configures, enumerates, fun data => ?_, fun _ => rfl, ?_, ?_, ?_, ?_⟩
            · exact absurd data (Bool.eq_false_iff.1 accessor)
            · rintro _ _ asked ⟨⟩
              exact gets asked
            · rintro _ _ asked ⟨⟩
              exact sets asked
            · rintro _ ⟨⟩
            · rintro _ _ ⟨⟩
          · intro respects
            refine ⟨respects.configurable, respects.enumerable, ?_,
              fun asked => respects.getter getter setter asked rfl,
              fun asked => respects.setter getter setter asked rfl⟩
            refine Bool.eq_false_iff.2 fun data => ?_
            cases respects.data data

/-- Strict equality tells values apart like sameness does, unless the value that is there is a
number. -/
theorem strictlyEquals_eq_same
    {held : Value}
    (other : ∀ number, held ≠ .number number)
    (asked : Value) :
    asked.strictlyEquals held = asked.same held := by
  cases held with
  | number number => exact absurd rfl (other number)
  | _ => cases asked <;> rfl

/-- It does not matter how halves are compared that are no numbers. -/
theorem accepted_same_iff
    {extensible : Bool}
    {current : Option Property}
    (halves : ∀ property getter setter, current = some property ->
      property.slot = .accessor getter setter -> ∀ number,
        getter ≠ .number number ∧ setter ≠ .number number) :
    descriptor.Accepted Value.same extensible current ↔
      descriptor.Accepted Value.strictlyEquals extensible current := by
  cases current with
  | none => exact Iff.rfl
  | some property =>
      refine or_congr_right ⟨fun respects => { respects with getter := ?_, setter := ?_ },
        fun respects => { respects with getter := ?_, setter := ?_ }⟩
      · intro getter setter asked slot asks
        rw [strictlyEquals_eq_same fun number => (halves property _ _ rfl slot number).1]
        exact respects.getter getter setter asked slot asks
      · intro getter setter asked slot asks
        rw [strictlyEquals_eq_same fun number => (halves property _ _ rfl slot number).2]
        exact respects.setter getter setter asked slot asks
      · intro getter setter asked slot asks
        rw [← strictlyEquals_eq_same fun number => (halves property _ _ rfl slot number).1]
        exact respects.getter getter setter asked slot asks
      · intro getter setter asked slot asks
        rw [← strictlyEquals_eq_same fun number => (halves property _ _ rfl slot number).2]
        exact respects.setter getter setter asked slot asks

/-- For a descriptor that does not mix both kinds, the result of a merge is that of the
algorithm. -/
theorem merge_eq_applied
    (unmixed : descriptor.isAccessor = true -> descriptor.isData = false)
    (current : Option Property) :
    descriptor.merge current = descriptor.applied current := by
  have orElse : ∀ (asked : Option Bool) (held : Bool),
      (asked <|> some held).getD false = asked.getD held := by
    intro asked held
    cases asked <;> rfl
  cases current with
  | none => cases asks : descriptor.isAccessor <;> simp [merge, applied, mergeSlot, newSlot, asks]
  | some current =>
      have slot : descriptor.mergeSlot (some current.slot) =
          if descriptor.converts current then descriptor.newSlot
          else descriptor.keptSlot current.slot := by
        obtain ⟨slot, enumerable, configurable⟩ := current
        unfold mergeSlot converts newSlot
        cases asks : descriptor.isAccessor with
        | true => cases slot <;> simp [Property.isData, keptSlot, unmixed asks]
        | false =>
            cases slot with
            | data value writable => simp [Property.isData, keptSlot]
            | accessor getter setter =>
                -- A descriptor with neither kind of field has no halves to put in.
                obtain ⟨gets, sets⟩ : descriptor.get = none ∧ descriptor.set = none := by
                  simpa [isAccessor] using asks
                simp [Property.isData, keptSlot, gets, sets]
      unfold merge applied
      rw [Option.map_some, Option.map_some, Option.map_some, slot, orElse, orElse]

end Descriptor

/-! ## Definitions -/

namespace Exec

variable {machine : Machine σ} {id : ObjectId} {object : HeapObject ObjectKind}

/-- A definition on an object that is neither an array nor a proxy concerns its table. -/
theorem defineOwnProperty_of_ordinary
    {env : Env σ}
    (unwatched : ∀ seen, env.watch seen = false)
    (live : machine.heap.get? id = some object)
    (ordinary : object.payload.isExotic = false)
    (key : PropertyKey)
    (descriptor : Descriptor) :
    defineOwnProperty id key descriptor env machine =
      .ok (machine.defineOrdinary id key descriptor).1
        (machine.defineOrdinary id key descriptor).2 := by
  have bare : machine.isProxy id = false := by
    unfold Machine.isProxy
    rw [Machine.kind?_of_live live]
    exact ObjectKind.isProxy_of_ordinary ordinary
  have status : machine.arrayStatus? id = none := by
    unfold Machine.arrayStatus?
    rw [Machine.kind?_of_live live]
    cases present : object.payload with
    | array store =>
        rw [present] at ordinary
        cases ordinary
    | _ => rfl
  rw [defineOwnProperty_of_table (Machine.behindProxies?_of_bare bare) fun array => by
    rw [status] at array
    cases array]
  exact change_of_unwatched unwatched (fun machine => machine.defineOrdinary id key descriptor)
    machine

end Exec

namespace Machine

variable {machine : Machine σ} {id : ObjectId} {object : HeapObject ObjectKind}
  {descriptor : Descriptor}

/-- A definition in a table either follows the algorithm or changes nothing. -/
theorem defineOrdinary_cases
    (live : machine.heap.get? id = some object)
    (unmixed : descriptor.isAccessor = true -> descriptor.isData = false)
    (key : PropertyKey) :
    descriptor.Accepted Value.strictlyEquals object.extensible (object.properties.get? key) ∧
        machine.defineOrdinary id key descriptor =
          (true, machine.defineRaw id key (descriptor.applied (object.properties.get? key))) ∨
      ¬ descriptor.Accepted Value.strictlyEquals object.extensible (object.properties.get? key) ∧
        machine.defineOrdinary id key descriptor = (false, machine) := by
  have extensible : machine.heap.isExtensible id = object.extensible := by
    unfold Heap.isExtensible
    rw [live]
    rfl
  unfold defineOrdinary
  rw [Heap.getOwn?_of_live live, extensible, ← Descriptor.merge_eq_applied unmixed]
  cases held : object.properties.get? key with
  | none =>
      cases room : object.extensible with
      | true => exact .inl ⟨rfl, rfl⟩
      | false => exact .inr ⟨Bool.false_ne_true, rfl⟩
  | some current =>
      dsimp only
      split
      · next compatible => exact .inl ⟨Descriptor.isCompatible_iff.1 compatible, rfl⟩
      · next refused =>
          exact .inr ⟨fun accepted => refused (Descriptor.isCompatible_iff.2 accepted), rfl⟩

end Machine

/-- In all that an embedder can come across, a definition on an object that is neither an array
nor a proxy is accepted just if the rules accept it, up to the comparison of halves that are
numbers. What is accepted gives the property of the algorithm and leaves all others in their
order; what is refused changes nothing. -/
theorem definitions_follow_rules
    {sight : Sight σ}
    (visible : sight.Visible)
    {id : ObjectId}
    {kind : ObjectKind}
    (present : sight.machine.kind? id = some kind)
    (ordinary : kind.isExotic = false)
    (key : PropertyKey)
    {descriptor : Descriptor}
    (unmixed : descriptor.isAccessor = true -> descriptor.isData = false)
    (fuel : Nat) :
    let machine := sight.machine
    let current := machine.getOwnProperty? id key
    ∃ answer after,
      Exec.defineOwnProperty id key descriptor (Env.ofFuel fuel) machine = .ok answer after ∧
      (answer = true ↔
        descriptor.Accepted Value.strictlyEquals (machine.isExtensible id) current) ∧
      ((∀ property getter setter, current = some property ->
          property.slot = .accessor getter setter -> ∀ number,
            getter ≠ .number number ∧ setter ≠ .number number) ->
        (answer = true ↔ descriptor.Accepted Value.same (machine.isExtensible id) current)) ∧
      (answer = true -> after.getOwnProperty? id key = some (descriptor.applied current)) ∧
      (answer = false -> after = machine) ∧
      machine.ChangesOnly (· = key) id after := by
  obtain ⟨layout, laid⟩ := visible.laid
  obtain ⟨machine, used, between, misstep⟩ := sight
  dsimp only at present laid ⊢
  obtain ⟨object, live, rfl⟩ := Option.map_eq_some_iff.1 present
  have distinct := (laid.objects id object live).distinct
  have proxy := ObjectKind.isProxy_of_ordinary ordinary
  have bare : machine.isProxy id = false := by
    unfold Machine.isProxy
    rw [Machine.kind?_of_live live]
    exact proxy
  have behind := Machine.behindProxies?_of_bare bare
  have table : ∀ later : Machine σ, later.kind? id = machine.kind? id ->
      later.getOwnProperty? id key = later.heap.getOwn? id key := by
    intro later same
    rw [Machine.getOwnProperty?_of_kind? same bare]
    refine Machine.ordinaryOwnProperty?_of_table fun array => ?_
    unfold Machine.arrayStatus? at array
    rw [same, Machine.kind?_of_live live] at array
    cases slots : object.payload with
    | array store =>
        rw [slots] at ordinary
        cases ordinary
    | _ =>
        rw [slots] at array
        cases array
  have current : machine.getOwnProperty? id key = object.properties.get? key :=
    (table machine rfl).trans (Heap.getOwn?_of_live live key)
  have extensible : machine.isExtensible id = object.extensible := by
    unfold Machine.isExtensible Heap.isExtensible
    rw [behind]
    dsimp only
    rw [live]
    rfl
  rw [current, extensible]
  have unwatched : ∀ seen, (Env.ofFuel fuel : Env σ).watch seen = false := fun _ => rfl
  have defined := Exec.defineOwnProperty_of_ordinary unwatched live ordinary key descriptor
  rcases Machine.defineOrdinary_cases live unmixed key with ⟨accepted, outcome⟩ | ⟨refused, outcome⟩
  · rw [outcome] at defined
    refine ⟨true, _, defined, iff_of_true rfl accepted, fun halves => ?_, fun _ => ?_, nofun,
      .defineRaw live distinct proxy key _⟩
    · exact iff_of_true rfl ((Descriptor.accepted_same_iff halves).2 accepted)
    · have kind : (machine.defineRaw id key
          (descriptor.applied (object.properties.get? key))).kind? id = machine.kind? id :=
        Heap.payload?_define ..
      rw [table _ kind]
      exact Machine.getOwn?_defineRaw live distinct key _
  · rw [outcome] at defined
    refine ⟨false, _, defined, iff_of_false Bool.false_ne_true refused, fun halves => ?_, nofun,
      fun _ => rfl, .refl machine⟩
    exact iff_of_false Bool.false_ne_true fun accepted =>
      refused ((Descriptor.accepted_same_iff halves).1 accepted)

/-- A global that is neither configurable nor writable does not get another value. -/
theorem definitions_follow_rules_undefined :
    ∃ machine : Machine Unit, Sight.Visible { machine } ∧
      machine.getOwnProperty? machine.intrinsics.global "undefined" =
        some (.ofData .undefined false false false) ∧
      Exec.defineOwnProperty machine.intrinsics.global "undefined" { value := some .null }
        (Env.ofFuel 0) machine = .ok false machine := by
  have seen : ∃ machine : Machine Unit, Sight.Visible { machine } ∧
      machine.getOwnProperty? machine.intrinsics.global "undefined" =
        some (.ofData .undefined false false false) ∧
      (machine.kind? machine.intrinsics.global).any (!·.isExotic) = true :=
    ⟨Builtins.newMachine {} (), .between (.new _ _), by decide +kernel, by decide +kernel⟩
  obtain ⟨machine, visible, held, shown⟩ := seen
  obtain ⟨kind, present, ordinary⟩ := (Option.any_eq_true _ _).1 shown
  have unmixed : ({ value := some .null } : Descriptor).isAccessor = true ->
      ({ value := some .null } : Descriptor).isData = false := nofun
  obtain ⟨answer, after, defined, accepts, _, _, keeps, _⟩ :=
    definitions_follow_rules visible present (Bool.eq_false_of_not_eq_true' ordinary) "undefined"
      unmixed 0
  have refused : answer = false := by
    refine Bool.eq_false_iff.2 fun accepted => ?_
    have rules := accepts.1 accepted
    rw [held] at rules
    rcases rules with configurable | respects
    · cases configurable
    · cases respects.value .undefined .null rfl rfl
  refine ⟨machine, visible, held, ?_⟩
  rw [defined, refused, keeps refused]

/-- A program that defines an accessor whose getter is NaN. -/
def numericGetterProgram : HostProgram Unit :=
  .request .createObject fun object =>
    .request (.define (object.objectId?.getD ⟨0⟩) "x" { get := some (.number (0.0 / 0.0)) })
      fun _ => .finish (.ok .undefined)

/-- The run of the program until the accessor is there. -/
def numericGetterRun : EStateM.Result (Stop Unit) (Machine Unit) Value :=
  Exec.runProgram numericGetterProgram
    (Env.watched 20 fun sight =>
      (sight.machine.getOwnProperty? ⟨sight.machine.heap.objects.size - 1⟩ "x").isSome)
    (Builtins.newMachine {} ())

/-- The same getter is refused, though the algorithm accepts it. -/
theorem numeric_getter_refused :
    ∃ sight : Sight Unit, sight.Visible ∧ ∃ id, sight.machine.isPlain id = true ∧
      ∃ descriptor : Descriptor, descriptor.isData = false ∧
        descriptor.Accepted Value.same (sight.machine.isExtensible id)
          (sight.machine.getOwnProperty? id "x") ∧
        ∃ after, Exec.defineOwnProperty id "x" descriptor (Env.ofFuel 0) sight.machine =
          .ok false after := by
  have seen : ∃ sight ∈ Sight.ofRun? numericGetterRun,
      let id : ObjectId := ⟨sight.machine.heap.objects.size - 1⟩
      let accessor := Property.ofAccessors (.number (0.0 / 0.0)) .undefined false false
      sight.machine.isPlain id = true ∧ sight.machine.heap.getOwn? id "x" = some accessor ∧
        sight.machine.getOwnProperty? id "x" = some accessor := by
    decide +kernel
  obtain ⟨sight, interrupted, plain, stored, held⟩ := seen
  let again : Descriptor := { get := some (.number (0.0 / 0.0)) }
  have data : again.isData = false := rfl
  refine ⟨sight, Sight.visible_of_ofRun? interrupted, _, plain, again, data, ?_, ?_⟩
  · rw [held]
    refine Or.inr ⟨?_, ?_, ?_, fun _ => rfl, ?_, ?_, ?_, ?_⟩
    · rintro ⟨⟩
    · rintro _ ⟨⟩
    · rintro ⟨⟩
    · rintro _ _ _ ⟨⟩ ⟨⟩
      decide +kernel
    · rintro _ _ _ ⟨⟩ ⟨⟩
    · rintro _ ⟨⟩
    · rintro _ _ ⟨⟩
  · obtain ⟨_, present, ordinary⟩ := Machine.isPlain_iff.1 plain
    obtain ⟨object, live, rfl⟩ := Option.map_eq_some_iff.1 present
    have unwatched : ∀ seen, (Env.ofFuel 0 : Env Unit).watch seen = false := fun _ => rfl
    rw [Exec.defineOwnProperty_of_ordinary unwatched live ordinary]
    rw [Heap.getOwn?_of_live live] at stored
    rcases Machine.defineOrdinary_cases live (fun _ => data) "x" with
      ⟨accepted, _⟩ | ⟨_, outcome⟩
    · rw [stored] at accepted
      rcases accepted with configurable | respects
      · cases configurable
      · have differ : ¬ (Value.number (0.0 / 0.0)).strictlyEquals (.number (0.0 / 0.0)) = true := by
          decide +kernel
        exact absurd (respects.getter _ _ _ rfl rfl) differ
    · exact ⟨sight.machine, by rw [outcome]⟩

end ScriptVM

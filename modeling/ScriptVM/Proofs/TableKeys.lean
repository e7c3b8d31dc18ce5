import ScriptVM.Proofs.Balance.Operations
import ScriptVM.Proofs.PromiseEvolutions
import ScriptVM.Proofs.Trails

/-!
# Keys of tables

An array keeps its elements and its length apart from its table of properties. In all that an
embedder can come across, no table of an array has a key of theirs.
-/

namespace ScriptVM

variable {σ : Type}

/-! ## Tables that tell all their keys -/

/-- The internal slots are those of an array. -/
def ObjectKind.isArray : ObjectKind -> Bool
  | .array _ => true
  | _ => false

namespace HeapObject

variable {object : HeapObject ObjectKind} {key : PropertyKey}

/-- The table tells what the object has under a key. -/
def tells (object : HeapObject ObjectKind) (key : PropertyKey) : Bool :=
  !object.payload.isArray || key.arrayIndex?.isNone && !(key == Machine.lengthKey)

theorem tells_iff : object.tells key = true ↔ object.Tells key := by
  unfold tells Tells
  cases object.payload <;> simp [ObjectKind.isArray]

/-- No key of the table names an element or the length of an array. -/
def Parted (object : HeapObject ObjectKind) : Prop :=
  ∀ key ∈ object.properties.keys, object.Tells key

end HeapObject

theorem ObjectKind.Evolves.array_iff
    {before after : ObjectKind}
    (evolves : before.Evolves after) :
    (∃ store, after = .array store) ↔ ∃ store, before = .array store := by
  cases evolves <;> simp

theorem HeapObject.Parted.of_keys
    {before after : HeapObject ObjectKind}
    (parted : before.Parted)
    (payload : after.payload = before.payload)
    (keys : ∀ key ∈ after.properties.keys, key ∈ before.properties.keys ∨ before.Tells key) :
    after.Parted := by
  intro key listed store array
  exact (keys key listed).elim (parted key) id store (payload ▸ array)

namespace SlotChange

variable {object : HeapObject ObjectKind}

variable {allowed : PropertyKey -> Prop} {free : Prop}
  {before after : Option (HeapObject ObjectKind)}

/-- Tables stay apart from elements if only keys are added that the table may have. -/
theorem parted
    (change : SlotChange allowed free before after)
    (parted : ∀ object, before = some object -> object.Parted)
    (allows : ∀ object, before = some object -> ∀ key, allowed key -> object.Tells key)
    (live : after = some object) :
    object.Parted := by
  cases change with
  | same => exact parted object live
  | freed => cases live
  | made =>
      cases live
      exact fun key listed => absurd listed List.not_mem_nil
  | rewritten first _ payload keys =>
      cases live
      exact (parted first rfl).of_keys payload fun key listed => .inl (keys ▸ listed)
  | added first _ added payload _ allowed keys =>
      cases live
      refine (parted first rfl).of_keys payload fun key listed => ?_
      rw [keys, List.mem_append, List.mem_singleton] at listed
      refine listed.imp id ?_
      rintro rfl
      exact allows first rfl key allowed
  | removed first _ payload keys =>
      cases live
      exact (parted first rfl).of_keys payload fun key listed => .inl (keys.subset listed)
  | evolved first payload evolves =>
      cases live
      intro key listed store array
      obtain ⟨store, array⟩ := evolves.array_iff.1 ⟨store, array⟩
      exact parted first rfl key listed store array

/-- What is no array and cannot be freed does not become one. -/
theorem no_array
    (change : SlotChange allowed free before after)
    (kept : ¬ free)
    (live : before = some object)
    (other : ∀ store, object.payload ≠ .array store) :
    ∃ later, after = some later ∧ ∀ store, later.payload ≠ .array store := by
  cases change with
  | same => exact ⟨object, live, other⟩
  | freed _ may => exact absurd may kept
  | made => cases live
  | rewritten _ second payload | added _ second _ payload | removed _ second payload =>
      cases live
      exact ⟨second, rfl, fun store array => other store (payload ▸ array)⟩
  | evolved _ payload evolves =>
      cases live
      refine ⟨_, rfl, fun store array => ?_⟩
      obtain ⟨store, array⟩ := evolves.array_iff.1 ⟨store, array⟩
      exact other store array

end SlotChange

/-- A guarded change adds no key to a table but one that the table may have. -/
theorem GuardedChange.slot
    {unguarded : ObjectId -> Prop}
    {before after : Heap ObjectKind}
    (change : GuardedChange unguarded before after)
    (id : ObjectId) :
    SlotChange (before.Tells id) False (before.get? id) (after.get? id) := by
  have defined {target : ObjectId} {key : PropertyKey} (property : Property)
      (tells : before.getOwn? target key = none -> before.Tells target key) :
      SlotChange (before.Tells id) False (before.get? id)
        ((before.define target key property).get? id) := by
    refine (before.slot_define target key property id).mono ?_ False.elim
    rintro _ ⟨rfl, rfl, missing⟩
    exact tells missing
  have present {target : ObjectId} {key : PropertyKey} {current : Property}
      (held : before.getOwn? target key = some current)
      (missing : before.getOwn? target key = none) : before.Tells target key := by
    cases held.symm.trans missing
  cases change with
  | define target key property _ tells => exact defined property fun _ => tells
  | append target key property _ _ tells => exact defined property fun _ => tells
  | redefine target key current descriptor held => exact defined _ (present held)
  | overwrite target key current property held => exact defined property (present held)
  | freeze target key current held => exact defined _ (present held)
  | remove target key => exact before.slot_remove target key id
  | setPrototype target prototype => exact before.slot_setPrototype target prototype id
  | preventExtensions target => exact before.slot_preventExtensions target id
  | modifyPayload target change advances =>
      exact before.slot_modifyPayload target change
        (fun kind present => ((advances kind present).evolves .all).1) id

/-! ## Machines whose tables are apart -/

/-- Every table is apart from elements and lengths, and the global object is no array. -/
structure Machine.Parted (machine : Machine σ) : Prop where
  tidy : machine.heap.Tidy
  tables : ∀ id object, machine.heap.get? id = some object -> object.Parted
  global : ∃ object, machine.heap.get? machine.intrinsics.global = some object ∧
    ∀ store, object.payload ≠ .array store

namespace Machine.Parted

variable {machine before after : Machine σ}

theorem of_slots
    (parted : before.Parted)
    (intrinsics : after.intrinsics = before.intrinsics)
    (tidy : after.heap.Tidy)
    (slots : ∀ id, SlotChange (before.heap.Tells id) (id ∉ before.roots)
      (before.heap.get? id) (after.heap.get? id)) :
    after.Parted where
  tidy := tidy
  tables id object live := by
    refine (slots id).parted (parted.tables id) (fun earlier held key tells store array => ?_) live
    refine tells store ?_
    unfold Heap.payload?
    rw [held, Option.map_some, array]
  global := by
    obtain ⟨object, live, other⟩ := parted.global
    have root : before.intrinsics.global ∈ before.roots := by
      unfold Machine.roots
      simp [Intrinsics.roots]
    rw [intrinsics]
    exact (slots _).no_array (fun free => free root) live other

/-- The table of the global object may have any key. -/
theorem tells_global (parted : machine.Parted) (key : PropertyKey) :
    machine.heap.Tells machine.intrinsics.global key := by
  intro store array
  obtain ⟨object, live, other⟩ := parted.global
  unfold Heap.payload? at array
  rw [live] at array
  exact absurd (Option.some.inj array) (other store)

end Machine.Parted

/-- Tables stay apart. -/
def tablesParted (σ : Type) : Evolution σ where
  holds := Machine.Parted
  leads _ _ := True
  refl _ _ := trivial
  trans _ _ := trivial

namespace tablesParted

variable {machine before after : Machine σ}

theorem passes_slots
    (intrinsics : after.intrinsics = before.intrinsics)
    (changes : before.Parted -> after.heap.Tidy ∧ ∀ id,
      SlotChange (before.heap.Tells id) (id ∉ before.roots) (before.heap.get? id)
        (after.heap.get? id)) :
    (tablesParted σ).Passes before after :=
  fun parted => ⟨parted.of_slots intrinsics (changes parted).1 (changes parted).2, trivial⟩

theorem passes_beside
    (heap : after.heap = before.heap)
    (intrinsics : after.intrinsics = before.intrinsics) :
    (tablesParted σ).Passes before after :=
  passes_slots intrinsics fun parted => ⟨heap ▸ parted.tidy, fun _ => heap ▸ .same _⟩

theorem passes_guarded
    {unguarded : ObjectId -> Prop}
    {heap : Heap ObjectKind}
    (change : GuardedChange unguarded machine.heap heap) :
    (tablesParted σ).Passes machine { machine with heap } :=
  passes_slots rfl fun parted => ⟨(change.heapChange .all).tidy parted.tidy, fun id =>
    (change.slot id).mono (fun _ tells => tells) False.elim⟩

theorem passes_allocate
    (machine : Machine σ)
    (prototype : Option ObjectId)
    (kind : ObjectKind) :
    (tablesParted σ).Passes machine (machine.allocate prototype kind).2 :=
  passes_slots rfl fun parted => ⟨parted.tidy.allocate prototype kind, fun id =>
    Heap.slot_allocate parted.tidy prototype kind id⟩

theorem passes_modifyPayload
    (machine : Machine σ)
    (id : ObjectId)
    (change : ObjectKind -> ObjectKind)
    (evolves : ∀ kind, machine.kind? id = some kind -> kind.Evolves (change kind)) :
    (tablesParted σ).Passes machine
      (machine.modifyHeap fun heap => heap.modifyPayload id change) :=
  passes_slots rfl fun parted => ⟨parted.tidy.modify id _, fun other =>
    machine.heap.slot_modifyPayload id change evolves other⟩

theorem passes_defineGlobal (machine : Machine σ) (key : PropertyKey) (property : Property) :
    (tablesParted σ).Passes machine (machine.defineRaw machine.intrinsics.global key property) :=
  fun parted =>
    have defined : GuardedChange (fun _ => True) machine.heap
        (machine.heap.define machine.intrinsics.global key property) :=
      .define machine.heap _ key property trivial (parted.tells_global key)
    passes_guarded defined parted

instance indifferent : (tablesParted σ).discipline.Indifferent where
  next _ _ := trivial
  known passes := fun parted => passes parted parted
  heap _ _ change := passes_guarded change
  setPromise machine id old record present := by
    refine passes_modifyPayload machine id (fun _ => .promise record) fun kind held => ?_
    cases held.symm.trans (Machine.kind?_of_promise? present)
    exact .promise old record
  allocate machine prototype kind _ := passes_allocate machine prototype kind
  cells _ _ _ := passes_beside rfl rfl
  tables _ _ _ _ _ := passes_beside rfl rfl
  enqueue _ _ _ := passes_beside rfl rfl
  withNativeDepth := Exec.obeys_withNativeDepth_of fun machine nativeDepth =>
    show (tablesParted σ).Passes machine { machine with nativeDepth } from passes_beside rfl rfl
  settlesAny _ := trivial
  registersAny _ := trivial

instance isOpen : (tablesParted σ).discipline.Open where
  beside _ _ _ _ _ _ := passes_beside rfl rfl
  allocateFunction machine prototype _ := passes_allocate machine prototype _
  uses machine _ _ := Evolution.Passes.refl machine
  pauses machine _ := Evolution.Passes.refl machine
  strays machine _ _ _ := Evolution.Passes.refl machine
  free _ := trivial
  setValueAt machine id offset value := passes_slots rfl fun parted =>
    ⟨parted.tidy.modify id _, fun other => machine.heap.slot_setValueAt id offset value other⟩
  defineGlobal machine _ property := passes_defineGlobal machine _ property

instance parking : (tablesParted σ).discipline.Parking where
  allocateCoroutine machine prototype coroutine _ := passes_allocate machine prototype _
  park machine id state frame := by
    refine passes_modifyPayload machine id _ fun kind _ => ?_
    cases kind with
    | coroutine coroutine => exact .coroutine coroutine state frame
    | _ => exact .same _
  awaits _ := trivial

instance hosting : (tablesParted σ).discipline.Hosting where
  spares _ :=
    { hosts _ _ _ _ := HostProgram.spares_of_forall (fun _ => id) _
      tasks _ _ := HostProgram.spares_of_forall (fun _ => id) _
      microtasks _ _ := HostProgram.spares_of_forall (fun _ => id) _ }
  avoids _ := Machine.avoids_of_forall (fun _ => id) _
  setWorld _ _ := passes_beside rfl rfl
  pushHost _ _ _ := passes_beside rfl rfl
  enqueueTask _ _ _ := passes_beside rfl rfl
  enqueueMicrotask _ _ _ := passes_beside rfl rfl
  reschedule _ _ _ _ := passes_beside rfl rfl
  finish env machine _ := Discipline.Indifferent.passes_checkpointFinished env machine
  takeMicrotask _ _ _ _ := passes_beside rfl rfl
  works _ _ inner sound := Discipline.keeps_microtask (passes_beside rfl rfl)
    (Exec.obeys_runJob_of_inner inner (fun _ _ => trivial) fun _ _ settlement argument _ =>
      ⟨fun _ sound _ => Exec.keeps_resumeAsync sound (fun _ _ _ _ => trivial) settlement argument⟩)
    sound
  settlers {machine _ function _ env} receiver arguments _ _ settles sound := by
    have runs : Exec.Obeys (tablesParted σ).discipline
        (Exec.runNative function.behavior receiver arguments : Exec σ Value) :=
      Exec.obeys_runSettler_of_indifferent settles receiver arguments
    exact (Exec.obeys_withNativeDepth _).obeys env sound machine
  setGlobal machine _ _ _ := passes_defineGlobal machine _ _
  resolves _ _ := trivial
  rejects _ _ := trivial
  discards _ _ := passes_beside rfl rfl
  collects kept _ := by
    suffices obedient : Exec.Obeys (tablesParted σ).discipline
        (Exec.change fun machine => machine.collectGarbage kept) from obedient.obeys
    refine .change _ fun machine => passes_slots ?_ fun parted =>
      ⟨(Machine.collectGarbage_keeps parted.tidy kept).1, fun id =>
        machine.slot_collectGarbage kept id⟩
    unfold Machine.collectGarbage
    split <;> rfl

end tablesParted

/-! ## New machines -/

/-- The object is no array, or can be seen to be apart from elements and a length. -/
def HeapObject.isParted (object : HeapObject ObjectKind) : Bool :=
  !object.payload.isArray || object.properties.keys.all object.tells

theorem HeapObject.parted_of_isParted
    {object : HeapObject ObjectKind}
    (apart : object.isParted = true) :
    object.Parted := by
  intro key listed
  rw [← tells_iff]
  unfold isParted at apart
  rcases Bool.or_eq_true_iff.1 apart with other | all
  · unfold tells
    rw [other]
    rfl
  · exact List.all_eq_true.1 all key listed

theorem Machine.parted_onHeap
    (intrinsics : Intrinsics)
    (config : Config)
    (world : σ)
    {heap : Heap ObjectKind}
    (tidy : (onHeap heap intrinsics config world).heap.Tidy)
    (apart : (heap.objects.toList.all fun slot => slot.all HeapObject.isParted) = true)
    (global : ((heap.get? intrinsics.global).any fun object => !object.payload.isArray) = true) :
    (onHeap heap intrinsics config world).Parted where
  tidy := tidy
  tables id object live := by
    have member := Array.mem_of_getElem? (Option.join_eq_some_iff.1 live)
    exact HeapObject.parted_of_isParted
      (List.all_eq_true.1 apart _ (Array.mem_toList_iff.2 member))
  global := by
    obtain ⟨object, live, ordinary⟩ := (Option.any_eq_true _ _).1 global
    refine ⟨object, live, fun store array => ?_⟩
    rw [array] at ordinary
    cases ordinary

theorem Builtins.newMachine_parted (config : Config) (world : σ) :
    (newMachine config world).Parted := by
  have apart : (initialHeap.2.objects.toList.all fun slot =>
      slot.all HeapObject.isParted) = true := by
    decide +kernel
  have global : ((initialHeap.2.get? initialHeap.1.global).any fun object =>
      !object.payload.isArray) = true := by
    decide +kernel
  exact Machine.parted_onHeap initialHeap.1 config world (newMachine_tidy config world) apart global

/-- What an embedder comes across began with a new machine. -/
theorem Sight.Visible.seen {sight : Sight σ} (visible : sight.Visible) :
    ∃ config world, sight.SeenWithout (fun _ => False) (Builtins.newMachine config world) := by
  have avoids (program : HostProgram σ) : program.Avoids fun _ => False :=
    HostProgram.avoids_of_forall (fun _ => id) program
  have leads {machine : Machine σ} (settled : machine.Settled) :
      ∃ config world, (Builtins.newMachine config world).LeadsWithout (fun _ => False) machine := by
    induction settled with
    | new config world => exact ⟨config, world, .start⟩
    | returned _ ran earlier =>
        obtain ⟨config, world, led⟩ := earlier
        exact ⟨config, world, .returned led (avoids _) ran⟩
    | threw _ ran earlier =>
        obtain ⟨config, world, led⟩ := earlier
        exact ⟨config, world, .threw led (avoids _) ran⟩
  cases visible with
  | between settled =>
      obtain ⟨config, world, led⟩ := leads settled
      exact ⟨config, world, .between led⟩
  | during settled ran =>
      obtain ⟨config, world, led⟩ := leads settled
      exact ⟨config, world, .during led (avoids _) ran⟩

theorem Sight.Visible.parted {sight : Sight σ} (visible : sight.Visible) :
    sight.machine.Parted := by
  obtain ⟨config, world, seen⟩ := visible.seen
  have holds : (tablesParted σ).holds (Builtins.newMachine config world) :=
    Builtins.newMachine_parted config world
  exact (Evolution.passes_seenWithout (fun _ => id) seen holds).1

end ScriptVM

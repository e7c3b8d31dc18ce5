import ScriptVM.Proofs.OwnKeys

/-!
# Trails

A machine comes a long way from an empty heap, one transition after the other. The machines on
its way are its trail.

What a single change makes of an object is said here once and for all: its properties are
rewritten where they are, one is added behind the others, some are taken away, or its internal
slots evolve.
-/

namespace ScriptVM

variable {σ : Type}

/-! ## Changes of an object -/

/-- What one change makes of the object behind a handle, if only some keys may be added and the
object may be freed only under a condition. -/
inductive SlotChange (allowed : PropertyKey -> Prop) (free : Prop) :
    Option (HeapObject ObjectKind) -> Option (HeapObject ObjectKind) -> Prop
  | same (slot : Option (HeapObject ObjectKind)) : SlotChange allowed free slot slot
  | freed (object : HeapObject ObjectKind) : free -> SlotChange allowed free (some object) none
  | made (shape : ShapeId) (prototype : Option ObjectId) (payload : ObjectKind) :
      SlotChange allowed free none (some { shape, prototype, payload })
  /-- Properties may change where they are. -/
  | rewritten (before after : HeapObject ObjectKind) :
      after.payload = before.payload -> after.properties.keys = before.properties.keys ->
      SlotChange allowed free (some before) (some after)
  | added (before after : HeapObject ObjectKind) (key : PropertyKey) :
      after.payload = before.payload -> key ∉ before.properties.keys -> allowed key ->
      after.properties.keys = before.properties.keys ++ [key] ->
      SlotChange allowed free (some before) (some after)
  | removed (before after : HeapObject ObjectKind) :
      after.payload = before.payload ->
      after.properties.keys.Sublist before.properties.keys ->
      SlotChange allowed free (some before) (some after)
  | evolved (before : HeapObject ObjectKind) (payload : ObjectKind) :
      before.payload.Evolves payload ->
      SlotChange allowed free (some before) (some { before with payload })

variable {allowed more : PropertyKey -> Prop} {free freer : Prop}

theorem SlotChange.mono
    {before after : Option (HeapObject ObjectKind)}
    (change : SlotChange allowed free before after)
    (allows : ∀ key, allowed key -> more key)
    (frees : free -> freer) :
    SlotChange more freer before after := by
  cases change with
  | same => exact .same _
  | freed object may => exact .freed object (frees may)
  | made => exact .made _ _ _
  | rewritten first second payload keys => exact .rewritten first second payload keys
  | added first second key payload fresh allowed keys =>
      exact .added first second key payload fresh (allows key allowed) keys
  | removed first second payload keys => exact .removed first second payload keys
  | evolved first payload evolves => exact .evolved first payload evolves

namespace Heap

variable {heap : Heap ObjectKind}

/-- A definition adds a key only if the object does not have it. -/
theorem slot_define
    (heap : Heap ObjectKind)
    (id : ObjectId)
    (key : PropertyKey)
    (property : Property)
    (other : ObjectId) :
    SlotChange (fun added => other = id ∧ added = key ∧ heap.getOwn? id key = none) free
      (heap.get? other) ((heap.define id key property).get? other) := by
  by_cases same : id = other
  · subst same
    cases live : heap.get? id with
    | none =>
        rw [define_of_dead heap id key property live, live]
        exact .same none
    | some object =>
        obtain ⟨shape, made⟩ := exists_get?_define live key property
        rw [made]
        cases held : object.properties.get? key with
        | none =>
            refine .added _ _ key rfl (PropertyTable.get?_eq_none_iff.1 held) ⟨rfl, rfl, ?_⟩
              (PropertyTable.keys_put_of_none held)
            rw [getOwn?_of_live live, held]
        | some existing =>
            obtain ⟨entry, found, _⟩ := Option.map_eq_some_iff.1 held
            exact .rewritten _ _ rfl (PropertyTable.keys_put_of_some found)
  · rw [get?_define_of_ne same]
    exact .same _

theorem slot_modify
    (heap : Heap ObjectKind)
    (id : ObjectId)
    (change : HeapObject ObjectKind -> HeapObject ObjectKind)
    (changes : ∀ object, heap.get? id = some object ->
      SlotChange allowed free (some object) (some (change object)))
    (other : ObjectId) :
    SlotChange allowed free (heap.get? other) ((heap.modify id change).get? other) := by
  rw [get?_modify]
  split
  · next same =>
      subst same
      cases live : heap.get? id with
      | none => exact .same none
      | some object => exact changes object live
  · exact .same _

theorem slot_remove
    (heap : Heap ObjectKind)
    (id : ObjectId)
    (key : PropertyKey)
    (other : ObjectId) :
    SlotChange allowed free (heap.get? other) ((heap.remove id key).get? other) := by
  unfold remove
  split
  · exact .same _
  · split
    · exact .same _
    · refine slot_modify _ id _ (fun object _ => ?_) other
      refine .removed _ _ rfl ?_
      rw [PropertyTable.keys_eraseAt]
      exact List.eraseIdx_sublist _ _

theorem slot_setPrototype
    (heap : Heap ObjectKind)
    (id : ObjectId)
    (prototype : Option ObjectId)
    (other : ObjectId) :
    SlotChange allowed free (heap.get? other) ((heap.setPrototype id prototype).get? other) := by
  unfold setPrototype
  split
  · exact .same _
  · split
    · exact .same _
    · refine slot_modify _ id _ (fun object _ => ?_) other
      exact .rewritten _ _ rfl rfl

theorem slot_setValueAt
    (heap : Heap ObjectKind)
    (id : ObjectId)
    (offset : Nat)
    (value : Value)
    (other : ObjectId) :
    SlotChange allowed free (heap.get? other) ((heap.setValueAt id offset value).get? other) := by
  refine slot_modify heap id _ (fun object _ => ?_) other
  split
  · exact .rewritten _ _ rfl (PropertyTable.keys_setAt _ _ offset)
  · exact .same _

theorem slot_preventExtensions (heap : Heap ObjectKind) (id other : ObjectId) :
    SlotChange allowed free (heap.get? other) ((heap.preventExtensions id).get? other) := by
  refine slot_modify heap id _ (fun object _ => ?_) other
  exact .rewritten _ _ rfl rfl

theorem slot_modifyPayload
    (heap : Heap ObjectKind)
    (id : ObjectId)
    (change : ObjectKind -> ObjectKind)
    (evolves : ∀ kind, heap.payload? id = some kind -> kind.Evolves (change kind))
    (other : ObjectId) :
    SlotChange allowed free (heap.get? other) ((heap.modifyPayload id change).get? other) := by
  refine slot_modify heap id _ (fun object live => .evolved object _ ?_) other
  refine evolves object.payload ?_
  unfold payload?
  rw [live]
  rfl

/-- What is allocated was dead. -/
theorem slot_allocate
    (tidy : heap.Tidy)
    (prototype : Option ObjectId)
    (payload : ObjectKind)
    (other : ObjectId) :
    SlotChange allowed free (heap.get? other) ((heap.allocate prototype payload).2.get? other) := by
  rw [tidy.get?_allocate]
  split
  · next same =>
      subst same
      rw [tidy.allocated_dead prototype payload]
      exact .made _ _ _
  · exact .same _

end Heap

/-- Every change of the heap is a change of the object behind each handle. -/
theorem HeapChange.slot
    {origins : Origins}
    {before after : Heap ObjectKind}
    (change : HeapChange origins before after)
    (tidy : before.Tidy)
    (id : ObjectId) :
    SlotChange (fun _ => True) False (before.get? id) (after.get? id) := by
  cases change with
  | allocate prototype kind => exact Heap.slot_allocate tidy prototype kind id
  | define other key property =>
      exact (before.slot_define other key property id).mono (fun _ _ => trivial) False.elim
  | setValueAt other offset value => exact before.slot_setValueAt other offset value id
  | remove other key => exact before.slot_remove other key id
  | setPrototype other prototype => exact before.slot_setPrototype other prototype id
  | preventExtensions other => exact before.slot_preventExtensions other id
  | modifyPayload other change evolves =>
      exact before.slot_modifyPayload other change (fun kind present =>
        (evolves kind present).1) id

/-- A collection spares its roots. -/
theorem Machine.slot_collectGarbage (machine : Machine σ) (kept : List Value) (id : ObjectId) :
    SlotChange allowed (id ∉ machine.roots) (machine.heap.get? id)
      ((machine.collectGarbage kept).2.heap.get? id) := by
  unfold collectGarbage
  split
  · exact .same _
  · show SlotChange allowed _ _ ((machine.heap.collect _ _).2.get? id)
    rw [Heap.get?_collect_eq]
    split
    · next freed =>
        cases machine.heap.get? id with
        | none => exact .same none
        | some object =>
            exact .freed object fun root =>
              Heap.root_survives _ _ _ (List.mem_append_left _ root) freed
    · exact .same _

/-- So is every transition. -/
theorem Transition.slot
    {before after : Stage σ}
    (transition : Transition before after)
    (tidy : before.machine.heap.Tidy)
    (id : ObjectId) :
    SlotChange (fun _ => True) True (before.machine.heap.get? id)
      (after.machine.heap.get? id) := by
  cases transition with
  | heap origins machine heap change => exact (change.slot tidy id).mono (fun _ _ => trivial) nofun
  | consult origins machine holder name template slot =>
      obtain ⟨caches, same⟩ := machine.cachedLookup_machine holder name template.id slot
      rw [same]
      exact .same _
  | remember origins machine holder name template slot =>
      obtain ⟨caches, same⟩ := machine.rememberOwn_machine holder name template.id slot
      rw [same]
      exact .same _
  | replace origins machine =>
      show SlotChange _ _ _ (machine.popFrame.heap.get? id)
      rw [Machine.heap_popFrame]
      exact .same _
  | pop origins machine =>
      rw [Machine.heap_popFrame]
      exact .same _
  | capture origins machine top nested =>
      rw [Machine.heap_captureClosure]
      exact .same _
  | detach origins machine first =>
      rw [Machine.heap_detachFrom]
      exact .same _
  | collect origins machine kept =>
      exact (machine.slot_collectGarbage kept id).mono (fun _ allowed => allowed) fun _ => trivial
  | _ => exact .same _

/-! ## Trails -/

/-- The machines that lead from an empty heap to a stage, the latest first. -/
inductive Stage.Trail : Stage σ -> List (Machine σ) -> Prop
  | start (intrinsics : Intrinsics) (config : Config) (world : σ) :
      Trail (blank intrinsics config world) [(blank intrinsics config world).machine]
  | step {before after : Stage σ} {machines : List (Machine σ)} :
      before.Trail machines -> Transition before after ->
      after.Trail (after.machine :: machines)

/-- The machines that lead from an empty heap to a machine, the latest first. -/
def Machine.Trail (machine : Machine σ) (machines : List (Machine σ)) : Prop :=
  ∃ origins, Stage.Trail ⟨origins, machine⟩ machines

namespace Stage.Trail

variable {stage : Stage σ} {machines : List (Machine σ)}

theorem tidy (trail : stage.Trail machines) : stage.machine.heap.Tidy := by
  induction trail with
  | start => exact Heap.tidy_empty
  | step _ transition tidy => exact transition.tidy tidy

theorem coherent (trail : stage.Trail machines) : stage.Coherent := by
  induction trail with
  | start intrinsics config world => exact blank_coherent intrinsics config world
  | step _ transition coherent => exact transition.coherent coherent

/-- A trail goes on with further transitions. -/
theorem leads (trail : stage.Trail machines) {later : Stage σ} (leads : stage.Leads later) :
    ∃ further, later.Trail (further ++ machines) := by
  induction leads with
  | refl => exact ⟨[], trail⟩
  | tail _ transition earlier =>
      obtain ⟨further, trail⟩ := earlier
      exact ⟨_ :: further, trail.step transition⟩

/-- A trail ends with the machine that it leads to. -/
theorem exists_cons (trail : stage.Trail machines) :
    ∃ earlier, machines = stage.machine :: earlier := by
  cases trail with
  | start => exact ⟨[], rfl⟩
  | step => exact ⟨_, rfl⟩

end Stage.Trail

/-- Whatever is reached has a trail. -/
theorem Machine.Reached.exists_trail {machine : Machine σ} (reached : machine.Reached) :
    ∃ machines, machine.Trail machines := by
  obtain ⟨intrinsics, config, world, origins, leads⟩ := reached
  obtain ⟨further, trail⟩ := (Stage.Trail.start intrinsics config world).leads leads
  exact ⟨_, origins, trail⟩

end ScriptVM

import ScriptVM.Proofs.Sustaining

/-!
# Cells and tables that sustain a machine

The operations on shared cells, and the changes of the tables beside the heap.
-/

namespace ScriptVM

variable {σ : Type} {collects : Bool}

namespace Cells

theorem mem_window_setRegister
    {cells : Cells}
    {target id : WindowId}
    {register : Register}
    {value held : Value}
    (member : held ∈ (cells.setRegister target register value).window id) :
    held ∈ cells.window id ∨ held = value := by
  unfold setRegister window at member
  dsimp only at member
  rw [Array.getElem?_modify] at member
  unfold window
  split at member
  · cases opened : cells.windows[id.index]? with
    | none =>
        rw [opened] at member
        cases Array.not_mem_empty _ member
    | some registers =>
        rw [opened] at member
        exact Array.mem_or_eq_of_mem_setIfInBounds member
  · exact Or.inl member

theorem mem_window_openWindow
    {cells : Cells}
    {size : Nat}
    {id : WindowId}
    {held : Value}
    (member : held ∈ (cells.openWindow size).2.window id) :
    held ∈ cells.window id ∨ held = .undefined := by
  unfold openWindow window at member
  dsimp only at member
  rw [Array.getElem?_push] at member
  split at member
  · exact Or.inr (Array.eq_of_mem_replicate member)
  · exact Or.inl member

end Cells

namespace Machine

variable {machine : Machine σ}

/-! ## Windows and captured variables -/

namespace Fills

theorem setRegister
    (window : WindowId)
    (register : Register)
    (value : Value)
    [vouched : machine.Vouches value] :
    machine.Fills (machine.cells.setRegister window register value) where
  windows member := (Cells.mem_window_setRegister member).imp_right fun same => by
    rw [same]
    exact vouches_value.1 vouched
  attached := Or.inl
  detached := Or.inl
  thisCells := Or.inl
  aggregates present _ member := Or.inl ⟨_, present, member⟩

theorem openWindow (machine : Machine σ) (size : Nat) :
    machine.Fills (machine.cells.openWindow size).2 where
  windows member := (Cells.mem_window_openWindow member).imp_right fun same => by
    rw [same]
    trivial
  attached := Or.inl
  detached := Or.inl
  thisCells := Or.inl
  aggregates present _ member := Or.inl ⟨_, present, member⟩

theorem addUpvalue
    (window : WindowId)
    (register : Register)
    [vouched : machine.Vouches window] :
    machine.Fills (machine.cells.addUpvalue (.attached window register)).2 where
  windows := Or.inl
  attached {index other place} present := by
    unfold Cells.addUpvalue at present
    dsimp only at present
    rw [Array.getElem?_push] at present
    split at present
    · cases present
      exact Or.inr vouched
    · exact Or.inl present
  detached {index value} present := by
    unfold Cells.addUpvalue at present
    dsimp only at present
    rw [Array.getElem?_push] at present
    split at present
    · cases present
    · exact Or.inl present
  thisCells := Or.inl
  aggregates present _ member := Or.inl ⟨_, present, member⟩

/-- What is written to a detached variable. -/
theorem setDetached (index : Nat) (value : Value) [vouched : machine.Vouches value] :
    machine.Fills { machine.cells with
      upvalues := machine.cells.upvalues.setIfInBounds index (.detached value) } where
  windows := Or.inl
  attached {other window register} present := by
    rw [Array.getElem?_setIfInBounds] at present
    split at present
    · split at present <;> cases present
    · exact Or.inl present
  detached {other held} present := by
    rw [Array.getElem?_setIfInBounds] at present
    split at present
    · split at present
      · cases present
        exact Or.inr (vouches_value.1 vouched)
      · cases present
    · exact Or.inl present
  thisCells := Or.inl
  aggregates present _ member := Or.inl ⟨_, present, member⟩

end Fills

variable [consistent : machine.Consistent collects]

instance sustains_setCellRegister
    (window : WindowId)
    (register : Register)
    (value : Value)
    [machine.Vouches value] :
    machine.Sustains collects
      (machine.modifyCells fun cells => cells.setRegister window register value) :=
  (Fills.setRegister window register value).sustains_of_attached fun stands => stands

instance (register : Register) (value : Value) [machine.Vouches value] :
    machine.Sustains collects (machine.setRegister register value) := by
  unfold Machine.setRegister
  split
  · exact sustains_setCellRegister ..
  · exact .refl machine

instance (size : Nat) :
    machine.Sustains collects { machine with cells := (machine.cells.openWindow size).2 } :=
  (Fills.openWindow machine size).sustains_of_attached fun stands => stands

/-- The registers of a new window are undefined. -/
instance (size : Nat) :
    Vouches { machine with cells := (machine.cells.openWindow size).2 }
      (machine.cells.openWindow size).1 := by
  refine vouches_window.2 fun value member => ?_
  change value ∈ (machine.cells.openWindow size).2.window (machine.cells.openWindow size).1 at member
  unfold Cells.openWindow Cells.window at member
  dsimp only at member
  rw [Array.getElem?_push_size] at member
  rw [Array.eq_of_mem_replicate member]
  infer_instance

instance (id : UpvalueId) (value : Value) [machine.Vouches value] :
    machine.Sustains collects (machine.modifyCells fun cells => cells.setUpvalue id value) := by
  unfold modifyCells Cells.setUpvalue
  dsimp only
  split
  · exact sustains_setCellRegister ..
  · next held detached =>
      refine (Fills.setDetached id.index value).sustains_of_attached fun {index _ _} stands => ?_
      dsimp only
      rw [Array.getElem?_setIfInBounds, if_neg, stands]
      intro same
      rw [← same, detached] at stands
      cases stands
  · exact .refl machine

/-! ## Other cells -/

instance : machine.Sustains collects { machine with cells := machine.cells.addThisCell.2 } := by
  refine Fills.sustains_of_attached ⟨Or.inl, Or.inl, Or.inl, fun {index value} present => ?_,
    fun present _ member => Or.inl ⟨_, present, member⟩⟩ fun stands => stands
  change (machine.cells.thisCells.push none)[index]? = _ at present
  rw [Array.getElem?_push] at present
  split at present
  · cases present
  · exact Or.inl present

instance :
    Vouches { machine with cells := machine.cells.addThisCell.2 }
      machine.cells.addThisCell.1 := by
  refine vouches_cell.2 fun value present => ?_
  change (machine.cells.thisCells.push none)[machine.cells.thisCells.size]? = _ at present
  rw [Array.getElem?_push_size] at present
  cases present

instance (scope : Scope) (value : Value) [vouched : machine.Vouches value] :
    machine.Sustains collects
      { machine with cells := (machine.cells.bindThis scope value).2 } := by
  unfold Cells.bindThis
  split
  · exact .refl machine
  · next cell _ =>
      split
      · exact .refl machine
      · refine Fills.sustains_of_attached ⟨Or.inl, Or.inl, Or.inl,
          fun {index held} present => ?_,
          fun present _ member => Or.inl ⟨_, present, member⟩⟩ fun stands => stands
        rw [Array.getElem?_setIfInBounds] at present
        split at present
        · split at present
          · cases present
            exact Or.inr (vouches_value.1 vouched)
          · cases present
        · exact Or.inl present

instance : machine.Sustains collects { machine with cells := machine.cells.addLatch.2 } :=
  Fills.sustains_of_attached ⟨Or.inl, Or.inl, Or.inl, Or.inl,
    fun present _ member => Or.inl ⟨_, present, member⟩⟩ fun stands => stands

instance (id : LatchId) :
    machine.Sustains collects { machine with cells := (machine.cells.setLatch id).2 } :=
  Fills.sustains_of_attached ⟨Or.inl, Or.inl, Or.inl, Or.inl,
    fun present _ member => Or.inl ⟨_, present, member⟩⟩ fun stands => stands

instance sustains_addAggregate (kind : CombinatorKind) :
    machine.Sustains collects
      { machine with cells := (machine.cells.addAggregate kind).2 } := by
  refine Fills.sustains_of_attached ⟨Or.inl, Or.inl, Or.inl, Or.inl,
    fun {index aggregate} present value member => ?_⟩ fun stands => stands
  change (machine.cells.aggregates.push { kind })[index]? = _ at present
  rw [Array.getElem?_push] at present
  split at present
  · cases present
    cases Array.not_mem_empty _ member
  · exact Or.inl ⟨_, present, member⟩

instance vouches_addAggregate (kind : CombinatorKind) :
    Vouches { machine with cells := (machine.cells.addAggregate kind).2 }
      (machine.cells.addAggregate kind).1 := by
  refine vouches_aggregate.2 fun aggregate present value member => ?_
  change (machine.cells.aggregates.push { kind })[machine.cells.aggregates.size]? = _ at present
  rw [Array.getElem?_push_size] at present
  cases present
  cases Array.not_mem_empty _ member

/-- An operation on an aggregate that adds at most values that are vouched for. -/
theorem sustains_updateAggregate
    {α : Type}
    (id : AggregateId)
    (fallback : α)
    (operation : Aggregate Value -> α × Aggregate Value)
    (entries : ∀ aggregate value, some value ∈ (operation aggregate).2.entries ->
      some value ∈ aggregate.entries ∨ machine.Tags value) :
    machine.Sustains collects
      { machine with cells := (machine.cells.updateAggregate id fallback operation).2 } := by
  unfold Cells.updateAggregate
  split
  · exact .refl machine
  · next aggregate standing =>
      refine Fills.sustains_of_attached ⟨Or.inl, Or.inl, Or.inl, Or.inl,
        fun {index updated} present value member => ?_⟩ fun stands => stands
      dsimp only at present
      rw [Array.getElem?_setIfInBounds] at present
      split at present
      · next same =>
          subst same
          split at present
          · cases present
            exact (entries aggregate value member).imp_left fun old => ⟨_, standing, old⟩
          · cases present
      · exact Or.inl ⟨_, present, member⟩

/-! ## Tables -/

/-- Tables that the machine vouches for. -/
theorem maintains_tables
    {after : Machine σ}
    (heap : after.heap = machine.heap)
    (cells : after.cells = machine.cells)
    (frames : after.frames = machine.frames)
    (intrinsics : after.intrinsics = machine.intrinsics)
    (nativeDepth : machine.nativeDepth <= after.nativeDepth)
    (attended : after.Attended collects)
    (resumes : after.ResumesOnce)
    [microtasks : machine.Vouches after.jobs.microtasks.jobs]
    [rejections : machine.Vouches after.rejections.pending]
    [unhandled : machine.Vouches after.unhandled] :
    machine.Maintains collects after := by
  have later : machine.Preserves after := .of_same heap cells intrinsics nativeDepth
  have kinds : ∀ id, after.kind? id = machine.kind? id := fun id => by
    unfold kind?
    rw [heap]
  refine ⟨⟨heap ▸ consistent.tidy, fun live => later.vouches (consistent.objects (heap ▸ live)),
    frames ▸ later.vouches consistent.frames, later.vouches microtasks, later.vouches rejections,
    later.vouches unhandled, fun id member => vouches_value.1 (later.vouches
      (vouches_intrinsic (intrinsics ▸ member))), ?_, attended, resumes⟩, later,
    fun acyclic => acyclic.mono (fun linked => heap ▸ linked) fun {id} stands _ => ?_⟩
  · refine consistent.tied.mono (fun {place frame} held => ?_) fun stands => cells ▸ stands
    cases place with
    | inl height =>
        have stands := frameAt_running.1 held
        exact frameAt_running.2 (frames ▸ stands)
    | inr other =>
        obtain ⟨kind, present, parked⟩ := frameAt_parked.1 held
        exact frameAt_parked.2 ⟨kind, (kinds other).symm.trans present, parked⟩
  · unfold isProxy at stands ⊢
    rwa [kinds]

/-- Tables that the machine vouches for, with no new resumptions. -/
theorem sustains_tables
    {after : Machine σ}
    (heap : after.heap = machine.heap)
    (cells : after.cells = machine.cells)
    (frames : after.frames = machine.frames)
    (intrinsics : after.intrinsics = machine.intrinsics)
    (nativeDepth : after.nativeDepth = machine.nativeDepth)
    (attended : after.Attended collects)
    (carries : machine.CarriesOver after)
    [microtasks : machine.Vouches after.jobs.microtasks.jobs]
    [rejections : machine.Vouches after.rejections.pending]
    [unhandled : machine.Vouches after.unhandled] :
    machine.Sustains collects after :=
  (maintains_tables heap cells frames intrinsics (Nat.le_of_eq nativeDepth.symm) attended
    (carries.resumesOnce consistent.resumes)).sustains carries.inHand

instance : machine.Vouches machine.jobs.microtasks.jobs :=
  consistent.microtasks

instance : machine.Vouches machine.rejections.pending :=
  consistent.rejections

instance : machine.Vouches machine.unhandled :=
  consistent.unhandled

omit consistent in
/-- What an embedder left behind depends on nothing else. -/
theorem Attended.congr
    {before after : Machine σ}
    (attended : before.Attended collects)
    (hosts : after.hosts = before.hosts)
    (jobs : after.jobs = before.jobs) :
    after.Attended collects := by
  refine ⟨?_, ?_, ?_⟩
  · rw [hosts]
    exact attended.hosts
  · rw [jobs]
    exact attended.tasks
  · rw [jobs]
    exact attended.microtasks

instance sustains_caches (caches : Array (Array InlineCache)) :
    machine.Sustains collects { machine with caches } :=
  sustains_tables rfl rfl rfl rfl rfl (consistent.attended.congr rfl rfl)
    (.of_heap rfl fun _ => id)

instance (description : Option String) :
    machine.Sustains collects (machine.newSymbol description).2 := by
  unfold newSymbol
  exact sustains_tables rfl rfl rfl rfl rfl (consistent.attended.congr rfl rfl) (.of_heap rfl fun _ => id)

omit consistent in
instance {after : Machine σ} (description : Option String) :
    after.Vouches (machine.newSymbol description).1 :=
  vouches_symbol _

instance (world : σ) : machine.Sustains collects { machine with world } :=
  sustains_tables rfl rfl rfl rfl rfl (consistent.attended.congr rfl rfl)
    (.of_heap rfl fun _ => id)

instance vouches_rejected
    (promise : ObjectId)
    [vouched : machine.Vouches promise] :
    machine.Vouches (machine.rejections.rejected promise).pending := by
  unfold Rejections.rejected
  split
  · exact consistent.rejections
  · have := consistent.rejections
    exact vouches_list_append machine.rejections.pending [promise]

instance (unhandled : List Value) [machine.Vouches unhandled] :
    machine.Sustains collects { machine with unhandled } :=
  sustains_tables rfl rfl rfl rfl rfl (consistent.attended.congr rfl rfl)
    (.of_heap rfl fun _ => id)

instance sustains_note (event : PromiseEvent σ) :
    machine.Sustains collects (machine.note event) :=
  @sustains_tables _ _ _ consistent _ rfl rfl rfl rfl rfl (consistent.attended.congr rfl rfl)
    (.of_heap rfl fun _ => id) consistent.microtasks consistent.rejections consistent.unhandled

/-- Queue a microtask of the machine itself. -/
theorem sustains_enqueueJob
    (job : Job σ)
    (own : ∀ body, job ≠ .host body)
    (plain : ∀ coroutine, ¬ job.Resumes coroutine)
    [vouched : machine.Vouches job] :
    machine.Sustains collects (machine.enqueueJob job) := by
  have jobs : machine.Vouches (machine.jobs.microtasks.jobs ++ [job]) := inferInstance
  refine @sustains_tables _ _ _ consistent _ rfl rfl rfl rfl rfl
    ⟨consistent.attended.hosts, consistent.attended.tasks, fun body member => ?_⟩
    (.of_enqueue plain) jobs consistent.rejections consistent.unhandled
  rcases List.mem_append.1 member with old | new
  · exact consistent.attended.microtasks body old
  · exact absurd (List.mem_singleton.1 new).symm (own body)

instance (promise : ObjectId) (thenable thenMethod : Value)
    [machine.Vouches (PromiseHandle.mk promise)] [machine.Vouches thenable]
    [machine.Vouches thenMethod] :
    machine.Sustains collects
      (machine.submitJob (.resolveThenable promise thenable thenMethod)) := by
  have queued : machine.Sustains collects
      (machine.enqueueJob (.resolveThenable promise thenable thenMethod)) :=
    sustains_enqueueJob _ (fun _ same => by cases same) fun _ ⟨_, _, _, same⟩ => by cases same
  have := queued.consistent
  exact queued.trans (sustains_note _)

end Machine
end ScriptVM

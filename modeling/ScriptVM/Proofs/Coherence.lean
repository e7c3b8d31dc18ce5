import ScriptVM.Proofs.FrameStack

/-!
# Coherence

A stage is coherent when all code and all frames that its machine holds are among
its origins. Transitions keep a stage coherent, and they never change the
configuration or forget an origin.
-/

namespace ScriptVM

/-- The code and the frames of a machine came up before. -/
structure Stage.Coherent {σ : Type} (stage : Stage σ) : Prop where
  /-- What is nested in known code is known. -/
  nested : ∀ outer inner, stage.origins.template outer -> inner ∈ outer.nested ->
    stage.origins.template inner
  /-- The frames on the stack run known code. -/
  stack : ∀ frame ∈ stage.machine.stack, stage.origins.Admits frame
  /-- The frames off the stack run known code. -/
  loose : ∀ frame, stage.origins.frame frame -> stage.origins.Admits frame
  /-- Function objects carry known code, and coroutines hold known frames. -/
  objects : ∀ id kind, stage.machine.heap.payload? id = some kind ->
    stage.origins.Covers kind
  orderly : stage.origins.lax ∨ stage.machine.heap.Orderly
  /-- The frames off the stack return to native code. -/
  returns : stage.origins.lax ∨
    ∀ frame, stage.origins.frame frame -> frame.returnTo = .boundary

/-! ## Heap changes -/

/-- What a change of the heap leaves in the internal slots came up before. -/
theorem HeapChange.covers
    {before after : Heap ObjectKind}
    (change : HeapChange origins before after)
    (covered : ∀ id kind, before.payload? id = some kind -> origins.Covers kind)
    (id : ObjectId)
    (kind : ObjectKind)
    (present : after.payload? id = some kind) :
    origins.Covers kind := by
  cases change with
  | allocate prototype made coveredMade =>
      rcases before.payload?_allocate prototype made present with same | old
      · exact same ▸ coveredMade
      · exact covered id kind old
  | define target key property =>
      rw [Heap.payload?_define] at present
      exact covered id kind present
  | setValueAt target offset value =>
      rw [Heap.payload?_setValueAt] at present
      exact covered id kind present
  | remove target key =>
      rw [Heap.payload?_remove] at present
      exact covered id kind present
  | setPrototype target prototype =>
      rw [Heap.payload?_setPrototype] at present
      exact covered id kind present
  | preventExtensions target =>
      rw [Heap.payload?_preventExtensions] at present
      exact covered id kind present
  | modifyPayload target change evolves =>
      rw [Heap.payload?_modifyPayload] at present
      split at present
      · next same =>
          subst same
          obtain ⟨old, found, changed⟩ := Option.map_eq_some_iff.1 present
          rw [← changed]
          exact (evolves old found).2 (covered target old found)
      · exact covered id kind present

/-- A change of a tidy heap keeps it tidy. -/
theorem HeapChange.tidy
    {before after : Heap ObjectKind}
    (change : HeapChange origins before after)
    (tidy : before.Tidy) :
    after.Tidy := by
  cases change with
  | allocate prototype kind => exact tidy.allocate prototype kind
  | define id key property => exact tidy.define id key property
  | setValueAt id => exact tidy.modify id _
  | remove id key => exact tidy.remove id key
  | setPrototype id prototype => exact tidy.setPrototype id prototype
  | preventExtensions id => exact tidy.modify id _
  | modifyPayload id => exact tidy.modify id _

/-- A collection only takes internal slots away. -/
theorem Machine.payload?_collectGarbage
    (machine : Machine σ)
    (kept : List Value)
    {id : ObjectId}
    {kind : ObjectKind}
    (present : (machine.collectGarbage kept).2.heap.payload? id = some kind) :
    machine.heap.payload? id = some kind := by
  unfold collectGarbage at present
  split at present
  · exact present
  · obtain ⟨object, survives, same⟩ := Option.map_eq_some_iff.1 present
    exact Option.map_eq_some_iff.2 ⟨object, Heap.get?_collect _ _ _ survives, same⟩

/-- A collection leaves an orderly heap. -/
theorem Heap.Orderly.collectGarbage
    {machine : Machine σ}
    (orderly : machine.heap.Orderly)
    (kept : List Value) :
    (machine.collectGarbage kept).2.heap.Orderly where
  tidy := by
    unfold Machine.collectGarbage
    split
    · exact orderly.tidy
    · exact orderly.tidy.collect _ _
  shelved id coroutine present :=
    orderly.shelved id coroutine (machine.payload?_collectGarbage kept present)

/-! ## Heaps that stay as they are -/

namespace Machine

variable {σ : Type} (machine : Machine σ)

/-- Reading through a cache changes at most the caches. -/
theorem cachedLookup_machine
    (id : ObjectId)
    (key : PropertyKey)
    (template : TemplateId)
    (slot : Nat) :
    ∃ caches, (machine.cachedLookup id key template slot).2 = { machine with caches } := by
  unfold cachedLookup
  split
  · exact ⟨machine.caches, rfl⟩
  · split
    · dsimp only
      split
      · exact ⟨machine.caches, rfl⟩
      · exact ⟨_, rfl⟩
    · exact ⟨machine.caches, rfl⟩

/-- Remembering a place changes at most the caches. -/
theorem rememberOwn_machine
    (id : ObjectId)
    (key : PropertyKey)
    (template : TemplateId)
    (slot : Nat) :
    ∃ caches, machine.rememberOwn id key template slot = { machine with caches } := by
  unfold rememberOwn
  split
  · split
    · exact ⟨_, rfl⟩
    · exact ⟨machine.caches, rfl⟩
  · exact ⟨machine.caches, rfl⟩

@[simp] theorem heap_popFrame (machine : Machine σ) : machine.popFrame.heap = machine.heap := by
  unfold popFrame
  split <;> rfl

@[simp] theorem heap_captureClosure (nested : Template) :
    (machine.captureClosure nested).2.heap = machine.heap := by
  unfold captureClosure
  split <;> rfl

@[simp] theorem heap_detachFrom (first : Register) :
    (machine.detachFrom first).heap = machine.heap := by
  unfold detachFrom
  split <;> rfl

@[simp] theorem stack_collectGarbage (kept : List Value) :
    (machine.collectGarbage kept).2.stack = machine.stack := by
  unfold collectGarbage
  split <;> rfl

variable {machine} in
/-- What can be called with a frame of its own is a function that does not suspend. -/
theorem kind?_of_inlineCallee?
    {callee : Value}
    {called : ObjectId × Closure}
    (found : machine.inlineCallee? callee = some called) :
    machine.kind? called.1 = some (.function called.2) ∧
      called.2.template.kind.suspends = false := by
  unfold inlineCallee? at found
  split at found
  · next id =>
      obtain ⟨code, present, chosen⟩ := Option.bind_eq_some_iff.1 found
      dsimp only at chosen
      split at chosen
      · cases chosen
      · next plain =>
          cases chosen
          rw [Bool.or_eq_true, not_or, Bool.not_eq_true] at plain
          unfold closure? at present
          split at present
          · next stands =>
              cases present
              exact ⟨stands, plain.1⟩
          · cases present
  · cases found

end Machine

/-! ## Preservation -/

variable {σ : Type} {origins : Origins} {before after : Stage σ}

namespace Frame.Prepared

theorem template {before after : Frame} (prepared : before.Prepared after) :
    after.template = before.template := by
  cases prepared <;> rfl

theorem returnTo {before after : Frame} (prepared : before.Prepared after) :
    after.returnTo = before.returnTo := by
  cases prepared <;> rfl

end Frame.Prepared

/-- A frame stays admitted as long as it runs the same code for the same closure in the same
scope. -/
theorem Origins.Admits.same
    {before after : Frame}
    (admitted : origins.Admits before)
    (template : after.template = before.template)
    (function : after.function = before.function)
    (upvalues : after.upvalues = before.upvalues)
    (scope : after.scope = before.scope) :
    origins.Admits after where
  template := by
    rw [template]
    exact admitted.template
  equipped := by
    refine admitted.equipped.imp id fun equipped => ⟨?_, ?_⟩
    · rw [function, upvalues, template]
      exact equipped.function
    · rw [function, upvalues]
      exact equipped.script
  placed := by
    rw [scope]
    exact admitted.placed

theorem Origins.Admits.prepared
    {before after : Frame}
    (admitted : origins.Admits before)
    (prepared : before.Prepared after) :
    origins.Admits after := by
  apply admitted.same <;> cases prepared <;> rfl

theorem Origins.Admits.sameActivation
    {before after : Frame}
    (admitted : origins.Admits before)
    (same : before.SameActivation after) :
    origins.Admits after :=
  admitted.same same.template same.function same.upvalues same.scope

namespace Stage.Coherent

variable {machine : Machine σ} {origins : Origins}

/-- More origins do no harm as long as their code is known. -/
theorem extend
    {origins later : Origins}
    (coherent : Coherent ⟨origins, machine⟩)
    (extends' : later.Extend origins)
    (nested : ∀ outer inner, later.template outer -> inner ∈ outer.nested ->
      later.template inner)
    (loose : ∀ frame, later.frame frame -> later.Admits frame)
    (returns : later.lax ∨ ∀ frame, later.frame frame -> frame.returnTo = .boundary) :
    Coherent ⟨later, machine⟩ where
  nested := nested
  stack frame standing := extends'.admits (coherent.stack frame standing)
  loose := loose
  objects id kind present := extends'.covers (coherent.objects id kind present)
  orderly := by
    rw [extends'.lax]
    exact coherent.orderly
  returns := returns

/-- A machine with the same heap and other frames of known code is coherent. -/
theorem withStack
    {before after : Machine σ}
    (coherent : Coherent ⟨origins, before⟩)
    (heap : after.heap = before.heap)
    (stack : ∀ frame ∈ after.stack, origins.Admits frame) :
    Coherent ⟨origins, after⟩ where
  nested := coherent.nested
  stack := stack
  loose := coherent.loose
  objects id kind present := by
    dsimp only at present
    rw [heap] at present
    exact coherent.objects id kind present
  orderly := by
    dsimp only
    rw [heap]
    exact coherent.orderly
  returns := coherent.returns

theorem withFrame
    (coherent : Coherent ⟨origins, machine⟩)
    (frame : Frame)
    (admitted : origins.Admits frame)
    (returns : origins.lax ∨ frame.returnTo = .boundary) :
    Coherent ⟨origins.withFrame frame, machine⟩ := by
  have extends' := origins.extend_withFrame frame
  refine coherent.extend extends' coherent.nested ?_ ?_
  · rintro other (old | rfl)
    · exact extends'.admits (coherent.loose other old)
    · exact extends'.admits admitted
  · rcases coherent.returns, returns with ⟨lax | known, lax | new⟩
    · exact Or.inl lax
    · exact Or.inl lax
    · exact Or.inl lax
    · refine Or.inr ?_
      rintro other (old | rfl)
      · exact known other old
      · exact new

theorem withTemplate (coherent : Coherent ⟨origins, machine⟩) (template : Template) :
    Coherent ⟨origins.withTemplate template, machine⟩ := by
  have extends' := origins.extend_withTemplate template
  refine coherent.extend extends' ?_ ?_ coherent.returns
  · rintro outer inner (old | within) member
    · exact Or.inl (coherent.nested outer inner old member)
    · exact Or.inr (.nested within member)
  · intro frame loose
    exact extends'.admits (coherent.loose frame loose)

theorem withScope (coherent : Coherent ⟨origins, machine⟩) (scope : Scope) :
    Coherent ⟨origins.withScope scope, machine⟩ := by
  have extends' := origins.extend_withScope scope
  exact coherent.extend extends' coherent.nested
    (fun frame loose => extends'.admits (coherent.loose frame loose)) coherent.returns

/-- Changing the innermost frame within its activation keeps all code known. -/
theorem replaceTop
    {before after : Machine σ}
    {below : List Frame}
    {top changed : Frame}
    (coherent : Coherent ⟨origins, before⟩)
    (heap : after.heap = before.heap)
    (standing : before.stack = below ++ [top])
    (left : after.stack = below ++ [changed])
    (same : top.SameActivation changed) :
    Coherent ⟨origins, after⟩ := by
  refine coherent.withStack heap ?_
  intro frame member
  rw [left, List.mem_append, List.mem_singleton] at member
  rcases member with lower | rfl
  · exact coherent.stack frame (by rw [standing]; exact List.mem_append_left _ lower)
  · exact (coherent.stack top (by rw [standing]; simp)).sameActivation same

end Stage.Coherent

/-- A transition keeps a stage coherent. -/
theorem Transition.coherent
    (coherent : before.Coherent)
    (transition : Transition before after) :
    after.Coherent := by
  cases transition with
  | heap origins machine heap change tended =>
      refine ⟨coherent.nested, coherent.stack, coherent.loose,
        change.covers coherent.objects, ?_, coherent.returns⟩
      rcases coherent.orderly, tended with ⟨lax | orderly, lax | tends⟩
      · exact Or.inl lax
      · exact Or.inl lax
      · exact Or.inl lax
      · exact Or.inr (orderly.tends (change.tidy orderly.tidy) (tends orderly.tidy))
  | scope origins machine scope =>
      have later := coherent.withScope scope
      exact later.withStack rfl later.stack
  | consult origins machine id name template slot =>
      obtain ⟨caches, same⟩ :=
        machine.cachedLookup_machine id name template.id slot
      rw [same]
      exact coherent.withStack rfl coherent.stack
  | remember origins machine id name template slot =>
      obtain ⟨caches, same⟩ :=
        machine.rememberOwn_machine id name template.id slot
      rw [same]
      exact coherent.withStack rfl coherent.stack
  | load origins machine chunk =>
      have later := coherent.withTemplate (machine.addTemplate chunk).1
      exact later.withStack rfl later.stack
  | «open» origins machine frame fresh known returns =>
      exact coherent.withFrame frame known (Or.inr returns)
  | prepare origins machine old frame known prepared =>
      refine coherent.withFrame frame ((coherent.loose old known).prepared prepared) ?_
      exact coherent.returns.imp id fun returns => prepared.returnTo.trans (returns old known)
  | push origins machine frame loose =>
      refine coherent.withStack rfl fun other member => ?_
      rw [Machine.stack_pushFrame, List.mem_append, List.mem_singleton] at member
      rcases member with lower | rfl
      · exact coherent.stack other lower
      · exact coherent.loose other loose
  | call origins machine frame fresh known =>
      refine coherent.withStack rfl fun other member => ?_
      rw [Machine.stack_pushFrame, List.mem_append, List.mem_singleton] at member
      rcases member with lower | rfl
      · exact coherent.stack other lower
      · exact known
  | replace origins machine top frame standing fresh known =>
      refine coherent.withStack machine.heap_popFrame fun other member => ?_
      rw [Machine.stack_pushFrame, Machine.stack_popFrame, List.mem_append,
        List.mem_singleton] at member
      rcases member with lower | rfl
      · exact coherent.stack other ((List.dropLast_sublist _).subset lower)
      · exact known
  | pop origins machine =>
      refine coherent.withStack machine.heap_popFrame fun other member => ?_
      rw [Machine.stack_popFrame] at member
      exact coherent.stack other ((List.dropLast_sublist _).subset member)
  | take origins machine top known standing loose came =>
      obtain ⟨below, stack⟩ := Machine.stack_of_top? standing
      have later := coherent.withFrame top (coherent.stack top (by rw [stack]; simp))
        (coherent.returns.imp id fun returns => came.trans (returns known loose))
      refine later.withStack rfl fun other member => ?_
      rw [Machine.stack_takeFrame] at member
      exact later.stack other ((List.dropLast_sublist _).subset member)
  | move origins machine top moved standing move =>
      obtain ⟨below, stack⟩ := Machine.stack_of_top? standing
      exact coherent.replaceTop rfl stack (Machine.stack_modifyTop _ stack)
        move.sameActivation
  | capture origins machine top nested standing =>
      obtain ⟨below, stack⟩ := Machine.stack_of_top? standing
      obtain ⟨attached, captured, _⟩ := Machine.stack_captureClosure nested stack
      exact coherent.replaceTop (machine.heap_captureClosure nested) stack captured
        (by constructor <;> rfl)
  | detach origins machine first =>
      cases standing : machine.top? with
      | none =>
          rw [Machine.detachFrom_of_no_top first standing]
          exact coherent
      | some top =>
          obtain ⟨below, stack⟩ := Machine.stack_of_top? standing
          obtain ⟨attached, detached, _⟩ := Machine.stack_detachFrom first stack
          exact coherent.replaceTop (machine.heap_detachFrom first) stack detached
            (by constructor <;> rfl)
  | collect origins machine kept =>
      refine ⟨coherent.nested, ?_, coherent.loose, ?_, ?_, coherent.returns⟩
      · intro frame member
        rw [Machine.stack_collectGarbage] at member
        exact coherent.stack frame member
      · intro id kind present
        exact coherent.objects id kind (machine.payload?_collectGarbage kept present)
      · exact coherent.orderly.imp id fun orderly => orderly.collectGarbage kept
  | _ => exact coherent.withStack rfl coherent.stack

theorem Stage.Leads.coherent (leads : before.Leads after) (coherent : before.Coherent) :
    after.Coherent :=
  Stage.Leads.invariant Transition.coherent leads coherent

/-! ## What no transition changes -/

/-- A transition keeps the configuration and the intrinsics, and forgets no origin. -/
structure Transition.Keeps (before after : Stage σ) : Prop where
  config : after.machine.config = before.machine.config
  intrinsics : after.machine.intrinsics = before.machine.intrinsics
  origins : after.origins.Extend before.origins

theorem Transition.keeps (transition : Transition before after) :
    Transition.Keeps before after := by
  cases transition with
  | scope origins machine scope => exact ⟨rfl, rfl, origins.extend_withScope scope⟩
  | consult origins machine id name template slot =>
      obtain ⟨caches, same⟩ :=
        machine.cachedLookup_machine id name template.id slot
      rw [same]
      exact ⟨rfl, rfl, .refl origins⟩
  | remember origins machine id name template slot =>
      obtain ⟨caches, same⟩ :=
        machine.rememberOwn_machine id name template.id slot
      rw [same]
      exact ⟨rfl, rfl, .refl origins⟩
  | load origins machine chunk =>
      exact ⟨rfl, rfl, origins.extend_withTemplate _⟩
  | «open» origins machine frame => exact ⟨rfl, rfl, origins.extend_withFrame frame⟩
  | prepare origins machine old frame => exact ⟨rfl, rfl, origins.extend_withFrame frame⟩
  | take origins machine top => exact ⟨rfl, rfl, origins.extend_withFrame top⟩
  | replace origins machine =>
      refine ⟨?_, ?_, .refl origins⟩ <;>
      · unfold Machine.popFrame Machine.pushFrame
        split <;> rfl
  | pop origins machine =>
      refine ⟨?_, ?_, .refl origins⟩ <;>
      · unfold Machine.popFrame
        split <;> rfl
  | capture origins machine top nested =>
      refine ⟨?_, ?_, .refl origins⟩ <;>
      · unfold Machine.captureClosure
        split <;> rfl
  | detach origins machine first =>
      refine ⟨?_, ?_, .refl origins⟩ <;>
      · unfold Machine.detachFrom
        split <;> rfl
  | collect origins machine kept =>
      refine ⟨?_, ?_, .refl origins⟩ <;>
      · unfold Machine.collectGarbage
        split <;> rfl
  | _ => exact ⟨rfl, rfl, .refl _⟩

theorem Stage.Leads.keeps (leads : before.Leads after) : Transition.Keeps before after := by
  induction leads with
  | refl => exact ⟨rfl, rfl, .refl _⟩
  | tail _ transition reached =>
      have kept := transition.keeps
      exact ⟨kept.config.trans reached.config, kept.intrinsics.trans reached.intrinsics,
        kept.origins.trans reached.origins⟩

theorem Transition.tidy
    (transition : Transition before after)
    (tidy : before.machine.heap.Tidy) :
    after.machine.heap.Tidy := by
  cases transition with
  | heap origins machine heap change => exact change.tidy tidy
  | consult origins machine id name template slot =>
      obtain ⟨caches, same⟩ := machine.cachedLookup_machine id name template.id slot
      rw [same]
      exact tidy
  | remember origins machine id name template slot =>
      obtain ⟨caches, same⟩ := machine.rememberOwn_machine id name template.id slot
      rw [same]
      exact tidy
  | replace origins machine =>
      rw [← machine.heap_popFrame] at tidy
      exact tidy
  | pop origins machine => rwa [Machine.heap_popFrame]
  | capture origins machine top nested => rwa [Machine.heap_captureClosure]
  | detach origins machine first => rwa [Machine.heap_detachFrom]
  | collect origins machine kept =>
      unfold Machine.collectGarbage
      split
      · exact tidy
      · exact tidy.collect _ _
  | _ => exact tidy

/-- Transitions keep the free list in order. -/
theorem Stage.Leads.tidy (leads : before.Leads after) (tidy : before.machine.heap.Tidy) :
    after.machine.heap.Tidy := by
  induction leads with
  | refl => exact tidy
  | tail _ transition reached => exact transition.tidy reached

end ScriptVM

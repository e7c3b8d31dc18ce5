import ScriptVM.Machine.Dispatch
import ScriptVM.Proofs.FreshFrames
import ScriptVM.Proofs.Unwinding

/-!
# Instructions within a run

Most instructions do balanced work on registers that they name. The others move the
innermost frame, make a closure over it, use an inline cache of its code, or push a
frame; they keep the run going.
-/

namespace ScriptVM

variable {σ α β : Type}

/-! ## Within a run -/

/-- A stage in the middle of a run whose lowest frame came up before. -/
structure Stage.InRun
    (watch : Sight σ -> Bool)
    (below : List Frame)
    (home : Frame)
    (depth : Nat)
    (stage : Stage σ) : Prop where
  ready : stage.Ready watch
  running : stage.Running below home depth
  hosts : stage.Hosts home

section

variable {template : Template} {instruction : Instruction}

variable {watch : Sight σ -> Bool} {below : List Frame} {home : Frame} {depth : Nat}
  {start stage : Stage σ}

theorem Stage.InRun.coherent (inRun : start.InRun watch below home depth) : start.Coherent :=
  inRun.ready.coherent

theorem Stage.InRun.paused (inRun : start.InRun watch below home depth) : start.Paused :=
  ⟨below, home, depth, inRun.running, inRun.hosts⟩

theorem Stage.InRun.later
    (inRun : start.InRun watch below home depth)
    (leads : start.Leads stage)
    (running : stage.Running below home depth) :
    stage.InRun watch below home depth where
  ready := inRun.ready.follow leads running.manned
  running := running
  hosts := inRun.hosts.later leads

theorem Machine.top?_of_sameCalls {before after : Machine σ} (same : before.SameCalls after) :
    after.top? = before.top? := by
  unfold top?
  rw [same.frames]

theorem Machine.Executes.same
    {before after : Machine σ}
    (executes : before.Executes template instruction)
    (same : before.SameCalls after) :
    after.Executes template instruction where
  innermost := by
    rw [top?_of_sameCalls same]
    exact executes.innermost

/-- The code that a machine executes came up before. -/
theorem Stage.Coherent.knows
    (coherent : start.Coherent)
    (executes : start.machine.Executes template instruction) :
    start.origins.template template := by
  obtain ⟨frame, found, rfl, -⟩ := executes.innermost
  obtain ⟨lower, standing⟩ := Machine.stack_of_top? found
  exact (coherent.stack frame (by rw [standing]; simp)).template

end

namespace Exec

variable {origins : Origins}

/-- Wherever the instruction is executed, the computation uses only its operands and
leaves the same calls under way. -/
class Heeds
    (template : Template)
    (instruction : Instruction)
    (computation : Exec σ α) : Prop where
  heeds : ∀ {env : Env σ} {start : Stage σ}, env.Balanced -> start.Ready env.watch ->
    start.machine.Executes template instruction ->
    Traced start (fun _ stage => start.SameCalls stage)
      (computation env start.machine)

/-- From wherever a run executes the instruction, the computation keeps it going. -/
structure Carries
    (template : Template)
    (instruction : Instruction)
    (computation : Exec σ α) : Prop where
  carries : ∀ {env : Env σ} {below : List Frame} {home : Frame} {depth : Nat}
    {start : Stage σ}, env.Balanced -> start.InRun env.watch below home depth ->
    start.machine.Executes template instruction ->
    Traced start (fun _ stage => stage.Running below home depth)
      (computation env start.machine)

/-- Besides, the innermost frame still is the one that executes the instruction. -/
structure Stays
    (template : Template)
    (instruction : Instruction)
    (computation : Exec σ α) : Prop where
  stays : ∀ {env : Env σ} {below : List Frame} {home : Frame} {depth : Nat}
    {start : Stage σ}, env.Balanced -> start.InRun env.watch below home depth ->
    start.machine.Executes template instruction ->
    Traced start
      (fun _ stage => stage.Running below home depth ∧
        stage.machine.Executes template instruction)
      (computation env start.machine)

section

variable {template : Template} {instruction : Instruction} {first : Exec σ α} {next : α -> Exec σ β}
  {computation : Exec σ α}

instance heeds_balanced
    (computation : Exec σ α)
    [balanced : Balanced computation] :
    Heeds template instruction computation where
  heeds sound ready _ := balanced.balancedIn _ sound _ ready

theorem Heeds.bind
    (earlier : Heeds template instruction first)
    (later : ∀ answer, Heeds template instruction (next answer)) :
    Heeds template instruction (first >>= next) where
  heeds sound ready executes := by
    refine .bind _ (earlier.heeds sound ready executes) ?_ ?_
    · intro answer stage leads same
      refine ((later answer).heeds sound (ready.later leads same)
        (executes.same same.calls)).mono ?_
      intro _ _ _ further
      exact same.trans further
    · intro exception stage _ same
      exact same

theorem Heeds.bindCarries
    (earlier : Heeds template instruction first)
    (later : ∀ answer, Carries template instruction (next answer)) :
    Carries template instruction (first >>= next) where
  carries sound inRun executes := by
    refine .bind _ (earlier.heeds sound inRun.ready executes) ?_ ?_
    · intro answer stage leads same
      exact (later answer).carries sound (inRun.later leads (inRun.running.same same))
        (executes.same same.calls)
    · intro exception stage _ same
      exact inRun.running.same same

theorem Heeds.stays (heeds : Heeds template instruction computation) :
    Stays template instruction computation where
  stays sound inRun executes :=
    (heeds.heeds sound inRun.ready executes).mono fun _ _ _ same =>
      ⟨inRun.running.same same, executes.same same.calls⟩

theorem Stays.carries (stays : Stays template instruction computation) :
    Carries template instruction computation where
  carries sound inRun executes :=
    (stays.stays sound inRun executes).mono fun _ _ _ kept => kept.1

theorem Stays.bind
    (earlier : Stays template instruction first)
    (later : ∀ answer, Stays template instruction (next answer)) :
    Stays template instruction (first >>= next) where
  stays sound inRun executes := by
    refine .bind _ (earlier.stays sound inRun executes) ?_ ?_
    · rintro answer stage leads ⟨running, executes⟩
      exact (later answer).stays sound (inRun.later leads running) executes
    · intro exception stage _ kept
      exact kept

theorem Heeds.bindStays
    (earlier : Heeds template instruction first)
    (later : ∀ answer, Stays template instruction (next answer)) :
    Stays template instruction (first >>= next) :=
  earlier.stays.bind later

theorem Stays.bindHeeds
    (earlier : Stays template instruction first)
    (later : ∀ answer, Heeds template instruction (next answer)) :
    Stays template instruction (first >>= next) :=
  earlier.bind fun answer => (later answer).stays

theorem Heeds.of_contains
    (heeds : template.Contains instruction -> Heeds template instruction computation) :
    Heeds template instruction computation :=
  ⟨fun sound ready executes => (heeds executes.contains).heeds sound ready executes⟩

/-- Using what an operand refers to is founded. -/
theorem heeds_use {referent : Referent} (operand : instruction.RefersTo referent) :
    Heeds template instruction (use referent : Exec σ Unit) where
  heeds {env start} _ _ executes := by
    unfold use
    dsimp only
    split
    · refine ⟨fun other same => ?_, .reached start.origins .refl (fun impossible => ?_)
        fun _ _ impossible => ?_⟩ <;> try cases impossible
      cases same
      exact ⟨template, instruction, executes, operand⟩
    · exact ⟨start.origins, .refl, .refl _⟩

/-- Turning the innermost frame keeps a run going. -/
theorem carries_turn
    (change : Frame -> Frame)
    (turns : ∀ frame : Frame, frame.HasFetched instruction -> frame.Turn (change frame)) :
    Carries template instruction
      (update fun machine => machine.modifyTop change : Exec σ Unit) where
  carries {env below home depth start} _ inRun executes := by
    obtain ⟨top, found, -, fetched⟩ := executes.innermost
    have single : start.machine.modifyTop change =
        start.machine.modifyTop fun _ => change top :=
      Machine.modifyTop_congr found rfl
    obtain ⟨leads, goesOn⟩ := inRun.running.turn found (turns top fetched)
    rw [← single] at leads goesOn
    exact .update _ start.origins leads goesOn

/-- If the frame still stands behind the instruction, it still is the one that executes it. -/
theorem stays_turn
    (change : Frame -> Frame)
    (turns : ∀ frame : Frame, frame.HasFetched instruction -> frame.Turn (change frame))
    (rests : ∀ frame : Frame, (change frame).next = frame.next) :
    Stays template instruction
      (update fun machine => machine.modifyTop change : Exec σ Unit) where
  stays {env below home depth start} sound inRun executes := by
    obtain ⟨top, found, code, fetched⟩ := executes.innermost
    have same := (turns top fetched).sameActivation.template
    have single : start.machine.modifyTop change =
        start.machine.modifyTop fun _ => change top :=
      Machine.modifyTop_congr found rfl
    obtain ⟨leads, goesOn⟩ := inRun.running.turn found (turns top fetched)
    rw [← single] at leads goesOn
    obtain ⟨lower, standing⟩ := Machine.stack_of_top? found
    obtain ⟨offset, stands, holds⟩ := fetched
    exact .update _ start.origins leads ⟨goesOn, ⟨change top,
      Machine.top?_of_stack (Machine.stack_modifyTop change standing), same.trans code,
      offset, (rests top).trans stands, by rw [same]; exact holds⟩⟩

theorem carries_jump (target : Nat) (among : target ∈ instruction.targets) :
    Carries template instruction (jump target : Exec σ Unit) :=
  carries_turn _ fun frame fetched => .jump frame instruction target fetched among

end

/-! ## Operands -/

instance (register : Register) (value : Value) :
    Balanced (update fun machine => machine.setRegister register value : Exec σ Unit) :=
  balanced_update _ fun _ machine _ => machine.quietly_setRegister register value

section

variable {template : Template} {instruction : Instruction} {register : Register}

theorem refersTo_register (among : (register, 1) ∈ instruction.registers) :
    instruction.RefersTo (.register register) :=
  ⟨(register, 1), among, Nat.le_refl _, Nat.lt_succ_self _⟩

theorem heeds_read (among : (register, 1) ∈ instruction.registers) :
    Heeds template instruction (read register : Exec σ Value) :=
  .bind (heeds_use (refersTo_register among)) fun _ => inferInstance

theorem heeds_write (value : Value) (among : (register, 1) ∈ instruction.registers) :
    Heeds template instruction (write register value : Exec σ Unit) :=
  .bind (heeds_use (refersTo_register among)) fun _ => inferInstance

end

section

variable {template : Template} {instruction : Instruction}

theorem heeds_forM
    (values : List β)
    (body : β -> Exec σ PUnit)
    (heeds : ∀ value ∈ values, Heeds template instruction (body value)) :
    Heeds template instruction (values.forM body) := by
  induction values with
  | nil => exact heeds_balanced (pure PUnit.unit)
  | cons value rest step =>
      refine .bind (heeds value List.mem_cons_self) fun _ => step fun other member => ?_
      exact heeds other (List.mem_cons_of_mem value member)

theorem heeds_readRange
    {first : Register}
    {count : Nat}
    (among : ∀ block ∈ Instruction.block first count, block ∈ instruction.registers) :
    Heeds template instruction (readRange first count : Exec σ (List Value)) := by
  refine .bind (heeds_forM _ _ fun offset member => heeds_use ?_) fun _ => inferInstance
  have inside : offset < count := List.mem_range.1 member
  refine ⟨(first, count), among _ ?_, Nat.le_add_right _ _, Nat.add_lt_add_left inside _⟩
  unfold Instruction.block
  rw [if_neg (by simp; omega)]
  exact List.mem_singleton.2 rfl

theorem heeds_readObject {register : Register} (among : (register, 1) ∈ instruction.registers) :
    Heeds template instruction (readObject register : Exec σ ObjectId) := by
  refine .bind (heeds_read among) fun value => ?_
  split <;> infer_instance

theorem heeds_readKey {register : Register} (among : (register, 1) ∈ instruction.registers) :
    Heeds template instruction (readKey register : Exec σ PropertyKey) :=
  .bind (heeds_read among) fun _ => inferInstance

/-- What follows a name operand gets the name that is among the constants. -/
theorem heeds_nameOperand
    {next : String -> Exec σ α}
    {index : Nat}
    (among : index ∈ instruction.names)
    (later : ∀ name, template.chunk.string? index = some name ->
      Heeds template instruction (next name)) :
    Heeds template instruction (nameOperand template index >>= next) := by
  have used : Heeds template instruction (use (.name index) : Exec σ Unit) := heeds_use among
  unfold nameOperand
  rw [bind_assoc]
  refine used.bind fun _ => ?_
  split
  · next name constant =>
      rw [pure_bind]
      exact later name constant
  · exact heeds_balanced (raise _)

theorem heeds_constantOperand {index : Nat} (operand : instruction.RefersTo (.constant index)) :
    Heeds template instruction (constantOperand template index : Exec σ Value) := by
  refine .bind (heeds_use operand) fun _ => ?_
  split <;> infer_instance

end

/-! ## Operations of instructions -/

section

variable {template : Template} {instruction : Instruction} {source : Register}

theorem heeds_assignGlobal
    (name : String)
    (strict : Bool)
    (among : (source, 1) ∈ instruction.registers) :
    Heeds template instruction (assignGlobal name source strict : Exec σ Unit) := by
  have assigns : Heeds template instruction (do
      let global <- ask fun machine => machine.intrinsics.global
      setProperty (.object global) name (<- read source) strict : Exec σ Unit) :=
    .bind inferInstance fun _ => .bind (heeds_read among) fun _ => inferInstance
  unfold assignGlobal
  dsimp only
  split
  · refine .bind inferInstance fun present => ?_
    split
    · exact heeds_balanced (raise _)
    · exact assigns
  · exact assigns

theorem heeds_setIndexed
    (target key : Value)
    (strict : Bool)
    (among : (source, 1) ∈ instruction.registers) :
    Heeds template instruction (setIndexed target key source strict : Exec σ Unit) := by
  have assigns : Heeds template instruction (do
      let key <- toPropertyKey key
      setProperty target key (<- read source) strict : Exec σ Unit) :=
    .bind inferInstance fun _ => .bind (heeds_read among) fun _ => inferInstance
  unfold setIndexed
  dsimp only
  split
  · exact .bind inferInstance fun _ => assigns
  · exact assigns

/-- Reading through a cache of the code that is executed keeps the calls. -/
theorem heeds_getNamed
    (target : Value)
    (name : String)
    (slot : Nat)
    (accesses : template.Accesses slot name) :
    Heeds template instruction
      (getNamed target name template.id slot : Exec σ Value) := by
  unfold getNamed
  split
  · infer_instance
  · next id _ =>
      refine .bind ⟨fun {env start} _ ready executes => ?_⟩ fun answer => by
        split <;> infer_instance
      have recalled : start.Leads
          ⟨start.origins, (start.machine.cachedLookup id name template.id slot).2⟩ :=
        .single (.consult _ _ id name template slot (ready.coherent.knows executes) accesses)
      obtain ⟨caches, same⟩ := start.machine.cachedLookup_machine id name template.id slot
      refine .change _ start.origins ?_ ?_
      · split
        · exact recalled
        · exact .refl
      · split
        · rw [same]
          exact .beside rfl rfl rfl
        · exact .refl _

instance (id : ObjectId) (value : Value) (template : TemplateId) (slot : Nat) :
    Balanced (change fun machine => machine.cachedStore id value template slot :
      Exec σ Bool) := by
  refine balanced_change _ fun origins machine _ => ?_
  unfold Machine.cachedStore
  dsimp only
  split
  · split
    · exact .heap machine (.setValueAt machine.heap id _ value) fun _ =>
        .of_payload fun other => machine.heap.payload?_setValueAt id other _ value
    · exact .refl machine
  · exact .refl machine

/-- Writing through a cache of the code that is executed keeps the calls. -/
theorem heeds_setNamed
    (target : Value)
    (name : String)
    (value : Value)
    (slot : Nat)
    (accesses : template.Accesses slot name) :
    Heeds template instruction
      (setNamed target name value template slot : Exec σ Unit) := by
  unfold setNamed
  refine .bind inferInstance fun cacheable => ?_
  split
  · infer_instance
  · next id =>
      refine .bind inferInstance fun done => ?_
      split
      · refine .bind inferInstance fun _ => ⟨fun {env start} _ ready executes => ?_⟩
        obtain ⟨caches, same⟩ := start.machine.rememberOwn_machine id name template.id slot
        refine .update _ start.origins
          (.single (.remember _ _ id name template slot (ready.coherent.knows executes) accesses)) ?_
        rw [same]
        exact .beside rfl rfl rfl
      · infer_instance

/-- The arguments object is remembered in the innermost frame. -/
theorem stays_argumentsObject :
    Stays template instruction (argumentsObject : Exec σ Value) := by
  unfold argumentsObject
  refine Heeds.bindStays inferInstance fun frame => ?_
  split
  · exact Heeds.stays inferInstance
  · refine Heeds.bindStays inferInstance fun id => ?_
    refine Stays.bindHeeds ?_ fun _ => inferInstance
    exact stays_turn _ (fun frame _ => .argumentsObject frame id) fun _ => rfl

theorem stays_detachFrom (first : Register) :
    Stays template instruction
      (update fun machine => machine.detachFrom first : Exec σ Unit) where
  stays {env below home depth start} _ inRun executes := by
    obtain ⟨run, top, frames, standing⟩ := inRun.running.exists_top
    obtain ⟨attached, detached, _⟩ := Machine.stack_detachFrom first standing
    obtain ⟨frame, found, code, fetched⟩ := executes.innermost
    have same : top = frame :=
      Option.some.inj ((Machine.top?_of_stack standing).symm.trans found)
    subst same
    have continues := top.continues_attached attached
    exact .update _ start.origins (.single (.detach _ _ first))
      ⟨inRun.running.changeTop frames standing detached continues (continues.inner rfl)
          (start.machine.heap_detachFrom first) (start.machine.nativeDepth_detachFrom first),
        ⟨_, Machine.top?_of_stack detached, code, fetched⟩⟩

end

/-! ## Closures -/

theorem Quietly.instancePrototype?
    (machine : Machine σ)
    (function : ObjectId)
    (kind : FunctionKind) :
    Quietly origins machine (machine.instancePrototype? function kind).2 := by
  unfold Machine.instancePrototype?
  split
  · exact (ofPasses (Discipline.Lawful.allocate machine _ .ordinary)).trans (defineRaw _ _ _ _)
  · exact ofPasses (Discipline.Lawful.allocate machine _ .ordinary)
  · exact refl machine

theorem Quietly.instantiate
    (machine : Machine σ)
    (closure : Closure)
    (vouched : origins.Vouches closure) :
    Quietly origins machine (machine.instantiate closure).2 := by
  unfold Machine.instantiate
  have made : Quietly origins machine
      (machine.allocate (some machine.intrinsics.functionPrototype) (.function closure)).2 :=
    allocate machine _ vouched fun _ => ObjectKind.noConfusion
  dsimp only
  have named := made.trans ((defineRaw _ (machine.allocate
    (some machine.intrinsics.functionPrototype) (.function closure)).1 "length"
      (.ofData (.ofNat closure.template.chunk.info.parameterCount) false false true)).trans
    (defineRaw _ (machine.allocate
      (some machine.intrinsics.functionPrototype) (.function closure)).1 "name"
        (.ofData (.string closure.template.chunk.info.name) false false true)))
  have prototyped := fun function => named.trans
    (instancePrototype? _ function closure.template.chunk.info.kind)
  split
  · next prototype after equation =>
      have last := prototyped (machine.allocate
        (some machine.intrinsics.functionPrototype) (.function closure)).1
      rw [equation] at last
      exact last.trans (defineRaw _ _ _ _)
  · next after equation =>
      have last := prototyped (machine.allocate
        (some machine.intrinsics.functionPrototype) (.function closure)).1
      rw [equation] at last
      exact last

/-- Making a closure of a nested function keeps the run going. -/
theorem stays_createClosure
    {template : Template}
    {instruction : Instruction}
    {index : Nat}
    (operand : instruction.RefersTo (.function index)) :
    Stays template instruction (createClosure template index : Exec σ Value) := by
  unfold createClosure
  refine Heeds.bindStays (heeds_use operand) fun _ => ?_
  split
  · exact Heeds.stays inferInstance
  · next nested found =>
      refine ⟨fun {env below home depth start} sound inRun executes => ?_⟩
      have known : start.origins.template nested :=
        inRun.coherent.nested template nested (inRun.coherent.knows executes)
          (List.mem_of_getElem? found)
      obtain ⟨run, top, frames, standing⟩ := inRun.running.exists_top
      have admitted : start.origins.Admits top :=
        inRun.coherent.stack top (by rw [standing]; simp)
      obtain ⟨attached, captured, _⟩ := Machine.stack_captureClosure nested standing
      obtain ⟨frame, innermost, code, fetched⟩ := executes.innermost
      have same : top = frame :=
        Option.some.inj ((Machine.top?_of_stack standing).symm.trans innermost)
      subst same
      refine .bind
        (fun outcome stage => (stage.Running below home depth ∧
            stage.machine.Executes template instruction) ∧
          ∀ closure, outcome = .ok (some closure) -> stage.origins.Vouches closure)
        ?_ ?_ ?_
      · have inner : nested ∈ top.template.nested := by
          rw [code]
          exact List.mem_of_getElem? found
        refine .change _ start.origins (.single (.capture _ _ top nested innermost inner))
          ⟨⟨?_, ?_⟩, ?_⟩
        · have continues := top.continues_attached attached
          exact inRun.running.changeTop frames standing captured continues
            (continues.inner rfl) (start.machine.heap_captureClosure nested)
            (start.machine.nativeDepth_captureClosure nested)
        · exact ⟨⟨_, Machine.top?_of_stack captured, code, fetched⟩⟩
        · intro closure settled
          have made := Except.ok.inj settled
          refine ⟨?_, Or.inr (Machine.equipped_captureClosure nested made), ?_⟩
          · rw [Machine.template_captureClosure nested made]
            exact known
          · intro scope kept
            rw [Machine.lexicalScope_captureClosure nested innermost made] at kept
            split at kept
            · cases kept
              exact admitted.placed
            · cases kept
      · rintro answer stage leads ⟨⟨running, executes⟩, knows⟩
        split
        · exact .raise _ ⟨running, executes⟩
        · next closure =>
            have quiet : Quietly stage.origins stage.machine
                (stage.machine.instantiate closure).2 :=
              .instantiate stage.machine closure (knows closure rfl)
            exact .change _ stage.origins quiet.leads
              ⟨running.same (quiet.sameCalls (leads.coherent inRun.coherent)),
                executes.same quiet.same⟩
      · rintro exception stage _ ⟨kept, -⟩
        exact kept

end Exec
end ScriptVM

import ScriptVM.Proofs.FrameRanges

/-!
# Captured variables and parameters

A closure of accepted code has a variable for each that its code captures, and so has
every frame that runs for it. So the instructions that read, write or capture variables
find them. A fresh frame for a closure holds the arguments of its call in its first
registers, as long as the window has room for the parameters.

Nothing provides what the code of a script captures.
-/

namespace ScriptVM

variable {σ : Type}

/-! ## Registers of a window -/

namespace Cells

variable {cells : Cells} {window : WindowId}

theorem register_eq_window (register : Register) :
    cells.register window register = ((cells.window window)[register]?).getD .undefined := by
  unfold Cells.register Cells.window
  cases cells.windows[window.index]? with
  | none => rfl
  | some registers => rfl

theorem register_openWindow (cells : Cells) (size : Nat) (register : Register) :
    (cells.openWindow size).2.register (cells.openWindow size).1 register = .undefined := by
  have fresh : (cells.openWindow size).2.window (cells.openWindow size).1 =
      Array.replicate size .undefined := by
    simp [openWindow, Cells.window]
  rw [register_eq_window, fresh, Array.getElem?_replicate]
  split <;> rfl

theorem window_setRegister
    (cells : Cells)
    (window : WindowId)
    (register : Register)
    (value : Value) :
    (cells.setRegister window register value).window window =
      (cells.window window).setIfInBounds register value := by
  unfold setRegister Cells.window
  rw [Array.getElem?_modify, if_pos rfl]
  cases cells.windows[window.index]? <;> simp

/-- Writing a register of a window changes that register. -/
theorem register_setRegister
    {register : Register}
    (within : register < (cells.window window).size)
    (value : Value)
    (other : Register) :
    (cells.setRegister window register value).register window other =
      if other = register then value else cells.register window other := by
  rw [register_eq_window, window_setRegister, register_eq_window]
  by_cases same : other = register
  · subst same
    simp [within]
  · have distinct : register ≠ other := fun equal => same equal.symm
    simp [same, distinct]

end Cells

/-- Filling registers writes one value after the other. -/
theorem Machine.register_fillRegisters
    (values : List Value)
    {cells : Cells}
    {window : WindowId}
    {first : Nat}
    (fits : first + values.length <= (cells.window window).size)
    (other : Nat) :
    (fillRegisters cells window first values).register window other =
      if other < first then cells.register window other
      else (values[other - first]?).getD (cells.register window other) := by
  induction values generalizing cells first with
  | nil => simp [fillRegisters]
  | cons value rest step =>
      rw [List.length_cons] at fits
      have within : first < (cells.window window).size := by omega
      have later : first + 1 + rest.length <=
          ((cells.setRegister window first value).window window).size := by
        rw [Cells.size_window_setRegister]
        omega
      unfold fillRegisters
      rw [step later, Cells.register_setRegister within]
      by_cases below : other < first
      · have apart : other ≠ first := by omega
        have under : other < first + 1 := by omega
        simp [below, apart, under]
      · by_cases same : other = first
        · subst same
          simp
        · have above : ¬ other < first + 1 := by omega
          have offset : other - first = other - (first + 1) + 1 := by omega
          simp [below, same, above, offset]

/-! ## Parameters of a fresh frame -/

/-- The window of a function has room for its parameters. -/
def Chunk.FitsParameters (chunk : Chunk) : Prop :=
  chunk.info.parameterRegisters <= chunk.registerCount

/-- The first registers of a frame hold the arguments of its call: each parameter its
argument, or undefined if there is none, and the rest parameter an array of the others. -/
structure Frame.Binds
    (machine : Machine σ)
    (frame : Frame)
    (arguments : List Value) : Prop where
  parameters : ∀ index < frame.template.chunk.info.parameterCount,
    machine.cells.register frame.window index = (arguments[index]?).getD .undefined
  rest : frame.template.chunk.info.hasRest = true ->
    ∃ id, machine.cells.register frame.window frame.template.chunk.info.parameterCount =
        .object id ∧
      machine.kind? id = some (.array {
        elements := (arguments.drop frame.template.chunk.info.parameterCount).toArray })

namespace Machine

variable {machine : Machine σ}

/-- What is allocated has the internal slots that it was given. -/
theorem kind?_allocate
    (tidy : machine.heap.Tidy)
    (prototype : Option ObjectId)
    (kind : ObjectKind) :
    (machine.allocate prototype kind).2.kind? (machine.allocate prototype kind).1 =
      some kind := by
  unfold kind? allocate Heap.payload?
  exact congrArg _ (tidy.allocated_live prototype kind)

theorem binds_openFrame
    (tidy : machine.heap.Tidy)
    (function : ObjectId)
    {closure : Closure}
    (fits : closure.template.chunk.FitsParameters)
    (scope : Scope)
    (arguments : List Value)
    (returnTo : ReturnTo) :
    (machine.openFrame function closure scope arguments returnTo).1.Binds
      (machine.openFrame function closure scope arguments returnTo).2 arguments := by
  let info := closure.template.chunk.info
  let opened := machine.cells.openWindow closure.template.chunk.registerCount
  let filled := fillRegisters opened.2 opened.1 0 (arguments.take info.parameterCount)
  have room : info.parameterCount + info.hasRest.toNat <= closure.template.chunk.registerCount :=
    fits
  have size : (opened.2.window opened.1).size = closure.template.chunk.registerCount :=
    Cells.size_window_openWindow _ _
  have bound : ∀ index < info.parameterCount,
      filled.register opened.1 index = (arguments[index]?).getD .undefined := by
    intro index below
    have short : 0 + (arguments.take info.parameterCount).length <=
        (opened.2.window opened.1).size := by
      rw [size, List.length_take]
      omega
    rw [register_fillRegisters _ short, Cells.register_openWindow]
    simp [below]
  unfold openFrame
  dsimp only
  split
  · next hasRest =>
      have within : info.parameterCount < (filled.window opened.1).size := by
        have one : info.hasRest.toNat = 1 := by rw [hasRest]; rfl
        rw [size_window_fillRegisters, size]
        omega
      refine ⟨fun index below => ?_, fun _ => ⟨_, ?_, kind?_allocate tidy _ _⟩⟩
      · have apart : index ≠ info.parameterCount := Nat.ne_of_lt below
        exact (Cells.register_setRegister within _ index).trans
          ((if_neg apart).trans (bound index below))
      · exact (Cells.register_setRegister within _ _).trans (if_pos rfl)
  · next noRest => exact ⟨bound, fun hasRest => absurd hasRest noRest⟩

end Machine

/-! ## Captured variables of a frame -/

/-- Captures of accepted code resolve against a frame that has what it captures. -/
theorem Machine.exists_resolveCaptures
    (captures : List Capture)
    (frame : Frame)
    (cells : Cells)
    (provided : ∀ index, .upvalue index ∈ captures -> index < frame.upvalues.size) :
    ∃ ids, (resolveCaptures frame cells captures).1 = some ids := by
  induction captures generalizing frame cells with
  | nil => exact ⟨[], rfl⟩
  | cons capture rest step =>
      have others : ∀ index, .upvalue index ∈ rest -> index < frame.upvalues.size :=
        fun index member => provided index (.tail _ member)
      cases capture with
      | register register =>
          obtain ⟨attached, same, _⟩ := Frame.capture_frame frame cells register
          obtain ⟨ids, resolved⟩ := step (frame.capture cells register).2.1
            (frame.capture cells register).2.2 fun index member => by
              rw [same]
              exact others index member
          exact ⟨_, congrArg (Option.map _) resolved⟩
      | upvalue index =>
          obtain ⟨ids, resolved⟩ := step frame cells others
          unfold resolveCaptures
          rw [Array.getElem?_eq_getElem (provided index (.head _))]
          exact ⟨_, congrArg (Option.map _) resolved⟩

namespace Instruction

/-- The instruction reads, writes or captures variables of the functions around it. -/
def UsesVariables : Instruction -> Prop
  | .getUpvalue .. | .setUpvalue .. | .createClosure .. => True
  | _ => False

end Instruction

/-- A frame has a variable for each that its code captures, and no instruction of its
code that uses such variables can fail. -/
structure Frame.Supplied
    (σ : Type)
    (frame : Frame) : Prop where
  captured : frame.upvalues.size = frame.template.chunk.info.captures.length
  works : ∀ instruction, frame.template.Contains instruction -> instruction.UsesVariables ->
    ∀ (env : Env σ) (machine after : Machine σ) (exception : Exception),
      machine.top? = some frame ->
        Exec.act frame.template instruction env machine ≠ .error (.thrown exception) after

namespace Exec

variable {frame : Frame} {index : Nat} {machine after : Machine σ}

theorem write_thrown
    (register : Register)
    (value : Value)
    (env : Env σ)
    (machine after : Machine σ)
    (exception : Exception) :
    write register value env machine ≠ .error (.thrown exception) after :=
  fun thrown => change_thrown (use_bind_thrown thrown)

section

variable (within : index < frame.upvalues.size)
include within

/-- A captured variable that the innermost frame has is found. -/
theorem upvalueOperand_of_lt
    {env : Env σ}
    {machine : Machine σ}
    (standing : machine.top? = some frame) :
    upvalueOperand index env machine = .ok frame.upvalues[index] machine := by
  unfold upvalueOperand
  rw [bind_of_ok _ (currentFrame_of_top standing), Array.getElem?_eq_getElem within]
  rfl

theorem getUpvalue_thrown
    (template : Template)
    (destination : Register)
    (env : Env σ)
    (exception : Exception)
    (standing : machine.top? = some frame) :
    act template (.getUpvalue destination index) env machine ≠
      .error (.thrown exception) after := by
  intro thrown
  have found : (do
      let id <- upvalueOperand index
      write destination (<- ask fun machine => machine.cells.upvalue id)) env machine =
        .error (.thrown exception) after := thrown
  rw [bind_of_ok _ (upvalueOperand_of_lt within standing), ask_bind] at found
  exact write_thrown _ _ _ _ _ _ found

theorem setUpvalue_thrown
    (template : Template)
    (source : Register)
    (env : Env σ)
    (exception : Exception)
    (standing : machine.top? = some frame) :
    act template (.setUpvalue index source) env machine ≠
      .error (.thrown exception) after := by
  intro thrown
  have found : ((use (.register source) >>= fun _ =>
      ask fun machine => machine.register source) >>= fun value =>
        upvalueOperand index >>= fun id =>
          update fun machine => machine.modifyCells fun cells => cells.setUpvalue id value)
            env machine = .error (.thrown exception) after := thrown
  rw [bind_assoc] at found
  have stored := use_bind_thrown found
  rw [ask_bind, bind_of_ok _ (upvalueOperand_of_lt within standing)] at stored
  exact change_thrown stored

end

/-- Making a closure of a nested function works if all that it captures is there. -/
theorem createClosure_works
    {template : Template}
    (destination : Register)
    (within : index < template.nested.length)
    (provided : ∀ nested ∈ template.nested, ∀ index,
      .upvalue index ∈ nested.chunk.info.captures -> index < frame.upvalues.size)
    (env : Env σ)
    (exception : Exception)
    (standing : machine.top? = some frame) :
    act template (.createClosure destination index) env machine ≠
      .error (.thrown exception) after := by
  intro thrown
  have raised : (do
      let closure <- createClosure template index
      write destination closure) env machine = .error (.thrown exception) after := thrown
  unfold createClosure at raised
  rw [bind_assoc] at raised
  have raised := use_bind_thrown raised
  rw [List.getElem?_eq_getElem within] at raised
  obtain ⟨ids, resolved⟩ := Machine.exists_resolveCaptures
    template.nested[index].chunk.info.captures frame machine.cells
    (provided _ (List.getElem_mem within))
  obtain ⟨closure, captured⟩ : ∃ closure,
      (machine.captureClosure template.nested[index]).1 = some closure := by
    have found : machine.frames.back? = some frame := standing
    unfold Machine.captureClosure
    rw [found]
    exact ⟨_, congrArg (Option.map _) resolved⟩
  dsimp only at raised
  rw [bind_assoc] at raised
  cases ran : change (fun machine => machine.captureClosure template.nested[index])
      env machine with
  | error stop middle =>
      rw [bind_of_error _ ran] at raised
      cases raised
      exact change_thrown ran
  | ok answer middle =>
      have same : (machine.captureClosure template.nested[index]).1 = answer :=
        congrArg Prod.fst (eq_of_change ran)
      rw [captured] at same
      subst same
      rw [bind_of_ok _ ran] at raised
      dsimp only at raised
      cases made : change (fun machine => machine.instantiate closure) env middle with
      | error stop last =>
          rw [bind_of_error _ made] at raised
          cases raised
          exact change_thrown made
      | ok function last =>
          rw [bind_of_ok _ made] at raised
          exact write_thrown _ _ _ _ _ _ raised

end Exec

/-- A frame of accepted code that has what its code captures is supplied. -/
theorem Frame.supplied
    {origins : Origins}
    {machine : Machine σ}
    (filed : Stage.Filed ⟨origins, machine⟩)
    {frame : Frame}
    (known : origins.template frame.template)
    (accepted : frame.template.chunk.Accepted)
    (captured : frame.upvalues.size = frame.template.chunk.info.captures.length) :
    frame.Supplied σ where
  captured := captured
  works := by
    intro instruction contains uses env machine after exception standing
    obtain ⟨placed, member, rfl⟩ := contains.placed
    have nested := filed.nested frame.template known
    cases same : placed.instruction with
    | getUpvalue destination index =>
        have within := accepted.upvalue_lt member (Or.inl ⟨destination, same⟩)
        exact Exec.getUpvalue_thrown (captured.symm ▸ within) _ _ _ _ standing
    | setUpvalue index source =>
        have within := accepted.upvalue_lt member (Or.inr ⟨source, same⟩)
        exact Exec.setUpvalue_thrown (captured.symm ▸ within) _ _ _ _ standing
    | createClosure destination index =>
        have within : index < frame.template.nested.length := by
          have resolves := @Chunk.Accepted.resolves _ accepted _ member (.function index)
            ⟨destination, same⟩
          unfold Chunk.Resolves at resolves
          rwa [← nested, List.length_map] at resolves
        refine Exec.createClosure_works destination within (fun inner member' index use => ?_)
          env exception standing
        have function : inner.chunk ∈ frame.template.chunk.functions := by
          rw [← nested]
          exact List.mem_map_of_mem member'
        rw [captured]
        exact of_decide_eq_true (accepted.provides function use)
    | _ =>
        rw [same] at uses
        exact uses.elim

/-- The frame of a script has no arguments, so all its registers are undefined. -/
theorem Machine.register_scriptFrame
    (machine : Machine σ)
    (script : Chunk)
    (register : Register) :
    (machine.scriptFrame script).2.cells.register (machine.scriptFrame script).1.window
      register = .undefined :=
  Cells.register_openWindow _ _ register

/-- Accepted code gets its variables and parameters. When a verification accepts a chunk,
then whatever an embedder does, each frame that runs one of its functions is supplied with
what the function captures. A frame that a call makes for one of its closures is supplied
too, and it holds the arguments if there is room for the parameters. The frame of a script
is supplied if the script captures nothing, and starts with undefined registers. -/
theorem accepted_code_supplied
    {chunk : Chunk}
    {limit : Nat}
    (bounded : limit <= Chunk.maxRegister)
    (verified : chunk.verify limit = .ok ())
    {sight : Sight σ}
    (visible : sight.Visible) :
    (∀ frame, sight.machine.Holds frame -> chunk.Encloses frame.template.chunk ->
      frame.function.isSome ∨ frame.template.chunk.info.captures = [] ->
        frame.Supplied σ) ∧
      (∀ id closure, sight.machine.kind? id = some (.function closure) ->
        chunk.Encloses closure.template.chunk ->
        ∀ scope arguments returnTo,
          let opened := sight.machine.openFrame id closure scope arguments returnTo
          opened.1.Supplied σ ∧
            (closure.template.chunk.FitsParameters -> opened.1.Binds opened.2 arguments)) ∧
      ∀ script register,
        let started := sight.machine.scriptFrame script
        started.2.cells.register started.1.window register = .undefined := by
  obtain ⟨_, reached⟩ := visible.reached
  obtain ⟨origins, coherent, filed, strict⟩ := reached.equipped
  have accepted : chunk.Accepted := ⟨limit, bounded, verified⟩
  refine ⟨fun frame held enclosed called => ?_, fun id closure present enclosed => ?_,
    sight.machine.register_scriptFrame⟩
  · have admitted := coherent.admits_held held
    have equipped := admitted.equipped.resolve_left strict
    refine Frame.supplied filed admitted.template (accepted.encloses enclosed) ?_
    cases same : frame.function with
    | some function => exact equipped.function (by rw [same]; rfl)
    | none =>
        have captures := called.resolve_left (by rw [same]; decide)
        rw [equipped.script same, captures]
        rfl
  · intro scope arguments returnTo
    have vouched : origins.Vouches closure := coherent.objects id _ present
    have opened : Machine.Opened origins closure.template id closure.upvalues returnTo
        sight.machine (sight.machine.openFrame id closure scope arguments returnTo) :=
      Machine.opened_openFrame _ id closure scope arguments returnTo
    refine ⟨Frame.supplied filed ?_ ?_ ?_, fun fits =>
      Machine.binds_openFrame reached.tidy id fits scope arguments returnTo⟩
    · rw [opened.template]
      exact vouched.template
    · rw [opened.template]
      exact accepted.encloses enclosed
    · rw [opened.upvalues, opened.template]
      exact vouched.equipped.resolve_left strict

/-- A script that calls a function over its register. -/
def capturingScript : Chunk where
  info := { name := "main", kind := .script }
  code := #[⟨.createClosure 1 0, none⟩, ⟨.loadUndefined 2, none⟩, ⟨.call 2 1 2 0 0, none⟩,
    ⟨.return 2, none⟩]
  registerCount := 3
  functions := [{
    info := { name := "read", kind := .normal, captures := [.register 0] }
    code := #[⟨.getUpvalue 0 0, none⟩, ⟨.return 0, none⟩]
    registerCount := 1 }]

/-- The run of the script up to where its function stores what it captured. -/
def capturingScriptRun : EStateM.Result (Stop Unit) (Machine Unit) Value :=
  Exec.runProgram (.request (.execute capturingScript) fun _ => .finish (.ok .undefined))
    (Env.watched 10 fun sight =>
      sight.used == some (.register 0) && sight.machine.frames.size == 2)
    (Builtins.newMachine {} ())

/-- The function has its variable when it reads it. -/
theorem accepted_code_supplied_capturingScript :
    ∃ sight ∈ Sight.ofRun? capturingScriptRun, ∃ frame ∈ sight.machine.top?,
      frame.function.isSome = true ∧ frame.Supplied Unit := by
  have seen : ∃ sight ∈ Sight.ofRun? capturingScriptRun, ∃ frame ∈ sight.machine.top?,
      frame.function.isSome = true ∧
        (frame.template.chunk.verify Chunk.defaultMaxRegisters).toBool = true := by
    decide +kernel
  obtain ⟨sight, interrupted, frame, standing, called, accepted⟩ := seen
  have verified := Chunk.verify_of_toBool accepted
  have visible : sight.Visible := Sight.visible_of_ofRun? interrupted
  exact ⟨sight, interrupted, frame, standing, called,
    (accepted_code_supplied (by decide) verified visible).1 frame (Machine.holds_top standing)
      .self (Or.inl called)⟩

/-- A script that reads a variable which it captures. -/
def lackingScript : Chunk where
  info := { name := "main", kind := .script, captures := [.register 0] }
  code := #[⟨.getUpvalue 0 0, none⟩, ⟨.return 0, none⟩]
  registerCount := 1

/-- The exception that escapes from a run. -/
def Exception.ofRun? {α : Type} :
    EStateM.Result (Stop σ) (Machine σ) α -> Option Exception
  | .error (.thrown exception) _ => some exception
  | _ => none

/-- Nothing provides what a script captures, though the verification accepts it: the
first instruction of the script fails. -/
theorem script_lacks_captured_variable :
    lackingScript.verify Chunk.defaultMaxRegisters = .ok () ∧
      let started := (Builtins.newMachine {} ()).scriptFrame lackingScript
      started.1.template.instruction? 0 = some (.getUpvalue 0 0) ∧
        Exception.ofRun? (Exec.act started.1.template (.getUpvalue 0 0) (Env.ofFuel 1)
          (started.2.pushFrame started.1)) =
            some (.internalError "upvalue index out of range") := by
  decide +kernel

end ScriptVM

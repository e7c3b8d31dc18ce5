import Mathlib.Data.List.Perm.Basic
import ScriptVM.Machine.Activation
import ScriptVM.Proofs.CapturedVariables

/-!
# Lifetimes of captured registers

Which variable a captured register stands for is a matter of its lifetime. What closures see is
told first by scenes that know lifetimes only, and then by the machine, which realizes them.
-/

/-!
## Lifetimes of registers

Code runs in frames, makes closures that capture registers, and uses what they captured.
A play is what the machine makes of a list of such steps. A scene is what they mean: a
register stands for a variable from one closing of the register to the next, and whoever
captures the register in this time holds this very variable.
-/

namespace ScriptVM

variable {σ : Type}

/-- What code does with registers and captured variables. Registers are those of the
innermost frame. A closure is given by its number in the order in which they were made. -/
inductive VariableStep
  /-- Start a frame that runs a closure, if one is given. -/
  | enter (template : Template) (scope : Scope) (returnTo : ReturnTo) (closure : Option Nat)
  /-- Make a closure of a nested function. -/
  | capture (nested : Template)
  | read (register : Register)
  | write (register : Register) (value : Value)
  /-- Read what a closure captured. -/
  | readCaptured (closure index : Nat)
  /-- Write what a closure captured. -/
  | writeCaptured (closure index : Nat) (value : Value)
  /-- Close the captured variables of the registers from `first` on. -/
  | close (first : Register)
  | pop
  /-- Take the innermost frame off the stack to keep it. -/
  | suspend
  /-- Push a frame that was taken off the stack, the one taken last first. -/
  | resume (place : Nat)

/-- The capture is not that of a register which a frame lacks. -/
def Capture.Fits (size : Nat) : Capture -> Prop
  | .register index => index < size
  | .upvalue _ => True

instance Capture.decidableFits (size : Nat) :
    (capture : Capture) -> Decidable (capture.Fits size)
  | .register index => inferInstanceAs (Decidable (index < size))
  | .upvalue _ => isTrue trivial

/-- What a list of steps shows from a state on, and the state after it. -/
def VariableStep.run {State : Type}
    (act : State -> VariableStep -> List Value × State)
    (state : State) :
    List VariableStep -> List Value × State
  | [] => ([], state)
  | step :: rest =>
      let (seen, state) := act state step
      let (others, state) := run act state rest
      (seen ++ others, state)

/-! ## The machine -/

/-- A machine with the frames that were taken off its stack and the closures made so far. -/
structure Play (σ : Type) where
  machine : Machine σ
  suspended : List Frame := []
  closures : List Closure := []

namespace Play

/-- What a closure captured at an index. -/
def captured? (play : Play σ) (closure index : Nat) : Option UpvalueId := do
  (<- play.closures[closure]?).upvalues[index]?

/-- Start a frame that runs a closure, if one is given. -/
def enter (play : Play σ) (template : Template) (scope : Scope) (returnTo : ReturnTo)
    (closure : Option Nat) : Play σ :=
  let (frame, cells) := Frame.start play.machine.cells template scope returnTo
  let upvalues := (closure.bind fun number => play.closures[number]?).elim #[] Closure.upvalues
  { play with machine := { play.machine with cells }.pushFrame { frame with upvalues } }

/-- Make a closure of a nested function, if what it captures is there. -/
def capture (play : Play σ) (nested : Template) : Play σ :=
  let (closure, machine) := play.machine.captureClosure nested
  { play with machine, closures := play.closures ++ closure.toList }

/-- Write what a closure captured. -/
def writeCaptured (play : Play σ) (closure index : Nat) (value : Value) : Play σ :=
  match play.captured? closure index with
  | some id =>
      { play with
        machine := play.machine.modifyCells fun cells => cells.setUpvalue id value }
  | none => play

/-- Take the innermost frame off the stack to keep it. -/
def suspend (play : Play σ) : Play σ :=
  { play with
    machine := play.machine.takeFrame
    suspended := play.machine.top?.toList ++ play.suspended }

/-- Push a frame that was taken off the stack. -/
def resume (play : Play σ) (place : Nat) : Play σ :=
  match play.suspended[place]? with
  | some frame =>
      { play with
        machine := play.machine.pushFrame frame
        suspended := play.suspended.eraseIdx place }
  | none => play

/-- What one step shows, and the play after it. -/
def act (play : Play σ) : VariableStep -> List Value × Play σ
  | .enter template scope returnTo closure =>
      ([], play.enter template scope returnTo closure)
  | .capture nested => ([], play.capture nested)
  | .read register => ([play.machine.register register], play)
  | .write register value =>
      ([], { play with machine := play.machine.setRegister register value })
  | .readCaptured closure index =>
      (((play.captured? closure index).map play.machine.cells.upvalue).toList, play)
  | .writeCaptured closure index value => ([], play.writeCaptured closure index value)
  | .close first => ([], { play with machine := play.machine.detachFrom first })
  | .pop => ([], { play with machine := play.machine.popFrame })
  | .suspend => ([], play.suspend)
  | .resume place => ([], play.resume place)

/-- What a list of steps shows, and the play after it. -/
def run (play : Play σ) (steps : List VariableStep) : List Value × Play σ :=
  VariableStep.run act play steps

end Play

/-! ## Variables -/

/-- A variable: a register of an activation from one closing of the register to the next. -/
structure Lifetime where
  activation : Nat
  register : Register
  closings : Nat
  deriving DecidableEq

/-- An activation of a function, numbered in the order in which they begin. -/
structure Activation where
  number : Nat
  /-- The number of registers. -/
  size : Nat
  /-- How often each register was closed. -/
  closings : Register -> Nat := fun _ => 0
  /-- The variables that the running closure captured. -/
  captured : List Lifetime := []

namespace Activation

/-- The variable that a register stands for. -/
def lifetime (activation : Activation) (register : Register) : Lifetime :=
  ⟨activation.number, register, activation.closings register⟩

/-- The registers from `first` on are closed once more. -/
def close (activation : Activation) (first : Register) : Activation :=
  { activation with
    closings := fun register =>
      if first <= register then activation.closings register + 1
      else activation.closings register }

/-- The variable of a capture. -/
def capture? (activation : Activation) : Capture -> Option Lifetime
  | .register index => some (activation.lifetime index)
  | .upvalue index => activation.captured[index]?

end Activation

/-- Variables with their values, the activations and the closures. -/
structure Scene where
  /-- The number of activations so far. -/
  begun : Nat := 0
  values : Lifetime -> Value := fun _ => .undefined
  /-- The innermost activation comes first. -/
  running : List Activation := []
  suspended : List Activation := []
  /-- What the closures captured. -/
  closures : List (List Lifetime) := []

namespace Scene

/-- Give a variable a value. -/
def assign (values : Lifetime -> Value) (lifetime : Lifetime) (value : Value) :
    Lifetime -> Value :=
  fun other => if other = lifetime then value else values other

/-- What a closure captured at an index. -/
def captured? (scene : Scene) (closure index : Nat) : Option Lifetime := do
  (<- scene.closures[closure]?)[index]?

/-- Give the variables that the registers of an activation stand for from now on the values
of those that they stood for. -/
def renew (values : Lifetime -> Value) (activation : Activation) (first : Register) :
    Lifetime -> Value :=
  fun lifetime =>
    if lifetime = (activation.close first).lifetime lifetime.register then
      values (activation.lifetime lifetime.register)
    else values lifetime

/-- Begin an activation of a closure, if one is given, with all its registers undefined. -/
def enter (scene : Scene) (size : Nat) (closure : Option Nat) : Scene :=
  let captured := (closure.bind fun number => scene.closures[number]?).getD []
  { scene with
    begun := scene.begun + 1
    values := fun lifetime =>
      if lifetime.activation = scene.begun then .undefined else scene.values lifetime
    running := { number := scene.begun, size, captured } :: scene.running }

/-- Make a closure of what the innermost activation captures, if all of it is there. -/
def capture (scene : Scene) (captures : List Capture) : Scene :=
  match scene.running with
  | [] => scene
  | activation :: _ =>
      { scene with
        closures := scene.closures ++ (captures.mapM activation.capture?).toList }

/-- Read a register of the innermost activation; one that it lacks is undefined. -/
def read (scene : Scene) (register : Register) : Value :=
  match scene.running with
  | [] => .undefined
  | activation :: _ =>
      if register < activation.size then scene.values (activation.lifetime register)
      else .undefined

/-- Write a register of the innermost activation; one that it lacks is ignored. -/
def write (scene : Scene) (register : Register) (value : Value) : Scene :=
  match scene.running with
  | [] => scene
  | activation :: _ =>
      if register < activation.size then
        { scene with values := assign scene.values (activation.lifetime register) value }
      else scene

/-- Write what a closure captured. -/
def writeCaptured (scene : Scene) (closure index : Nat) (value : Value) : Scene :=
  match scene.captured? closure index with
  | some lifetime => { scene with values := assign scene.values lifetime value }
  | none => scene

/-- Let the registers of the innermost activation from `first` on stand for fresh variables
with the same values. -/
def close (scene : Scene) (first : Register) : Scene :=
  match scene.running with
  | [] => scene
  | activation :: outer =>
      { scene with
        values := renew scene.values activation first
        running := activation.close first :: outer }

/-- Suspend the innermost activation. -/
def suspend (scene : Scene) : Scene :=
  { scene with
    running := scene.running.tail
    suspended := scene.running.head?.toList ++ scene.suspended }

/-- Let a suspended activation go on. -/
def resume (scene : Scene) (place : Nat) : Scene :=
  match scene.suspended[place]? with
  | some activation =>
      { scene with
        running := activation :: scene.running
        suspended := scene.suspended.eraseIdx place }
  | none => scene

/-- What one step shows, and the scene after it. -/
def act (scene : Scene) : VariableStep -> List Value × Scene
  | .enter template _ _ closure =>
      ([], scene.enter template.chunk.registerCount closure)
  | .capture nested => ([], scene.capture nested.chunk.info.captures)
  | .read register => ([scene.read register], scene)
  | .write register value => ([], scene.write register value)
  | .readCaptured closure index =>
      (((scene.captured? closure index).map scene.values).toList, scene)
  | .writeCaptured closure index value => ([], scene.writeCaptured closure index value)
  | .close first => ([], scene.close first)
  | .pop => ([], { scene with running := scene.running.tail })
  | .suspend => ([], scene.suspend)
  | .resume place => ([], scene.resume place)

/-- What a list of steps shows, and the scene after it. -/
def run (scene : Scene) (steps : List VariableStep) : List Value × Scene :=
  VariableStep.run act scene steps

/-- The step has an activation to happen in, and captures only registers that this has. -/
def Allows (scene : Scene) : VariableStep -> Prop
  | .enter .. | .readCaptured .. | .writeCaptured .. | .resume _ => True
  | .capture nested =>
      ∃ activation ∈ scene.running.head?, ∀ capture ∈ nested.chunk.info.captures,
        capture.Fits activation.size
  | .read _ | .write .. | .close _ | .pop | .suspend => scene.running ≠ []

instance decidableAllows (scene : Scene) : (step : VariableStep) -> Decidable (scene.Allows step)
  | .enter .. | .readCaptured .. | .writeCaptured .. | .resume _ => isTrue trivial
  | .capture nested =>
      inferInstanceAs (Decidable (∃ activation ∈ scene.running.head?,
        ∀ capture ∈ nested.chunk.info.captures, capture.Fits activation.size))
  | .read _ | .write .. | .close _ | .pop | .suspend =>
      match scene with
      | { running := [], .. } => isFalse fun inhabited => inhabited rfl
      | { running := _ :: _, .. } => isTrue (List.cons_ne_nil _ _)

/-- The scene allows one step after the other. -/
def AllowsAll (scene : Scene) : List VariableStep -> Prop
  | [] => True
  | step :: rest => scene.Allows step ∧ (scene.act step).2.AllowsAll rest

instance decidableAllowsAll (scene : Scene) :
    (steps : List VariableStep) -> Decidable (scene.AllowsAll steps)
  | [] => isTrue trivial
  | step :: rest =>
      let _ := decidableAllowsAll (scene.act step).2 rest
      inferInstanceAs (Decidable (scene.Allows step ∧ (scene.act step).2.AllowsAll rest))

end Scene
/-!
## Lifetimes that a machine realizes

The machine keeps a captured variable in a register as long as the register is open, and in
a cell of its own afterwards. Each captured variable has a name: the lifetime of the register
that it stands for. While some frame has it attached, this frame still is in that lifetime,
and the register holds the value. A variable that no frame has attached holds its value
itself, and its lifetime has passed.
-/

/-! ## Cells -/

theorem WindowId.index_inj {window other : WindowId} :
    window.index = other.index ↔ window = other := by
  cases window
  cases other
  exact ⟨fun same => congrArg WindowId.mk same, fun same => congrArg WindowId.index same⟩

theorem UpvalueId.index_inj {id other : UpvalueId} : id.index = other.index ↔ id = other := by
  cases id
  cases other
  exact ⟨fun same => congrArg UpvalueId.mk same, fun same => congrArg UpvalueId.index same⟩

namespace Cells

variable {cells : Cells} {register : Register} {window : WindowId}

theorem window_setRegister_of_ne
    {window other : WindowId}
    (apart : other ≠ window)
    (register : Register)
    (value : Value) :
    (cells.setRegister window register value).window other = cells.window other := by
  have elsewhere : window.index ≠ other.index :=
    fun same => apart (WindowId.index_inj.1 same).symm
  unfold setRegister Cells.window
  rw [Array.getElem?_modify, if_neg elsewhere]

theorem register_setRegister_of_ne
    {window other : WindowId}
    (apart : other ≠ window)
    (register place : Register)
    (value : Value) :
    (cells.setRegister window register value).register other place =
      cells.register other place := by
  rw [register_eq_window, register_eq_window, window_setRegister_of_ne apart]

/-- A register that the window lacks cannot be written. -/
theorem setRegister_of_size_le
    (outside : (cells.window window).size <= register)
    (value : Value) :
    cells.setRegister window register value = cells := by
  have same : cells.windows.modify window.index
      (fun registers => registers.setIfInBounds register value) = cells.windows := by
    refine Array.ext_getElem? fun index => ?_
    rw [Array.getElem?_modify]
    split
    · next here =>
        subst here
        unfold Cells.window at outside
        cases found : cells.windows[window.index]? with
        | none => rfl
        | some registers =>
            rw [found] at outside
            exact congrArg some (Array.setIfInBounds_eq_of_size_le outside)
    · rfl
  unfold setRegister
  rw [same]

theorem register_of_size_le (outside : (cells.window window).size <= register) :
    cells.register window register = .undefined := by
  rw [register_eq_window, Array.getElem?_eq_none outside]
  rfl

theorem window_openWindow_of_lt (known : window.index < cells.windows.size) (size : Nat) :
    (cells.openWindow size).2.window window = cells.window window := by
  unfold openWindow Cells.window
  rw [Array.getElem?_push, if_neg (Nat.ne_of_lt known)]

theorem register_openWindow_of_lt
    (known : window.index < cells.windows.size)
    (size : Nat)
    (register : Register) :
    (cells.openWindow size).2.register window register = cells.register window register := by
  rw [register_eq_window, register_eq_window, window_openWindow_of_lt known]

theorem upvalue_of_attached
    {id : UpvalueId}
    (attached : cells.upvalues[id.index]? = some (.attached window register)) :
    cells.upvalue id = cells.register window register := by
  unfold Cells.upvalue
  rw [attached]

theorem upvalue_of_detached
    {id : UpvalueId}
    {value : Value}
    (detached : cells.upvalues[id.index]? = some (.detached value)) :
    cells.upvalue id = value := by
  unfold Cells.upvalue
  rw [detached]

/-- Detaching a variable does not change what it reads, nor what others read. -/
theorem upvalue_detach (cells : Cells) (id other : UpvalueId) :
    (cells.detach id).upvalue other = cells.upvalue other := by
  by_cases same : id.index = other.index
  · by_cases known : id.index < cells.upvalues.size
    · obtain rfl := UpvalueId.index_inj.1 same
      refine upvalue_of_detached ?_
      unfold detach
      exact Array.getElem?_setIfInBounds_self_of_lt known
    · unfold detach
      rw [Array.setIfInBounds_eq_of_size_le (Nat.le_of_not_lt known)]
  · unfold Cells.upvalue detach
    rw [Array.getElem?_setIfInBounds_ne same]
    rfl

/-- Detaching variables leaves each of them with what it read before. -/
theorem getElem?_detachAll
    (entries : List (Register × UpvalueId))
    (cells : Cells)
    (id : UpvalueId) :
    (entries.foldl (fun cells entry => cells.detach entry.2) cells).upvalues[id.index]? =
      if id ∈ entries.map Prod.snd then
        (cells.upvalues[id.index]?).map fun _ => .detached (cells.upvalue id)
      else cells.upvalues[id.index]? := by
  induction entries generalizing cells with
  | nil => simp
  | cons entry rest step =>
      rw [List.foldl_cons, step, upvalue_detach, List.map_cons]
      by_cases here : id = entry.2
      · have there : (cells.detach entry.2).upvalues[id.index]? =
            (cells.upvalues[id.index]?).map fun _ => .detached (cells.upvalue id) := by
          subst here
          unfold detach
          dsimp only
          rw [Array.getElem?_setIfInBounds]
          simp only [if_true]
          cases found : cells.upvalues[entry.2.index]? with
          | none => simp [Array.getElem?_eq_none_iff.1 found]
          | some _ => simp [(Array.getElem?_eq_some_iff.1 found).1]
        rw [there, if_pos (List.mem_cons.2 (Or.inl here))]
        split
        · cases cells.upvalues[id.index]? <;> rfl
        · rfl
      · have there : (cells.detach entry.2).upvalues[id.index]? =
            cells.upvalues[id.index]? := by
          unfold detach
          exact Array.getElem?_setIfInBounds_ne fun same => here (UpvalueId.index_inj.1 same).symm
        rw [there]
        simp only [List.mem_cons, here, false_or]

theorem getElem?_addUpvalue
    {index : Nat}
    {upvalue : Upvalue}
    (present : cells.upvalues[index]? = some upvalue)
    (fresh : Upvalue) :
    (cells.addUpvalue fresh).2.upvalues[index]? = some upvalue := by
  have known : index < cells.upvalues.size := (Array.getElem?_eq_some_iff.1 present).1
  unfold addUpvalue
  dsimp only
  rw [Array.getElem?_push, if_neg (Nat.ne_of_lt known)]
  exact present

end Cells

theorem Frame.upvalues_detachFrom
    (frame : Frame)
    (cells : Cells)
    (first : Register)
    (id : UpvalueId) :
    (frame.detachFrom cells first).2.upvalues[id.index]? =
      if ∃ entry ∈ frame.attached, first <= entry.1 ∧ entry.2 = id then
        (cells.upvalues[id.index]?).map fun _ => .detached (cells.upvalue id)
      else cells.upvalues[id.index]? := by
  have leaving : id ∈ (frame.attached.filter fun entry => first <= entry.1).map Prod.snd ↔
      ∃ entry ∈ frame.attached, first <= entry.1 ∧ entry.2 = id := by
    rw [List.mem_map]
    constructor
    · rintro ⟨entry, member, same⟩
      obtain ⟨present, above⟩ := List.mem_filter.1 member
      exact ⟨entry, present, of_decide_eq_true above, same⟩
    · rintro ⟨entry, present, above, same⟩
      exact ⟨entry, List.mem_filter.2 ⟨present, decide_eq_true above⟩, same⟩
  refine (Cells.getElem?_detachAll _ cells id).trans ?_
  by_cases leaves : ∃ entry ∈ frame.attached, first <= entry.1 ∧ entry.2 = id
  · rw [if_pos leaves, if_pos (leaving.2 leaves)]
  · rw [if_neg leaves, if_neg (mt leaving.1 leaves)]

theorem Frame.register_detachFrom
    (frame : Frame)
    (cells : Cells)
    (first : Register)
    (window : WindowId)
    (register : Register) :
    (frame.detachFrom cells first).2.register window register =
      cells.register window register := by
  unfold Cells.register
  rw [(frame.recaptures_detachFrom _ _).windows]

/-! ## Frames and activations -/

namespace Activation

variable {activation : Activation}

theorem lifetime_inj {register other : Register} :
    activation.lifetime register = activation.lifetime other ↔ register = other :=
  ⟨fun same => congrArg Lifetime.register same, fun same => same ▸ rfl⟩

/-- The register has been closed since the lifetime. -/
def Past (activation : Activation) (lifetime : Lifetime) : Prop :=
  activation.number = lifetime.activation ->
    lifetime.closings < activation.closings lifetime.register

theorem Past.ne {lifetime : Lifetime} (past : activation.Past lifetime) (register : Register) :
    lifetime ≠ activation.lifetime register := by
  rintro rfl
  exact Nat.lt_irrefl _ (past rfl)

theorem closings_le_close (activation : Activation) (first register : Register) :
    activation.closings register <= (activation.close first).closings register := by
  unfold close
  dsimp only
  split
  · exact Nat.le_succ _
  · exact Nat.le_refl _

theorem lifetime_close_of_lt {first register : Register} (below : register < first) :
    (activation.close first).lifetime register = activation.lifetime register := by
  unfold lifetime close
  dsimp only
  rw [if_neg (Nat.not_le_of_lt below)]

theorem past_close_lifetime {first register : Register} (above : first <= register) :
    (activation.close first).Past (activation.lifetime register) := by
  intro _
  unfold close lifetime
  dsimp only
  rw [if_pos above]
  exact Nat.lt_succ_self _

end Activation

namespace Scene

variable {values : Lifetime -> Value} {activation : Activation} {lifetime : Lifetime}

theorem assign_of_ne {lifetime other : Lifetime} (apart : other ≠ lifetime) (value : Value) :
    assign values lifetime value other = values other :=
  if_neg apart

theorem assign_same (values : Lifetime -> Value) (lifetime : Lifetime) (value : Value) :
    assign values lifetime value lifetime = value :=
  if_pos rfl

theorem renew_close
    (values : Lifetime -> Value)
    (activation : Activation)
    (first register : Register) :
    renew values activation first ((activation.close first).lifetime register) =
      values (activation.lifetime register) :=
  if_pos rfl

theorem renew_of_number_ne
    (apart : lifetime.activation ≠ activation.number)
    (first : Register) :
    renew values activation first lifetime = values lifetime :=
  if_neg fun same => apart (congrArg Lifetime.activation same)

/-- Lifetimes that have passed, or pass with this closing, keep their values. -/
theorem renew_of_past
    {first : Register}
    (past : (activation.close first).Past lifetime) :
    renew values activation first lifetime = values lifetime :=
  if_neg (past.ne _)

end Scene

/-- Names of captured variables. -/
abbrev Naming :=
  UpvalueId -> Option Lifetime

/-- Every name stays. -/
def Naming.Extends (later names : Naming) : Prop :=
  ∀ {id lifetime}, names id = some lifetime -> later id = some lifetime

theorem Naming.Extends.map_eq
    {later names : Naming}
    (grown : later.Extends names)
    {ids : List UpvalueId}
    {lifetimes : List Lifetime}
    (named : ids.map names = lifetimes.map some) :
    ids.map later = lifetimes.map some := by
  rw [← named]
  refine List.map_congr_left fun id member => ?_
  have called : names id ∈ lifetimes.map some := named ▸ List.mem_map_of_mem member
  obtain ⟨lifetime, _, same⟩ := List.mem_map.1 called
  rw [← same]
  exact grown same.symm

/-- A frame carries out an activation: its registers hold the values of the variables that
they stand for, and what it has attached is named by them. -/
structure Frame.Plays
    (cells : Cells)
    (values : Lifetime -> Value)
    (names : Naming)
    (frame : Frame)
    (activation : Activation) : Prop where
  known : frame.window.index < cells.windows.size
  size : (cells.window frame.window).size = activation.size
  registers : ∀ register < activation.size,
    cells.register frame.window register = values (activation.lifetime register)
  captured : frame.upvalues.toList.map names = activation.captured.map some
  within : ∀ entry ∈ frame.attached, entry.1 < activation.size
  attached : ∀ entry ∈ frame.attached,
    cells.upvalues[entry.2.index]? = some (.attached frame.window entry.1)
  named : ∀ entry ∈ frame.attached, names entry.2 = some (activation.lifetime entry.1)

namespace Frame.Plays

variable {cells : Cells} {values : Lifetime -> Value} {names later : Naming} {frame : Frame}
  {activation : Activation}

/-- One more captured variable does not matter. -/
theorem grow
    (plays : frame.Plays cells values names activation)
    (grown : later.Extends names)
    (fresh : Upvalue) :
    frame.Plays (cells.addUpvalue fresh).2 values later activation where
  known := plays.known
  size := plays.size
  registers := plays.registers
  captured := grown.map_eq plays.captured
  within := plays.within
  attached entry member := Cells.getElem?_addUpvalue (plays.attached entry member) fresh
  named entry member := grown (plays.named entry member)

/-- One more register may be attached. -/
theorem attach
    (plays : frame.Plays cells values names activation)
    {register : Register}
    (within : register < activation.size)
    {id : UpvalueId}
    (attached : cells.upvalues[id.index]? = some (.attached frame.window register))
    (named : names id = some (activation.lifetime register)) :
    Frame.Plays cells values names
      { frame with attached := frame.attached ++ [(register, id)] } activation where
  known := plays.known
  size := plays.size
  registers := plays.registers
  captured := plays.captured
  within := by
    refine List.forall_mem_append.2 ⟨plays.within, fun entry member => ?_⟩
    obtain rfl := List.mem_singleton.1 member
    exact within
  attached := by
    refine List.forall_mem_append.2 ⟨plays.attached, fun entry member => ?_⟩
    obtain rfl := List.mem_singleton.1 member
    exact attached
  named := by
    refine List.forall_mem_append.2 ⟨plays.named, fun entry member => ?_⟩
    obtain rfl := List.mem_singleton.1 member
    exact named

end Frame.Plays

/-- A frame with the activation that it carries out. -/
abbrev Part :=
  Frame × Activation

namespace Part

/-- Two parts have neither registers nor variables in common. -/
def Apart (left right : Part) : Prop :=
  left.1.window ≠ right.1.window ∧ left.2.number ≠ right.2.number

theorem Apart.symm {left right : Part} (apart : left.Apart right) :
    right.Apart left :=
  ⟨apart.1.symm, apart.2.symm⟩

instance : Std.Symm Apart :=
  ⟨fun _ _ => Apart.symm⟩

end Part

/-- Some part has the variable attached. -/
def Attached (parts : List Part) (id : UpvalueId) : Prop :=
  ∃ part ∈ parts, ∃ entry ∈ part.1.attached, entry.2 = id

/-- The machine realizes the variables: frames carry out their activations, and each named
variable that is not attached holds the value of a lifetime that has passed. -/
structure Realizes
    (cells : Cells)
    (values : Lifetime -> Value)
    (begun : Nat)
    (names : Naming)
    (parts : List Part) : Prop where
  plays : ∀ part ∈ parts, part.1.Plays cells values names part.2
  numbered : ∀ part ∈ parts, part.2.number < begun
  apart : parts.Pairwise Part.Apart
  injective : ∀ {id other lifetime}, names id = some lifetime ->
    names other = some lifetime -> id = other
  started : ∀ {id lifetime}, names id = some lifetime -> lifetime.activation < begun
  detached : ∀ {id lifetime}, names id = some lifetime -> ¬ Attached parts id ->
    cells.upvalues[id.index]? = some (.detached (values lifetime)) ∧
      ∀ part ∈ parts, part.2.Past lifetime

namespace Realizes

variable {part : Part}

variable {cells : Cells} {values : Lifetime -> Value} {begun : Nat} {names : Naming}
  {parts : List Part} {lifetime : Lifetime} {id : UpvalueId}

variable (realizes : Realizes cells values begun names parts)
include realizes

theorem perm
    {others : List Part}
    (same : parts.Perm others) :
    Realizes cells values begun names others where
  plays part member := realizes.plays part (same.mem_iff.2 member)
  numbered part member := realizes.numbered part (same.mem_iff.2 member)
  apart := (same.pairwise_iff Part.Apart.symm).1 realizes.apart
  injective := realizes.injective
  started := realizes.started
  detached named loose := by
    have free : ¬ Attached parts _ := fun ⟨part, member, held⟩ =>
      loose ⟨part, same.mem_iff.1 member, held⟩
    obtain ⟨kept, past⟩ := realizes.detached named free
    exact ⟨kept, fun part member => past part (same.mem_iff.2 member)⟩

theorem apart_of_ne
    {part other : Part}
    (member : part ∈ parts)
    (present : other ∈ parts)
    (distinct : part ≠ other) :
    part.Apart other :=
  realizes.apart.forall member present distinct

/-- An attached variable is named by the variable that its register stands for. -/
theorem lifetime_of_attached
    (member : part ∈ parts)
    {entry : Register × UpvalueId}
    (attached : entry ∈ part.1.attached)
    (named : names entry.2 = some lifetime) :
    lifetime = part.2.lifetime entry.1 :=
  Option.some.inj (named.symm.trans ((realizes.plays part member).named entry attached))

/-- A named variable exists. -/
theorem lt_of_named
    (named : names id = some lifetime) :
    id.index < cells.upvalues.size := by
  by_cases held : Attached parts id
  · obtain ⟨part, member, entry, attached, rfl⟩ := held
    exact (Array.getElem?_eq_some_iff.1 ((realizes.plays part member).attached entry attached)).1
  · exact (Array.getElem?_eq_some_iff.1 (realizes.detached named held).1).1

/-- A captured variable reads the value of the variable that names it. -/
theorem upvalue
    (named : names id = some lifetime) :
    cells.upvalue id = values lifetime := by
  by_cases held : Attached parts id
  · obtain ⟨part, member, entry, attached, rfl⟩ := held
    have plays := realizes.plays part member
    rw [Cells.upvalue_of_attached (plays.attached entry attached),
      plays.registers _ (plays.within entry attached),
      realizes.lifetime_of_attached member attached named]
  · exact Cells.upvalue_of_detached (realizes.detached named held).1

/-- Writing a register gives the variable that it stands for a value. -/
theorem setRegister
    (member : part ∈ parts)
    {register : Register}
    (within : register < part.2.size)
    (value : Value) :
    Realizes (cells.setRegister part.1.window register value)
      (Scene.assign values (part.2.lifetime register) value) begun names parts where
  plays other present := by
    have plays := realizes.plays other present
    have written := (realizes.plays part member).size
    refine
      { known := ?_, size := ?_, registers := fun place below => ?_
        captured := plays.captured, within := plays.within
        attached := plays.attached, named := plays.named }
    · unfold Cells.setRegister
      dsimp only
      rw [Array.size_modify]
      exact plays.known
    · rw [Cells.size_window_setRegister, plays.size]
    · by_cases same : part = other
      · subst same
        rw [Cells.register_setRegister (written.symm ▸ within)]
        by_cases here : place = register
        · subst here
          rw [if_pos rfl, Scene.assign_same]
        · rw [if_neg here, Scene.assign_of_ne (mt Activation.lifetime_inj.1 here),
            plays.registers place below]
      · have apart := realizes.apart_of_ne member present same
        have elsewhere : other.2.lifetime place ≠ part.2.lifetime register := fun equal =>
          apart.2 (congrArg Lifetime.activation equal).symm
        rw [Cells.register_setRegister_of_ne apart.1.symm, Scene.assign_of_ne elsewhere,
          plays.registers place below]
  numbered := realizes.numbered
  apart := realizes.apart
  injective := realizes.injective
  started := realizes.started
  detached named loose := by
    obtain ⟨kept, past⟩ := realizes.detached named loose
    rw [Scene.assign_of_ne ((past part member).ne register)]
    exact ⟨kept, past⟩

/-- Writing a captured variable gives the variable that names it a value. -/
theorem setUpvalue
    (named : names id = some lifetime)
    (value : Value) :
    Realizes (cells.setUpvalue id value) (Scene.assign values lifetime value) begun names
      parts := by
  by_cases held : Attached parts id
  · obtain ⟨part, member, entry, attached, rfl⟩ := held
    have plays := realizes.plays part member
    unfold Cells.setUpvalue
    rw [plays.attached entry attached, realizes.lifetime_of_attached member attached named]
    exact realizes.setRegister member (plays.within entry attached) value
  · obtain ⟨kept, past⟩ := realizes.detached named held
    unfold Cells.setUpvalue
    rw [kept]
    refine
      { plays := fun part member => ?_, numbered := realizes.numbered, apart := realizes.apart
        injective := realizes.injective, started := realizes.started
        detached := fun {other meant} called loose => ?_ }
    · have plays := realizes.plays part member
      refine
        { known := plays.known, size := plays.size, captured := plays.captured
          within := plays.within, named := plays.named
          registers := fun register below => ?_, attached := fun entry attached => ?_ }
      · rw [Scene.assign_of_ne ((past part member).ne register).symm]
        exact plays.registers register below
      · have elsewhere : id.index ≠ entry.2.index := fun same =>
          held ⟨part, member, entry, attached, (UpvalueId.index_inj.1 same).symm⟩
        exact (Array.getElem?_setIfInBounds_ne elsewhere).trans (plays.attached entry attached)
    · obtain ⟨holds, gone⟩ := realizes.detached called loose
      refine ⟨?_, gone⟩
      by_cases same : id.index = other.index
      · obtain rfl := UpvalueId.index_inj.1 same
        obtain rfl := Option.some.inj (called.symm.trans named)
        rw [Scene.assign_same]
        exact Array.getElem?_setIfInBounds_self_of_lt (Array.getElem?_eq_some_iff.1 holds).1
      · have distinct : meant ≠ lifetime := by
          rintro rfl
          exact same (congrArg UpvalueId.index (realizes.injective named called))
        rw [Scene.assign_of_ne distinct]
        exact (Array.getElem?_setIfInBounds_ne same).trans holds

end Realizes
end ScriptVM

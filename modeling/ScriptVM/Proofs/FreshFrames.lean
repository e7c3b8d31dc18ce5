import ScriptVM.Proofs.Balance.Operations

/-!
# Fresh frames

Making a frame for a closure opens a register window and binds the arguments in it.
The frame runs the code of the closure from its start and has not executed anything.
-/

namespace ScriptVM

variable {σ : Type} {origins : Origins}

/-! ## Windows -/

namespace Cells

@[simp] theorem size_window_openWindow (cells : Cells) (size : Nat) :
    ((cells.openWindow size).2.window (cells.openWindow size).1).size = size := by
  simp [openWindow, window]

@[simp] theorem size_window_setRegister
    (cells : Cells)
    (id window : WindowId)
    (register : Register)
    (value : Value) :
    ((cells.setRegister window register value).window id).size = (cells.window id).size := by
  unfold setRegister Cells.window
  rw [Array.getElem?_modify]
  split
  · cases cells.windows[id.index]? <;> simp
  · rfl

end Cells

namespace Machine

variable {template : Template} {returnTo : ReturnTo} {closure : Closure} {before : Machine σ}
variable {result : Frame × Machine σ} (machine : Machine σ) (values : List Value)

@[simp] theorem size_window_fillRegisters
    (cells : Cells)
    (id window : WindowId)
    (register : Register) :
    ((fillRegisters cells window register values).window id).size =
      (cells.window id).size := by
  induction values generalizing cells register with
  | nil => rfl
  | cons value rest step =>
      unfold fillRegisters
      rw [step, Cells.size_window_setRegister]

/-- Filling registers writes them one after the other. -/
theorem quietly_fillRegisters
    (machine : Machine σ)
    (window : WindowId)
    (register : Register) :
    Exec.Quietly origins machine
      { machine with cells := fillRegisters machine.cells window register values } := by
  induction values generalizing machine register with
  | nil => exact .refl machine
  | cons value rest step =>
      have written : Exec.Quietly origins machine
          { machine with cells := machine.cells.setRegister window register value } :=
        .cells machine (.setRegister machine.cells window register value)
      exact written.trans (step _ (register + 1))

/-! ## Frames of closures -/

/-- A frame that was made of a template for a call, with its variables captured. -/
structure Opened
    (origins : Origins)
    (template : Template)
    (function : Option ObjectId)
    (upvalues : Array UpvalueId)
    (returnTo : ReturnTo)
    (before : Machine σ)
    (result : Frame × Machine σ) : Prop where
  quiet : Exec.Quietly origins before result.2
  fresh : result.1.Fresh result.2.cells
  template : result.1.template = template
  function : result.1.function = function
  upvalues : result.1.upvalues = upvalues
  returnTo : result.1.returnTo = returnTo

/-- A frame with fresh registers, before the arguments are bound. -/
theorem opened_start
    (template : Template)
    (scope : Scope)
    (returnTo : ReturnTo) :
    Opened origins template none #[] returnTo machine
      ((Frame.start machine.cells template scope returnTo).1,
        { machine with cells := (Frame.start machine.cells template scope returnTo).2 }) where
  quiet := .cells machine (.openWindow machine.cells template.chunk.registerCount)
  fresh :=
    { window := machine.cells.size_window_openWindow template.chunk.registerCount
      next := rfl
      attached := rfl
      tryRegions := rfl
      completions := rfl
      coroutine := rfl
      resumeRegister := rfl }
  template := rfl
  function := rfl
  upvalues := rfl
  returnTo := rfl

/-- Filling in what a call passes leaves a frame fresh. -/
theorem Opened.fill
    {before after : Machine σ}
    {start : Frame × Machine σ}
    (opened : Opened origins template none #[] returnTo before start)
    (function : Option ObjectId)
    (upvalues : Array UpvalueId)
    (arguments : List Value)
    (quiet : Exec.Quietly origins start.2 after)
    (size : (after.cells.window start.1.window).size =
      (start.2.cells.window start.1.window).size) :
    Opened origins template function upvalues returnTo before
      ({ start.1 with function, upvalues, arguments }, after) where
  quiet := opened.quiet.trans quiet
  fresh :=
    { opened.fresh with window := size.trans opened.fresh.window }
  template := opened.template
  function := rfl
  upvalues := rfl
  returnTo := opened.returnTo

theorem opened_openFrame
    (function : ObjectId)
    (closure : Closure)
    (scope : Scope)
    (arguments : List Value)
    (returnTo : ReturnTo) :
    Opened origins closure.template function closure.upvalues returnTo machine
      (machine.openFrame function closure scope arguments returnTo) := by
  have started : Opened origins closure.template none #[] returnTo machine
      ((Frame.start machine.cells closure.template scope returnTo).1,
        { machine with
          cells := (Frame.start machine.cells closure.template scope returnTo).2 }) :=
    opened_start machine closure.template scope returnTo
  unfold openFrame
  dsimp only
  split
  · refine started.fill (some function) closure.upvalues arguments ?_ ?_
    · exact (quietly_fillRegisters _ _ _ 0).trans
        ((Exec.Quietly.ofPasses (Discipline.passes_createArray _ _)).trans
          (.cells _ (.setRegister _ _ _ _)))
    · exact (Cells.size_window_setRegister _ _ _ _ _).trans
        (size_window_fillRegisters _ _ _ _ _)
  · exact started.fill (some function) closure.upvalues arguments
      (quietly_fillRegisters _ _ _ 0) (size_window_fillRegisters _ _ _ _ _)

theorem opened_callFrame
    (function : ObjectId)
    (closure : Closure)
    (receiver : Value)
    (arguments : List Value)
    (returnTo : ReturnTo) :
    Opened origins closure.template function closure.upvalues returnTo machine
      (machine.callFrame function closure receiver arguments returnTo) :=
  machine.opened_openFrame function closure _ arguments returnTo

/-- A frame runs in the scope that it was made for. -/
theorem scope_openFrame
    (function : ObjectId)
    (closure : Closure)
    (scope : Scope)
    (arguments : List Value)
    (returnTo : ReturnTo) :
    (machine.openFrame function closure scope arguments returnTo).1.scope = scope := by
  unfold openFrame
  dsimp only
  split <;> rfl

/-- A call runs in the scope that its closure keeps, or in one whose `this` is known. -/
theorem places_callFrame
    (vouched : origins.Vouches closure)
    (machine : Machine σ)
    (function : ObjectId)
    (receiver : Value)
    (arguments : List Value)
    (returnTo : ReturnTo) :
    origins.Places (machine.callFrame function closure receiver arguments returnTo).1.scope := by
  unfold callFrame
  rw [scope_openFrame]
  unfold callScope
  split
  · cases kept : closure.lexicalScope with
    | none => exact Origins.places_of_bound rfl
    | some scope => exact vouched.lexical scope kept
  · exact Origins.places_of_bound rfl

/-- The scope of a constructor whose `this` comes from the parent constructor. -/
def derivedScope
    (machine : Machine σ)
    (function : ObjectId)
    (closure : Closure)
    (newTarget : Value) : Scope where
  this := .pending machine.cells.addThisCell.1
  newTarget := newTarget
  function := some function
  homeObject := closure.homeObject

/-- A frame for such a constructor. -/
def openDerived
    (machine : Machine σ)
    (function : ObjectId)
    (closure : Closure)
    (arguments : List Value)
    (newTarget : Value) : Frame × Machine σ :=
  { machine with cells := machine.cells.addThisCell.2 }.openFrame function closure
    (machine.derivedScope function closure newTarget) arguments .boundary

/-- The frame of a closure that has what its code captures is admitted. -/
theorem Opened.admits
    {function : ObjectId}
    (opened : Opened origins closure.template function closure.upvalues returnTo before result)
    (vouched : origins.Vouches closure)
    (placed : origins.Places result.1.scope) :
    origins.Admits result.1 where
  template := by
    rw [opened.template]
    exact vouched.template
  equipped := by
    refine vouched.equipped.imp id fun equipped => ⟨fun _ => ?_, fun script => ?_⟩
    · rw [opened.upvalues, opened.template]
      exact equipped
    · rw [opened.function] at script
      cases script
  placed := placed

/-- The frame of a script is admitted. -/
theorem Opened.admitsScript
    (opened : Opened origins template none #[] returnTo before result)
    (known : origins.template template)
    (placed : origins.Places result.1.scope) :
    origins.Admits result.1 where
  template := by
    rw [opened.template]
    exact known
  equipped := by
    refine Or.inr ⟨fun called => ?_, fun _ => opened.upvalues⟩
    rw [opened.function] at called
    cases called
  placed := placed

end Machine
end ScriptVM

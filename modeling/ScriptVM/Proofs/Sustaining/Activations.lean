import ScriptVM.Proofs.Sustaining.Objects
import ScriptVM.Proofs.Sustaining.Stack

/-!
# Activations that sustain a machine

Frames that calls open, closures over the innermost frame, and the routes that throws and
returns take through the stack.
-/

namespace ScriptVM

variable {σ : Type} {collects : Bool}

/-- The suspended frame that a run hands out when it ends. -/
def FrameExit.frame? : FrameExit -> Option Frame
  | .returned _ => none
  | .yielded _ frame _ | .awaiting _ frame | .started frame => some frame

/-- The suspended frame that an instruction hands out. -/
def Flow.frame? : Flow -> Option Frame
  | .continue => none
  | .exit ended => ended.frame?

namespace Machine

variable {machine : Machine σ} [consistent : machine.Consistent collects]

/-! ## Closures -/

theorem sustains_captureClosure_and_vouches (template : Template) :
    machine.Sustains collects (machine.captureClosure template).2 ∧
      (machine.captureClosure template).2.Vouches (machine.captureClosure template).1 := by
  unfold captureClosure
  split
  · exact ⟨.refl machine, vouches_none⟩
  · next frame standing =>
      rcases resolved : resolveCaptures frame machine.cells template.chunk.info.captures with
        ⟨ids, captor, cells⟩
      obtain ⟨sustains, captured⟩ := sustains_resolveCaptures _ standing resolved
      refine ⟨sustains, ?_⟩
      have vouched : machine.Vouches frame :=
        vouches_array.1 consistent.frames frame (Array.mem_of_back? standing)
      have scope := sustains.later.vouches (vouches_frame_scope frame)
      change (machine.withTop captor cells).Vouches (ids.map fun ids => _)
      cases ids with
      | none => exact vouches_none
      | some ids =>
          have ids := vouches_some.1 captured
          have scope : (machine.withTop captor cells).Vouches
              (if template.kind.isArrow then some frame.scope else none) :=
            vouches_ite ..
          exact vouches_some_of (Closure.mk ..)

/-- The closure of a nested function over the innermost frame. -/
instance (template : Template) : machine.Sustains collects (machine.captureClosure template).2 :=
  (sustains_captureClosure_and_vouches template).1

instance (template : Template) :
    (machine.captureClosure template).2.Vouches (machine.captureClosure template).1 :=
  (sustains_captureClosure_and_vouches template).2

/-! ## Calls -/

instance sustains_fillRegisters
    (window : WindowId)
    (register : Register)
    (values : List Value)
    [vouched : machine.Vouches values] :
    machine.Sustains collects
      { machine with cells := fillRegisters machine.cells window register values } := by
  induction values generalizing machine register with
  | nil => exact .refl machine
  | cons value rest step =>
      obtain ⟨first, others⟩ := vouches_cons_iff.1 vouched
      have written : machine.Sustains collects
          { machine with cells := machine.cells.setRegister window register value } :=
        sustains_setCellRegister ..
      have := written.consistent
      have := written.later.vouches others
      exact written.trans (step (register + 1))

omit consistent in
/-- A frame that a call opens has nothing attached. -/
theorem attached_openFrame
    (function : ObjectId)
    (closure : Closure)
    (scope : Scope)
    (arguments : List Value)
    (returnTo : ReturnTo) :
    (machine.openFrame function closure scope arguments returnTo).1.attached = [] := by
  unfold openFrame
  dsimp only
  split <;> rfl

theorem sustains_openFrame_and_vouches
    (function : ObjectId)
    (closure : Closure)
    (scope : Scope)
    (arguments : List Value)
    (returnTo : ReturnTo)
    [named : machine.Vouches (Value.function function)]
    [code : machine.Vouches closure]
    [around : machine.Vouches scope]
    [given : machine.Vouches arguments] :
    machine.Sustains collects (machine.openFrame function closure scope arguments returnTo).2 ∧
      (machine.openFrame function closure scope arguments returnTo).2.Vouches
        (machine.openFrame function closure scope arguments returnTo).1 := by
  have opens : machine.Sustains collects { machine with
      cells := (machine.cells.openWindow closure.template.chunk.registerCount).2 } :=
    inferInstance
  have opened : Vouches { machine with
      cells := (machine.cells.openWindow closure.template.chunk.registerCount).2 }
        (machine.cells.openWindow closure.template.chunk.registerCount).1 := inferInstance
  unfold openFrame Frame.start
  dsimp only
  generalize machine.cells.openWindow closure.template.chunk.registerCount = entry
    at opens opened ⊢
  obtain ⟨window, cells⟩ := entry
  dsimp only at opens opened ⊢
  have := opens.later
  have fills : Sustains collects { machine with cells } { machine with
      cells := fillRegisters cells window 0
        (arguments.take closure.template.chunk.info.parameterCount) } :=
    @sustains_fillRegisters σ collects { machine with cells } opens.consistent window 0 _ _
  have := fills.later
  have := fills.consistent
  generalize bound : ({ machine with
    cells := fillRegisters cells window 0
      (arguments.take closure.template.chunk.info.parameterCount) } : Machine σ) = after at *
  split
  · dsimp only
    exact ⟨(opens.trans fills).trans Descends.sustains, inferInstance⟩
  · exact ⟨opens.trans fills, inferInstance⟩

section
variable (function : ObjectId) (closure : Closure) (arguments : List Value)
  (returnTo : ReturnTo)
  [named : machine.Vouches (Value.function function)] [code : machine.Vouches closure]
  [given : machine.Vouches arguments]

instance sustains_openFrame
    (scope : Scope)
    [machine.Vouches scope] :
    machine.Sustains collects (machine.openFrame function closure scope arguments returnTo).2 :=
  (sustains_openFrame_and_vouches function closure scope arguments returnTo).1

instance vouches_openFrame
    (scope : Scope)
    [machine.Vouches scope] :
    (machine.openFrame function closure scope arguments returnTo).2.Vouches
      (machine.openFrame function closure scope arguments returnTo).1 :=
  (sustains_openFrame_and_vouches function closure scope arguments returnTo).2

instance (receiver : Value) [machine.Vouches receiver] :
    machine.Vouches (machine.callScope function closure receiver) := by
  unfold callScope
  split
  · infer_instance
  · dsimp only
    split <;> infer_instance

instance (receiver : Value) [machine.Vouches receiver] :
    machine.Sustains collects
      (machine.callFrame function closure receiver arguments returnTo).2 :=
  sustains_openFrame ..

instance (receiver : Value) [machine.Vouches receiver] :
    (machine.callFrame function closure receiver arguments returnTo).2.Vouches
      (machine.callFrame function closure receiver arguments returnTo).1 :=
  vouches_openFrame ..

end

/-! ## Routes -/

omit consistent in
theorem frames_exceptionValue (exception : Exception) :
    (machine.exceptionValue exception).2.frames = machine.frames := by
  cases exception with
  | value value => rfl
  | fault fault =>
      unfold exceptionValue errorObject
      dsimp only
      split <;> rfl

/-- Enter the catch body of the innermost frame. -/
theorem sustains_enterCatch
    {frame routed : Frame}
    (standing : machine.top? = some frame)
    (reroutes : frame.Reroutes none routed)
    (value : Value)
    (target : Nat)
    [machine.Vouches value] :
    machine.Sustains collects (machine.modifyTop fun _ =>
      { routed with exception := some value, next := target }) := by
  have vouched : machine.Vouches frame := .of_some standing
  have : machine.Vouches routed := .rerouted reroutes
  have entered : machine.Vouches { routed with exception := some value, next := target } :=
    inferInstance
  obtain ⟨_, _, _, rfl, _⟩ := reroutes
  refine .modifyTop _ (fun other top => ?_) (fun other top => ?_) fun _ _ _ => entered
  · cases standing.symm.trans top
    rfl
  · cases standing.symm.trans top
    rfl

/-! ### Steps of the innermost frame -/

instance (target : Nat) :
    machine.Sustains collects (machine.modifyTop fun frame => { frame with next := target }) := by
  have reroutes : ∀ frame : Frame, frame.Reroutes none { frame with next := target } :=
    fun frame => .next frame target
  exact .reroute _ fun frame _ => reroutes frame

instance (catchTarget finallyTarget : Option Nat) :
    machine.Sustains collects
      (machine.modifyTop fun frame => frame.enterTry catchTarget finallyTarget) := by
  have reroutes : ∀ frame : Frame, frame.Reroutes none (frame.enterTry catchTarget finallyTarget) :=
    fun frame => .regions frame _
  exact .reroute _ fun frame _ => reroutes frame

instance (tryRegions : List TryRegion) :
    machine.Sustains collects (machine.modifyTop fun frame => { frame with tryRegions }) := by
  have reroutes : ∀ frame : Frame, frame.Reroutes none { frame with tryRegions } :=
    fun frame => .regions frame tryRegions
  exact .reroute _ fun frame _ => reroutes frame

instance : machine.Sustains collects (machine.modifyTop Frame.exitTry) := by
  have reroutes : ∀ frame : Frame, frame.Reroutes none frame.exitTry :=
    fun frame => .regions frame _
  exact .reroute _ fun frame _ => reroutes frame

instance (target : Nat) :
    machine.Sustains collects
      (machine.modifyTop fun frame => frame.enterFinally target .normal) :=
  .reroute _ fun frame _ => .enterFinally frame target .normal

instance (id : ObjectId) [machine.Vouches (Value.object id)] :
    machine.Sustains collects
      (machine.modifyTop fun frame => { frame with argumentsObject := some id }) :=
  .modifyTop _ (fun _ _ => rfl) (fun _ _ => rfl) fun _ _ _ => inferInstance

instance (register : Option Register) :
    machine.Sustains collects
      (machine.modifyTop fun frame => { frame with resumeRegister := register }) :=
  .modifyTop _ (fun _ _ => rfl) (fun _ _ => rfl) fun _ _ _ => inferInstance

instance :
    machine.Sustains collects
      (machine.modifyTop fun frame => { frame with delegation := none }) :=
  .modifyTop _ (fun _ _ => rfl) (fun _ _ => rfl) fun _ _ _ => inferInstance

/-- A generator that delegates executes the same instruction again. -/
instance :
    machine.Sustains collects
      (machine.modifyTop fun frame =>
        { frame with next := frame.next - 1, delegating := true }) :=
  .modifyTop _ (fun _ _ => rfl) (fun _ _ => rfl) fun _ _ _ => inferInstance

/-- A jump out of regions. -/
instance sustains_leave (target depth : Nat) :
    machine.Sustains collects (machine.modifyTop fun frame => frame.leave target depth) := by
  refine .modifyTop _ (fun frame _ => ?_) (fun frame _ => ?_) fun frame _ vouched => ?_
  · obtain ⟨_, _, _, _, same, _⟩ := Frame.Reroutes.leave frame target depth
    rw [same]
  · obtain ⟨_, _, _, _, same, _⟩ := Frame.Reroutes.leave frame target depth
    rw [same]
  · obtain ⟨_, reroutes⟩ := Frame.Reroutes.leave frame target depth
    exact .rerouted reroutes

/-! ### Throws and returns -/

/-- Throw through the uppermost frames. -/
instance (exception : Exception) (count : Nat) [vouched : machine.Vouches exception] :
    machine.Sustains collects (machine.unwind exception count).2 := by
  induction count generalizing machine with
  | zero => exact .refl machine
  | succ count step =>
      unfold unwind
      split
      · exact .refl machine
      · next frame standing =>
          have top : machine.top? = some frame := standing
          have reroutes : frame.Reroutes none frame.routeThrow.2 := .routeThrow frame
          split
          · next target routed same =>
              rw [same] at reroutes
              have caught : (machine.exceptionValue exception).2.top? = some frame := by
                unfold top?
                rw [frames_exceptionValue]
                exact standing
              have shown : machine.Sustains collects (machine.exceptionValue exception).2 :=
                inferInstance
              exact shown.trans (sustains_enterCatch caught reroutes _ target)
          · next target routed same =>
              rw [same] at reroutes
              have entered : frame.Reroutes (some (.throw exception))
                  (routed.enterFinally target (.throw exception)) :=
                reroutes.weaken.trans (.enterFinally ..)
              exact .reroute _ fun other stands => Option.some.inj (top.symm.trans stands) ▸ entered
          · have popped : machine.Sustains collects machine.popFrame := inferInstance
            exact popped.trans step

instance (frame : Frame) (value : Value) [machine.Vouches frame] [machine.Vouches value] :
    machine.Vouches (machine.constructResult frame value) := by
  unfold constructResult
  split
  · infer_instance
  · split <;> infer_instance
  · split
    · infer_instance
    · split
      · infer_instance
      · split
        · next present =>
            have : machine.Vouches (machine.cells.this? frame.scope) := inferInstance
            rw [present] at this
            exact vouches_ok.2 (vouches_some.1 this)
        · infer_instance

/-- What an instruction that returns leaves: a machine that vouches for the outcome, in which
no frame is suspended. -/
structure Concludes (collects : Bool) (machine : Machine σ)
    (result : Except Exception Flow × Machine σ) : Prop where
  sustains : machine.Sustains collects result.2
  vouches : result.2.Vouches result.1
  frameless : ∀ flow, result.1 = .ok flow -> flow.frame? = none

namespace Concludes

omit consistent in
theorem error
    {after : Machine σ}
    (sustains : machine.Sustains collects after)
    (exception : Exception)
    [vouched : after.Vouches exception] :
    machine.Concludes collects (.error exception, after) :=
  ⟨sustains, inferInstance, fun _ same => by cases same⟩

omit consistent in
theorem goesOn {after : Machine σ} (sustains : machine.Sustains collects after) :
    machine.Concludes collects (.ok .continue, after) :=
  ⟨sustains, vouches_of_nil rfl, fun _ same => by cases same; rfl⟩

omit consistent in
theorem returns
    {after : Machine σ}
    (sustains : machine.Sustains collects after)
    (value : Value)
    [vouched : after.Vouches value] :
    machine.Concludes collects (.ok (.exit (.returned value)), after) :=
  ⟨sustains, ⟨vouched.accepts⟩, fun _ same => by cases same; rfl⟩

omit consistent in
theorem after
    {middle : Machine σ}
    {result : Except Exception Flow × Machine σ}
    (sustains : machine.Sustains collects middle)
    (concludes : middle.Concludes collects result) :
    machine.Concludes collects result :=
  ⟨sustains.trans concludes.sustains, concludes.vouches, concludes.frameless⟩

end Concludes

/-- Return through the uppermost frames. -/
theorem concludes_returnFrom
    (base : Nat)
    (value : Value)
    (count : Nat)
    [vouched : machine.Vouches value] :
    machine.Concludes collects (machine.returnFrom base value count) := by
  induction count generalizing machine value with
  | zero => exact .error (.refl machine) _
  | succ count step =>
      unfold returnFrom
      split
      · exact .error (.refl machine) _
      · next frame standing =>
          have top : machine.top? = some frame := standing
          have : machine.Vouches frame := .of_some top
          split
          · next routed same =>
              have reroutes := Frame.Reroutes.routeReturn frame value
              rw [same] at reroutes
              exact .goesOn (.reroute _ fun other stands =>
                Option.some.inj (top.symm.trans stands) ▸ reroutes)
          · have popped : machine.Sustains collects machine.popFrame := inferInstance
            have completed : machine.popFrame.Vouches
              (machine.popFrame.constructResult frame value) := inferInstance
            dsimp only
            split
            · next exception same =>
                rw [same] at completed
                have := vouches_error.1 completed
                exact .error popped exception
            · next result same =>
                rw [same] at completed
                have := vouches_ok.1 completed
                split
                · exact .returns popped result
                · split
                  · exact .returns popped result
                  · exact .goesOn Descends.sustains
                  · exact .after popped (step result)

/-- Resume the completion of the innermost finally body. -/
theorem concludes_endFinally (base : Nat) :
    machine.Concludes collects (machine.endFinally base) := by
  unfold endFinally
  split
  · exact .error (.refl machine) _
  · next frame standing =>
      have top : machine.top? = some frame := standing
      have : machine.Vouches frame := .of_some top
      split
      · next depth outer same =>
          have leaves : ∀ frame : Frame, frame.Reroutes none
              ({ frame with tryRegions := outer }.truncate depth) :=
            fun frame => (Frame.Reroutes.regions frame outer).trans (.truncate _ depth)
          have left : machine.Sustains collects
              (machine.modifyTop fun frame => { frame with tryRegions := outer }.truncate depth) :=
            .reroute _ fun frame _ => leaves frame
          dsimp only
          split
          · exact .goesOn left
          · next value pending =>
              have value : machine.Vouches value := vouches_completion_return_iff.1
                (vouches_array.1 (vouches_frame_completions frame) _ (Array.mem_of_getElem? pending))
              have := left.consistent
              have := left.later.vouches value
              exact .after left (concludes_returnFrom base _ _)
          · next exception pending =>
              have exception : machine.Vouches exception := vouches_completion_throw_iff.1
                (vouches_array.1 (vouches_frame_completions frame) _ (Array.mem_of_getElem? pending))
              have := left.later.vouches exception
              exact .error left _
          · have := left.consistent
            exact .goesOn (left.trans (sustains_leave _ _))
          · exact .error left _
      · exact .error inferInstance _

end Machine
end ScriptVM

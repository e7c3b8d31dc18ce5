import ScriptVM.Machine.Activation

/-!
# Unwinding

How throws and returns travel through the frames of a dispatch run. A throw goes
to the innermost handler and pops the frames that have none. A return runs the
finally bodies around it, is completed by the rules for constructors, and goes to
the caller, or further if the frame stood in for its caller.
-/

namespace ScriptVM

/-- How a dispatch run ended. -/
inductive FrameExit
  /-- The boundary frame returned. -/
  | returned (value : Value)
  /-- A generator suspended. The value of a delegating one is the result object of
  the other iterator. -/
  | yielded (value : Value) (frame : Frame) (delegated : Bool)
  /-- An async function suspended. -/
  | awaiting (value : Value) (frame : Frame)
  /-- A fresh generator has set up its parameters. -/
  | started (frame : Frame)

/-- How one instruction ended. -/
inductive Flow
  | continue
  /-- Leave the dispatch run. -/
  | exit (exit : FrameExit)

namespace Machine

variable {σ : Type}

/-- Hand a throw to the innermost handler in the uppermost `count` frames, popping
those without one; the answer tells whether there was one. -/
def unwind (machine : Machine σ) (exception : Exception) : (count : Nat) -> Bool × Machine σ
  | 0 => (false, machine)
  | count + 1 =>
      match machine.frames.back? with
      | none => (false, machine)
      | some frame =>
          match frame.routeThrow with
          | (some (.catchBody target), frame) =>
              let (value, machine) := machine.exceptionValue exception
              (true, machine.modifyTop fun _ =>
                { frame with exception := some value, next := target })
          | (some (.finallyBody target), frame) =>
              (true, machine.modifyTop fun _ =>
                frame.enterFinally target (.throw exception))
          | (none, _) => machine.popFrame.unwind exception count

/-- Complete the result of a frame by the rules for constructors. -/
def constructResult (machine : Machine σ) (frame : Frame) (value : Value) :
    Except Exception Value :=
  match frame.construct with
  | .none => .ok value
  | .base =>
      if value.isObject then .ok value
      else .ok ((machine.cells.this? frame.scope).getD .undefined)
  | .derived =>
      if value.isObject then .ok value
      else if !value.isUndefined then
        .error (.typeError "Derived constructors may only return object or undefined")
      else
        match machine.cells.this? frame.scope with
        | some this => .ok this
        | none => .error .thisBeforeSuper

/-- Return a value from the innermost frame of those above `base`. The answer is the
value again if the run ends with it. -/
def returnFrom (machine : Machine σ) (base : Nat) (value : Value) :
    (count : Nat) -> Except Exception Flow × Machine σ
  | 0 => (.error (.internalError "return without a frame"), machine)
  | count + 1 =>
      match machine.frames.back? with
      | none => (.error (.internalError "return without a frame"), machine)
      | some frame =>
          match frame.routeReturn value with
          | (true, frame) => (.ok .continue, machine.modifyTop fun _ => frame)
          | (false, _) =>
              let machine := machine.popFrame
              match machine.constructResult frame value with
              | .error exception => (.error exception, machine)
              | .ok value =>
                  if machine.frames.size <= base then
                    (.ok (.exit (.returned value)), machine)
                  else
                    match frame.returnTo with
                    | .boundary => (.ok (.exit (.returned value)), machine)
                    | .caller destination =>
                        (.ok .continue, machine.setRegister destination value)
                    | .tailReturn => machine.returnFrom base value count

/-- Resume the completion that entered the innermost finally body. -/
def endFinally (machine : Machine σ) (base : Nat) : Except Exception Flow × Machine σ :=
  match machine.frames.back? with
  | none => (.error (.internalError "no active frame"), machine)
  | some frame =>
      match frame.tryRegions with
      | .finallyBody depth :: outer =>
          let machine := machine.modifyTop fun frame =>
            { frame with tryRegions := outer }.truncate depth
          match frame.completions[depth]? with
          | some .normal => (.ok .continue, machine)
          | some (.return value) =>
              machine.returnFrom base value machine.frames.size
          | some (.throw exception) => (.error exception, machine)
          | some (.jump target depth) =>
              (.ok .continue, machine.modifyTop fun frame => frame.leave target depth)
          | none =>
              (.error (.internalError "finally body without a completion"), machine)
      | regions =>
          (.error (.internalError "EndFinally outside a finally body"),
            machine.modifyTop fun frame => { frame with tryRegions := regions.tail })

end Machine

namespace Exec

variable {σ : Type}

/-- Do something that changes the machine and ends an instruction. -/
def flow (operation : Machine σ -> Except Exception Flow × Machine σ) : Exec σ Flow := do
  ofExcept (<- change operation)

/-- Return a value from the innermost frame. -/
def returnValue (base : Nat) (value : Value) : Exec σ Flow :=
  flow fun machine => machine.returnFrom base value machine.frames.size

end Exec
end ScriptVM

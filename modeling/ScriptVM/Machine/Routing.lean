import ScriptVM.Machine.Frame

/-!
# Routing completions

Where a throw, a return or a jump goes inside one frame. Regions are left from
the innermost outwards. A finally body on the way is entered with the completion
pending; a running finally body that is left drops its own.
-/

namespace ScriptVM

/-- Where a throw goes inside a frame. -/
inductive Catch
  /-- To a catch body. -/
  | catchBody (target : Nat)
  /-- To a finally body, to be thrown again afterwards. -/
  | finallyBody (target : Nat)
  deriving DecidableEq, Repr

namespace Frame

/-- Drop the completions from a depth on. -/
def truncate (frame : Frame) (depth : Nat) : Frame :=
  { frame with completions := frame.completions.take depth }

/-- Enter a finally body with a completion pending. -/
def enterFinally (frame : Frame) (target : Nat) (completion : Completion) : Frame :=
  { frame with
    completions := frame.completions.push completion
    tryRegions := .finallyBody frame.completions.size :: frame.tryRegions
    next := target }

/-- Find the handler of a throw among some regions, leaving those inside of it. A
catch body keeps the finally body of its region. -/
def routeThrowThrough (frame : Frame) : List TryRegion -> Option Catch × Frame
  | [] => (none, { frame with tryRegions := [] })
  | .handler (some catchTarget) (some finallyTarget) :: outer =>
      (some (.catchBody catchTarget),
        { frame with tryRegions := .handler none (some finallyTarget) :: outer })
  | .handler (some catchTarget) none :: outer =>
      (some (.catchBody catchTarget), { frame with tryRegions := outer })
  | .handler none (some finallyTarget) :: outer =>
      (some (.finallyBody finallyTarget), { frame with tryRegions := outer })
  | .handler none none :: outer => frame.routeThrowThrough outer
  | .finallyBody depth :: outer => (frame.truncate depth).routeThrowThrough outer

/-- Find the handler of a throw. -/
def routeThrow (frame : Frame) : Option Catch × Frame :=
  frame.routeThrowThrough frame.tryRegions

/-- Leave all regions, or the innermost finally body with a return pending; the
answer tells whether a finally body was entered. -/
def routeReturnThrough (frame : Frame) (value : Value) : List TryRegion -> Bool × Frame
  | [] => (false, { frame with tryRegions := [] })
  | .handler _ (some finallyTarget) :: outer =>
      (true, { frame with tryRegions := outer }.enterFinally finallyTarget (.return value))
  | .handler _ none :: outer => frame.routeReturnThrough value outer
  | .finallyBody depth :: outer => (frame.truncate depth).routeReturnThrough value outer

/-- Route a return; the answer tells whether a finally body was entered. -/
def routeReturn (frame : Frame) (value : Value) : Bool × Frame :=
  frame.routeReturnThrough value frame.tryRegions

/-- Leave `depth` regions on the way to a jump target; the answer tells whether a
finally body was entered, which then does the rest. -/
def routeJumpThrough (frame : Frame) (target : Nat) :
    Nat -> List TryRegion -> Bool × Frame
  | 0, regions => (false, { frame with tryRegions := regions })
  | _ + 1, [] => (false, { frame with tryRegions := [] })
  | depth + 1, .handler _ (some finallyTarget) :: outer =>
      (true,
        { frame with tryRegions := outer }.enterFinally finallyTarget (.jump target depth))
  | depth + 1, .handler _ none :: outer => frame.routeJumpThrough target depth outer
  | depth + 1, .finallyBody height :: outer =>
      (frame.truncate height).routeJumpThrough target depth outer

/-- Leave `depth` regions and jump, running the finally bodies on the way. -/
def leave (frame : Frame) (target depth : Nat) : Frame :=
  match frame.routeJumpThrough target depth frame.tryRegions with
  | (true, frame) => frame
  | (false, frame) => { frame with next := target }

end Frame
end ScriptVM

import ScriptVM.Proofs.Transition

/-!
# The frame stack

How the operations on the innermost frame change the stack, and what a change of a
frame leaves alone: which activation it is does not depend on where it stands.
-/

namespace ScriptVM

/-! ## One activation at different points -/

/-- Two states of the same activation. -/
structure Frame.SameActivation (before after : Frame) : Prop where
  template : after.template = before.template
  function : after.function = before.function
  window : after.window = before.window
  upvalues : after.upvalues = before.upvalues
  scope : after.scope = before.scope
  returnTo : after.returnTo = before.returnTo
  construct : after.construct = before.construct
  coroutine : after.coroutine = before.coroutine

namespace Frame

variable (frame : Frame)

namespace SameActivation

theorem trans
    {first second third : Frame}
    (earlier : first.SameActivation second)
    (later : second.SameActivation third) :
    first.SameActivation third where
  template := later.template.trans earlier.template
  function := later.function.trans earlier.function
  window := later.window.trans earlier.window
  upvalues := later.upvalues.trans earlier.upvalues
  scope := later.scope.trans earlier.scope
  returnTo := later.returnTo.trans earlier.returnTo
  construct := later.construct.trans earlier.construct
  coroutine := later.coroutine.trans earlier.coroutine

end SameActivation

theorem sameActivation_routeThrowThrough (frame : Frame) (regions : List TryRegion) :
    frame.SameActivation (frame.routeThrowThrough regions).2 := by
  induction frame, regions using routeThrowThrough.induct with
  | case5 frame outer step => exact step
  | case6 frame depth outer step =>
      have truncated : frame.SameActivation (frame.truncate depth) := by
        constructor <;> rfl
      exact truncated.trans step
  | _ => constructor <;> rfl

theorem sameActivation_routeThrow (frame : Frame) : frame.SameActivation frame.routeThrow.2 :=
  frame.sameActivation_routeThrowThrough frame.tryRegions

theorem sameActivation_enterFinally (frame : Frame) (target : Nat) (completion : Completion) :
    frame.SameActivation (frame.enterFinally target completion) := by
  constructor <;> rfl

theorem sameActivation_routeReturnThrough
    (value : Value)
    (regions : List TryRegion) :
    frame.SameActivation (frame.routeReturnThrough value regions).2 := by
  induction frame, regions using routeReturnThrough.induct with
  | case3 frame catchTarget outer step => exact step
  | case4 frame depth outer step =>
      have truncated : frame.SameActivation (frame.truncate depth) := by
        constructor <;> rfl
      exact truncated.trans step
  | _ => constructor <;> rfl

theorem sameActivation_routeReturn (frame : Frame) (value : Value) :
    frame.SameActivation (frame.routeReturn value).2 :=
  frame.sameActivation_routeReturnThrough value frame.tryRegions

theorem sameActivation_routeJumpThrough
    (target depth : Nat)
    (regions : List TryRegion) :
    frame.SameActivation (frame.routeJumpThrough target depth regions).2 := by
  induction frame, depth, regions using routeJumpThrough.induct with
  | case4 frame depth catchTarget outer step => exact step
  | case5 frame depth height outer step =>
      have truncated : frame.SameActivation (frame.truncate height) := by
        constructor <;> rfl
      exact truncated.trans step
  | _ => constructor <;> rfl

theorem sameActivation_leave (frame : Frame) (target depth : Nat) :
    frame.SameActivation (frame.leave target depth) := by
  have routed := frame.sameActivation_routeJumpThrough target depth frame.tryRegions
  unfold leave
  split
  · next jumped equation => rwa [equation] at routed
  · next jumped equation =>
      rw [equation] at routed
      refine routed.trans ?_
      constructor <;> rfl

/-- A turn stays within one activation. -/
theorem Turn.sameActivation {before after : Frame} (turn : before.Turn after) :
    before.SameActivation after := by
  cases turn with
  | leave target depth => exact before.sameActivation_leave target depth
  | endJump height outer target depth =>
      refine SameActivation.trans ?_ (sameActivation_leave _ target depth)
      constructor <;> rfl
  | catchBody routed target value equation =>
      have same := before.sameActivation_routeThrow
      rw [equation] at same
      refine same.trans ?_
      constructor <;> rfl
  | finallyBody routed target exception equation =>
      have same := before.sameActivation_routeThrow
      rw [equation] at same
      exact same.trans (routed.sameActivation_enterFinally target (.throw exception))
  | «return» _ value equation =>
      have same := before.sameActivation_routeReturn value
      rwa [equation] at same
  | _ => constructor <;> rfl

/-- A move stays within one activation. -/
theorem Move.sameActivation {before after : Frame} (move : before.Move after) :
    before.SameActivation after := by
  cases move with
  | advance => constructor <;> rfl
  | turn _ turn => exact turn.sameActivation

end Frame

/-! ## The stack as a list -/

namespace Machine

variable {σ : Type} {below : List Frame} {machine : Machine σ} {top : Frame}

/-- The frames of a machine, innermost last. -/
def stack (machine : Machine σ) : List Frame :=
  machine.frames.toList

@[simp] theorem length_stack (machine : Machine σ) :
    machine.stack.length = machine.frames.size := rfl

theorem stack_eq_iff {left right : Machine σ} :
    left.stack = right.stack ↔ left.frames = right.frames := by
  unfold stack
  exact Array.toList_inj

theorem top?_eq_getLast? (machine : Machine σ) : machine.top? = machine.stack.getLast? := by
  unfold top? stack
  rw [Array.getLast?_toList]

theorem top?_of_stack (standing : machine.stack = below ++ [top]) : machine.top? = some top := by
  rw [top?_eq_getLast?, standing, List.getLast?_concat]

theorem stack_of_top? (standing : machine.top? = some top) :
    ∃ below, machine.stack = below ++ [top] := by
  rw [top?_eq_getLast?] at standing
  exact List.getLast?_eq_some_iff.1 standing

theorem stack_of_no_top (missing : machine.top? = none) : machine.stack = [] := by
  rw [top?_eq_getLast?] at missing
  exact List.getLast?_eq_none_iff.1 missing

@[simp] theorem stack_pushFrame (machine : Machine σ) (frame : Frame) :
    (machine.pushFrame frame).stack = machine.stack ++ [frame] := by
  simp [stack, pushFrame]

@[simp] theorem stack_takeFrame (machine : Machine σ) :
    machine.takeFrame.stack = machine.stack.dropLast := by
  simp [stack, takeFrame]

@[simp] theorem stack_popFrame (machine : Machine σ) :
    machine.popFrame.stack = machine.stack.dropLast := by
  unfold popFrame
  split
  · next missing =>
      rw [stack_of_no_top missing]
      rfl
  · simp [stack]

theorem stack_modifyTop (change : Frame -> Frame) (standing : machine.stack = below ++ [top]) :
    (machine.modifyTop change).stack = below ++ [change top] := by
  have size : machine.frames.size = below.length + 1 := by
    rw [← length_stack, standing]
    simp
  unfold stack at standing
  unfold stack modifyTop
  simp only [Array.toList_modify]
  rw [standing, size, Nat.add_sub_cancel]
  clear standing size
  induction below with
  | nil => rfl
  | cons frame rest step => simp [step]

/-- Only the frames of a change of the innermost frame are in question. -/
theorem modifyTop_eq
    {machine other : Machine σ}
    {change : Frame -> Frame}
    (rest : other = { machine with frames := other.frames })
    (same : (machine.modifyTop change).stack = other.stack) :
    machine.modifyTop change = other := by
  have frames : (machine.modifyTop change).frames = other.frames := stack_eq_iff.1 same
  rw [rest, ← frames]
  rfl

/-- Only what a change does to the innermost frame matters. -/
theorem modifyTop_congr
    {change other : Frame -> Frame}
    (standing : machine.top? = some top)
    (same : change top = other top) :
    machine.modifyTop change = machine.modifyTop other := by
  obtain ⟨below, stack⟩ := stack_of_top? standing
  refine modifyTop_eq rfl ?_
  rw [stack_modifyTop change stack, stack_modifyTop other stack, same]

/-- Two changes of the innermost frame are one. -/
theorem modifyTop_modifyTop
    (first second : Frame -> Frame)
    (standing : machine.top? = some top) :
    (machine.modifyTop first).modifyTop second =
      machine.modifyTop fun frame => second (first frame) := by
  obtain ⟨below, stack⟩ := stack_of_top? standing
  refine modifyTop_eq rfl ?_
  rw [stack_modifyTop second (stack_modifyTop first stack),
    stack_modifyTop (fun frame => second (first frame)) stack]

theorem stack_setTop (frame : Frame) (standing : machine.stack = below ++ [top]) :
    (machine.frames.setIfInBounds (machine.frames.size - 1) frame).toList =
      below ++ [frame] := by
  have size : machine.frames.size = below.length + 1 := by
    rw [← length_stack, standing]
    simp
  unfold stack at standing
  rw [Array.toList_setIfInBounds, standing, size, Nat.add_sub_cancel,
    List.set_append_right _ _ (Nat.le_refl _)]
  simp

@[simp] theorem nativeDepth_popFrame (machine : Machine σ) :
    machine.popFrame.nativeDepth = machine.nativeDepth := by
  unfold popFrame
  split <;> rfl

@[simp] theorem nativeDepth_detachFrom (machine : Machine σ) (first : Register) :
    (machine.detachFrom first).nativeDepth = machine.nativeDepth := by
  unfold detachFrom
  split <;> rfl

@[simp] theorem nativeDepth_captureClosure (machine : Machine σ) (nested : Template) :
    (machine.captureClosure nested).2.nativeDepth = machine.nativeDepth := by
  unfold captureClosure
  split <;> rfl

/-- Detaching captured variables changes only which registers of the innermost frame
are attached. -/
theorem stack_detachFrom (first : Register) (standing : machine.stack = below ++ [top]) :
    ∃ attached, (machine.detachFrom first).stack = below ++ [{ top with attached }] ∧
      attached ⊆ top.attached := by
  have found : machine.frames.back? = some top := top?_of_stack standing
  refine ⟨top.attached.filter fun entry => entry.1 < first, ?_, List.filter_sublist.subset⟩
  unfold detachFrom
  rw [found]
  exact stack_setTop _ standing

end Machine

/-! ## Captures -/

/-- Capturing a register attaches at most this register. -/
theorem Frame.capture_frame (frame : Frame) (cells : Cells) (register : Register) :
    ∃ attached, (frame.capture cells register).2.1 = { frame with attached } ∧
      ∀ entry ∈ attached, entry ∈ frame.attached ∨ entry.1 = register := by
  unfold capture
  split
  · exact ⟨frame.attached, rfl, fun entry old => Or.inl old⟩
  · refine ⟨_, rfl, fun entry member => ?_⟩
    rcases List.mem_append.1 member with old | new
    · exact Or.inl old
    · exact Or.inr (congrArg Prod.fst (List.mem_singleton.1 new))

namespace Machine

variable {σ : Type} {machine : Machine σ} {closure : Closure} {top : Frame} (nested : Template)

/-- Resolving captures attaches at most the registers that are captured. -/
theorem resolveCaptures_frame (captures : List Capture) (frame : Frame) (cells : Cells) :
    ∃ attached,
      (resolveCaptures frame cells captures).2.1 = { frame with attached } ∧
        ∀ entry ∈ attached, entry ∈ frame.attached ∨ .register entry.1 ∈ captures := by
  induction captures generalizing frame cells with
  | nil => exact ⟨frame.attached, rfl, fun _ old => Or.inl old⟩
  | cons capture rest step =>
      cases capture with
      | register register =>
          obtain ⟨first, captured, one⟩ := frame.capture_frame cells register
          obtain ⟨attached, resolved, others⟩ :=
            step (frame.capture cells register).2.1 (frame.capture cells register).2.2
          refine ⟨attached, ?_, fun entry member => ?_⟩
          · have outcome :
                (resolveCaptures frame cells (.register register :: rest)).2.1 =
                  (resolveCaptures (frame.capture cells register).2.1
                    (frame.capture cells register).2.2 rest).2.1 := rfl
            rw [outcome, resolved, captured]
          · rw [captured] at others
            rcases others entry member with before | later
            · rcases one entry before with old | rfl
              · exact Or.inl old
              · exact Or.inr (.head _)
            · exact Or.inr (.tail _ later)
      | upvalue index =>
          unfold resolveCaptures
          split
          · exact ⟨frame.attached, rfl, fun _ old => Or.inl old⟩
          · obtain ⟨attached, resolved, others⟩ := step frame cells
            exact ⟨attached, resolved, fun entry member =>
              (others entry member).imp_right (List.mem_cons_of_mem _)⟩

/-- Making a closure changes only what the innermost frame has attached. -/
theorem stack_captureClosure
    {below : List Frame}
    (standing : machine.stack = below ++ [top]) :
    ∃ attached,
      (machine.captureClosure nested).2.stack = below ++ [{ top with attached }] ∧
        ∀ entry ∈ attached,
          entry ∈ top.attached ∨ .register entry.1 ∈ nested.chunk.info.captures := by
  have found : machine.frames.back? = some top := top?_of_stack standing
  obtain ⟨attached, resolved, captured⟩ :=
    resolveCaptures_frame nested.chunk.info.captures top machine.cells
  refine ⟨attached, ?_, captured⟩
  rw [← resolved]
  unfold captureClosure
  rw [found]
  exact stack_setTop _ standing

/-- A captured closure runs the nested function. -/
theorem template_captureClosure
    (captured : (machine.captureClosure nested).1 = some closure) :
    closure.template = nested := by
  unfold captureClosure at captured
  split at captured
  · cases captured
  · obtain ⟨upvalues, _, rfl⟩ := Option.map_eq_some_iff.1 captured
    rfl

/-- Arrow functions keep the scope of the function around them. -/
theorem lexicalScope_captureClosure
    (innermost : machine.top? = some top)
    (captured : (machine.captureClosure nested).1 = some closure) :
    closure.lexicalScope = if nested.kind.isArrow then some top.scope else none := by
  unfold captureClosure at captured
  rw [show machine.frames.back? = some top from innermost] at captured
  obtain ⟨upvalues, _, rfl⟩ := Option.map_eq_some_iff.1 captured
  rfl

/-- Captures resolve to as many variables as there are. -/
theorem length_resolveCaptures
    (captures : List Capture)
    (frame : Frame)
    (cells : Cells)
    {ids : List UpvalueId}
    (resolved : (resolveCaptures frame cells captures).1 = some ids) :
    ids.length = captures.length := by
  induction captures generalizing frame cells ids with
  | nil =>
      cases resolved
      rfl
  | cons capture rest step =>
      cases capture with
      | register register =>
          obtain ⟨others, made, rfl⟩ := Option.map_eq_some_iff.1 resolved
          exact congrArg Nat.succ (step _ _ made)
      | upvalue index =>
          unfold resolveCaptures at resolved
          split at resolved
          · cases resolved
          · obtain ⟨others, made, rfl⟩ := Option.map_eq_some_iff.1 resolved
            exact congrArg Nat.succ (step _ _ made)

/-- A captured closure has what the nested function captures. -/
theorem equipped_captureClosure
    (captured : (machine.captureClosure nested).1 = some closure) :
    closure.Equipped := by
  unfold captureClosure at captured
  split at captured
  · cases captured
  · obtain ⟨upvalues, resolved, rfl⟩ := Option.map_eq_some_iff.1 captured
    exact List.size_toArray.trans (length_resolveCaptures _ _ _ resolved)

theorem detachFrom_of_no_top (first : Register) (missing : machine.top? = none) :
    machine.detachFrom first = machine := by
  unfold top? at missing
  simp [detachFrom, missing]

end Machine
end ScriptVM

import ScriptVM.Proofs.Balance.Operations

/-!
# Returns and throws within a run

A dispatch run owns the frames above those that were there when it began. Its lowest
frame returns to the native caller; the others return to a frame of the same run,
never beyond it. Returning and unwinding pop frames of the run only, and where the
run ends all of its frames are gone.
-/

namespace ScriptVM

variable {σ : Type}

/-- The code holds an instruction that suspends a generator. -/
def Template.Yields (template : Template) : Prop :=
  ∃ instruction, template.Contains instruction ∧ instruction.yields = true

/-- The code holds an instruction that suspends an async function. -/
def Template.Awaits (template : Template) : Prop :=
  ∃ instruction, template.Contains instruction ∧ instruction.awaits = true

/-- A frame suspends a run that began with another one: it belongs to the same coroutine with
the same code, and it has begun. -/
structure Frame.Suspends (home frame : Frame) : Prop where
  routine : frame.routine? = home.routine?
  due : home.Due -> frame.Due
  begun : home.Opening ∨ home.Begun -> frame.Begun

namespace Template

variable {template : Template}

theorem Yields.isGenerator (yields : template.Yields) (accepted : template.chunk.Accepted) :
    template.kind.isGenerator = true := by
  obtain ⟨instruction, contains, suspends⟩ := yields
  obtain ⟨placed, member, rfl⟩ := contains.placed
  exact accepted.isGenerator member suspends

theorem Awaits.isAsync (awaits : template.Awaits) (accepted : template.chunk.Accepted) :
    template.kind.isAsync = true := by
  obtain ⟨instruction, contains, suspends⟩ := awaits
  obtain ⟨placed, member, rfl⟩ := contains.placed
  exact accepted.isAsync member suspends

end Template

/-- A frame that does not open any more suspends the run that it stands in. -/
theorem Frame.Continues.suspends
    {home frame : Frame}
    (continues : home.Continues frame)
    (further : ¬ home.Opening) :
    home.Suspends frame where
  routine := continues.routine
  due := continues.due
  begun staged := continues.begun (staged.resolve_left further)

/-- The frame that a run ended with came up before. Unless nothing is asked of coroutines, it
suspends the run, its code holds the instruction that does so, and a run ends in another way
than with its initial yield only if it does not open any more. -/
def FrameExit.Known
    (origins : Origins)
    (home : Frame) : FrameExit -> Prop
  | .returned _ => origins.lax ∨ ¬ home.Opening
  | .yielded _ frame _ =>
      origins.frame frame ∧
        (origins.lax ∨ home.Suspends frame ∧ frame.template.Yields ∧ ¬ home.Opening)
  | .awaiting _ frame =>
      origins.frame frame ∧
        (origins.lax ∨ home.Suspends frame ∧ frame.template.Awaits ∧ ¬ home.Opening)
  | .started frame =>
      origins.frame frame ∧
        (origins.lax ∨ home.Suspends frame ∧ frame.template.Yields ∧
          (home.Begun -> ∀ border, ¬ frame.template.Divided border))

/-- A run that began with a frame that stands at the same place ends in the same way. -/
theorem FrameExit.Known.of_continues
    {origins : Origins}
    {home later : Frame}
    {exit : FrameExit}
    (known : exit.Known origins later)
    (continues : home.Continues later) :
    exit.Known origins home := by
  have suspends : ∀ {frame : Frame}, later.Suspends frame -> home.Suspends frame :=
    fun suspends => ⟨suspends.routine.trans continues.routine,
      fun due => suspends.due (continues.due due),
      fun staged => suspends.begun (staged.imp continues.opening continues.begun)⟩
  have further : ¬ later.Opening -> ¬ home.Opening := fun further opening =>
    further (continues.opening opening)
  cases exit with
  | returned => exact known.imp id further
  | yielded | awaiting =>
      exact ⟨known.1, known.2.imp id fun left =>
        ⟨suspends left.1, left.2.1, further left.2.2⟩⟩
  | started =>
      exact ⟨known.1, known.2.imp id fun left =>
        ⟨suspends left.1, left.2.1, fun begun => left.2.2 (continues.begun begun)⟩⟩

/-- A value that a run returns is one that its lowest frame returned, completed by the rules for
constructors. -/
def FrameExit.Completes
    (machine : Machine σ)
    (home : Frame)
    (exit : FrameExit) : Prop :=
  ∀ value, exit = .returned value ->
    ∃ returned, machine.constructResult home returned = .ok value

namespace Machine

variable {machine : Machine σ}

/-- A frame is completed by the same rules as the one that its run began with. -/
theorem exists_constructResult_of_continues
    {home frame : Frame}
    (continues : home.Continues frame)
    {returned value : Value}
    (completed : machine.constructResult frame returned = .ok value) :
    ∃ returned, machine.constructResult home returned = .ok value := by
  by_cases constructs : home.construct = .none
  · exact ⟨value, by rw [constructResult, constructs]⟩
  · obtain ⟨kind, scope⟩ := continues.constructs constructs
    refine ⟨returned, ?_⟩
    unfold constructResult at completed ⊢
    rwa [kind, scope] at completed

/-- Writing a register changes at most a register window. -/
theorem quietly_setRegister
    {origins : Origins}
    (machine : Machine σ)
    (register : Register)
    (value : Value) :
    Exec.Quietly origins machine (machine.setRegister register value) := by
  unfold setRegister
  split
  · exact .cells machine (.setRegister machine.cells _ register value)
  · exact .refl machine

theorem heap_setRegister (machine : Machine σ) (register : Register) (value : Value) :
    (machine.setRegister register value).heap = machine.heap := by
  unfold setRegister
  split <;> rfl

/-! ## Returns -/

/-- How a flow of control leaves a run: it goes on, or its frames are gone. -/
def FlowLeaves
    (below : List Frame)
    (home : Frame)
    (depth : Nat) :
    Except Exception Flow -> Stage σ -> Prop
  | .ok .continue, stage => stage.Running below home depth
  | .ok (.exit exit), stage =>
      stage.Ended below home depth ∧ exit.Known stage.origins home ∧
        exit.Completes stage.machine home
  | .error _, stage => stage.Running below home depth ∨ stage.Ended below home depth

/-- An operation of a run leads by transitions to where its flow of control leaves. -/
structure Steers
    (below : List Frame)
    (home : Frame)
    (depth : Nat)
    (origins : Origins)
    (before : Machine σ)
    (result : Except Exception Flow × Machine σ) : Prop where
  leads : Stage.Leads ⟨origins, before⟩ ⟨origins, result.2⟩
  leaves : FlowLeaves below home depth result.1 ⟨origins, result.2⟩

variable {below : List Frame} {home : Frame} {depth : Nat} {origins : Origins}

theorem Steers.after_leads
    {before middle : Machine σ}
    {result : Except Exception Flow × Machine σ}
    (leads : Stage.Leads ⟨origins, before⟩ ⟨origins, middle⟩)
    (steers : Steers below home depth origins middle result) :
    Steers below home depth origins before result :=
  ⟨leads.trans steers.leads, steers.leaves⟩

/-- A run goes on without its innermost frame, unless that was the lowest one. -/
theorem leaves_popFrame
    {run : List Frame}
    {top : Frame}
    (running : Stage.Running below home depth ⟨origins, machine⟩)
    (frames : FramesOfRun home (run ++ [top]))
    (standing : machine.stack = (below ++ run) ++ [top]) :
    run = [] ∧ Stage.Ended below home depth ⟨origins, machine.popFrame⟩ ∨
      top.Inner ∧ FramesOfRun home run ∧
        (run.length = 1 -> top.returnTo = .tailReturn -> ¬ home.Opening) ∧
          Stage.Running below home depth ⟨origins, machine.popFrame⟩ := by
  have left : machine.popFrame.stack = below ++ run := by
    rw [stack_popFrame, standing, List.dropLast_concat]
  have native : machine.popFrame.nativeDepth = depth := by
    rw [nativeDepth_popFrame]
    exact running.depth
  have manned : Stage.Manned top.routine? ⟨origins, machine.popFrame⟩ :=
    running.manned.imp id fun manned => manned.leave standing left machine.heap_popFrame
  rcases frames.dropTop with ⟨rfl, continues⟩ | ⟨rest, inner, last⟩
  · refine Or.inl ⟨rfl, left.trans (List.append_nil below), native, ?_⟩
    rw [← continues.routine]
    exact manned
  · rw [Frame.routine?_eq_none.2 inner.coroutine] at manned
    exact Or.inr ⟨inner, rest, last, ⟨run, rest, left⟩, native, manned⟩

/-- A return from the innermost frame: each frame that returns is popped, and only the
lowest one ends the run. -/
theorem steers_returnFrom
    (count : Nat)
    (machine : Machine σ)
    (value : Value)
    (running : Stage.Running below home depth ⟨origins, machine⟩)
    (returns : Stage.MayReturn below home ⟨origins, machine⟩) :
    Steers below home depth origins machine
      (machine.returnFrom below.length value count) := by
  induction count generalizing machine value with
  | zero => exact ⟨.refl, Or.inl running⟩
  | succ count further =>
      obtain ⟨run, top, frames, standing⟩ := running.exists_top
      have found : machine.frames.back? = some top := top?_of_stack standing
      unfold returnFrom
      rw [found]
      dsimp only
      split
      · next routed equation =>
          obtain ⟨leads, goesOn⟩ := running.turn found (.return top routed value equation)
          exact ⟨leads, goesOn⟩
      · have popped : Stage.Leads ⟨origins, machine⟩ ⟨origins, machine.popFrame⟩ :=
          .single (.pop origins machine)
        have size : machine.popFrame.frames.size = below.length + run.length := by
          rw [← length_stack, stack_popFrame, standing, List.dropLast_concat,
            List.length_append]
        rcases leaves_popFrame running frames standing with ⟨rfl, ended⟩ |
          ⟨inner, rest, last, goesOn⟩
        · have continues := (running.continues_of_lowest found (by
            rw [← length_stack, standing, List.append_nil, List.length_append,
              List.length_singleton])).1
          have lowest : machine.popFrame.frames.size <= below.length := Nat.le_of_eq size
          have alone : machine.frames.size = below.length + 1 := by
            rw [← length_stack, standing, List.append_nil, List.length_append,
              List.length_singleton]
          split
          · exact ⟨popped, Or.inr ended⟩
          · next completed =>
              rw [if_pos lowest]
              refine ⟨popped, ended, returns.imp id fun returns => returns alone, ?_⟩
              rintro _ ⟨⟩
              exact exists_constructResult_of_continues continues completed
        · have nonempty : 0 < run.length := List.length_pos_iff.2 rest.ne_nil
          split
          · exact ⟨popped, Or.inl goesOn⟩
          · rw [if_neg (by omega)]
            split
            · next boundary => exact absurd boundary inner.returnTo
            · next destination _ =>
                have written : Exec.Quietly origins machine.popFrame
                    (machine.popFrame.setRegister destination ‹Value›) :=
                  quietly_setRegister machine.popFrame destination _
                exact ⟨popped.trans written.leads,
                  goesOn.same (.beside (machine.popFrame.heap_setRegister destination _)
                    written.same.frames written.same.nativeDepth)⟩
            · next passes =>
                have remains : Stage.MayReturn below home ⟨origins, machine.popFrame⟩ :=
                  Or.inr fun alone => last (Nat.add_left_cancel (size.symm.trans alone)) passes
                exact (further machine.popFrame _ goesOn remains).after_leads popped

/-! ## Throws -/

/-- Where a throw leaves the run it was handed to: with its handler, or at its end. -/
structure Unwound
    (below : List Frame)
    (home : Frame)
    (depth : Nat)
    (origins : Origins)
    (before : Machine σ)
    (result : Bool × Machine σ) : Prop where
  leads : Stage.Leads ⟨origins, before⟩ ⟨origins, result.2⟩
  handled : result.1 = true -> Stage.Running below home depth ⟨origins, result.2⟩
  unhandled : result.1 = false -> Stage.Ended below home depth ⟨origins, result.2⟩

/-- A throw pops the frames of the run that have no handler for it. -/
theorem unwound_unwind
    (count : Nat)
    (machine : Machine σ)
    (exception : Exception)
    (coherent : Stage.Coherent ⟨origins, machine⟩)
    (size : machine.frames.size = below.length + count)
    (leaves : Stage.Running below home depth ⟨origins, machine⟩ ∨
      Stage.Ended below home depth ⟨origins, machine⟩) :
    Unwound below home depth origins machine (machine.unwind exception count) := by
  induction count generalizing machine with
  | zero =>
      refine ⟨.refl, fun impossible => ?_, fun _ => leaves.resolve_left fun running => ?_⟩
      · cases impossible
      · obtain ⟨run, top, _, standing⟩ := running.exists_top
        rw [← length_stack, show machine.stack = _ from standing, List.length_append,
          List.length_append, List.length_singleton] at size
        omega
  | succ count further =>
      have running : Stage.Running below home depth ⟨origins, machine⟩ := by
        refine leaves.resolve_right fun ended => ?_
        rw [← length_stack, show machine.stack = _ from ended.frames] at size
        omega
      obtain ⟨run, top, frames, standing⟩ := running.exists_top
      have found : machine.frames.back? = some top := top?_of_stack standing
      unfold unwind
      rw [found]
      dsimp only
      split
      · next target routed equation =>
          have allocated : Exec.Quietly origins machine
              (machine.exceptionValue exception).2 :=
            .ofPasses (Discipline.passes_exceptionValue machine exception)
          have same : (machine.exceptionValue exception).2.top? = some top := by
            rw [top?_eq_getLast?, allocated.same.stack, ← top?_eq_getLast?]
            exact found
          obtain ⟨moved, caught⟩ := (running.same (allocated.sameCalls coherent)).turn same
            (.catchBody top routed target (machine.exceptionValue exception).1 equation)
          exact ⟨allocated.leads.trans moved, fun _ => caught, fun impossible => by
            cases impossible⟩
      · next target routed equation =>
          obtain ⟨moved, entered⟩ := running.turn found
            (.finallyBody top routed target exception equation)
          exact ⟨moved, fun _ => entered, fun impossible => by cases impossible⟩
      · have popped : Stage.Leads ⟨origins, machine⟩ ⟨origins, machine.popFrame⟩ :=
          .single (.pop origins machine)
        have shorter : machine.popFrame.frames.size = below.length + count := by
          rw [← length_stack, stack_popFrame, List.length_dropLast, length_stack]
          omega
        have left : Stage.Running below home depth ⟨origins, machine.popFrame⟩ ∨
            Stage.Ended below home depth ⟨origins, machine.popFrame⟩ := by
          rcases leaves_popFrame running frames standing with
            ⟨-, ended⟩ | ⟨-, -, -, goesOn⟩
          · exact Or.inr ended
          · exact Or.inl goesOn
        have unwound := further machine.popFrame (popped.coherent coherent) shorter left
        exact ⟨popped.trans unwound.leads, unwound.handled, unwound.unhandled⟩

/-! ## Finally bodies -/

/-- Ending a finally body steers the run by the completion that entered it. -/
theorem steers_endFinally
    (machine : Machine σ)
    (running : Stage.Running below home depth ⟨origins, machine⟩)
    (returns : Stage.MayReturn below home ⟨origins, machine⟩) :
    Steers below home depth origins machine (machine.endFinally below.length) := by
  obtain ⟨run, top, frames, standing⟩ := running.exists_top
  have found : machine.frames.back? = some top := top?_of_stack standing
  unfold endFinally
  rw [found]
  dsimp only
  split
  · next height outer regions =>
      have ended : machine.modifyTop (fun frame =>
            { frame with tryRegions := outer }.truncate height) =
          machine.modifyTop fun _ => { top with tryRegions := outer }.truncate height :=
        modifyTop_congr found rfl
      obtain ⟨moved, goesOn⟩ := running.turn found
        (.endFinally top height outer regions)
      rw [← ended] at moved goesOn
      split
      · exact ⟨moved, goesOn⟩
      · refine (steers_returnFrom _ _ _ goesOn (returns.imp id fun returns alone => ?_)).after_leads
          moved
        refine returns (Eq.trans ?_ alone)
        exact Array.size_modify.symm
      · exact ⟨moved, Or.inl goesOn⟩
      · next target depth completion =>
          obtain ⟨jumped, lands⟩ := running.turn found
            (.endJump top height outer target depth regions completion)
          have together : (machine.modifyTop fun frame =>
                { frame with tryRegions := outer }.truncate height).modifyTop
                  (fun frame => frame.leave target depth) =
              machine.modifyTop fun _ =>
                ({ top with tryRegions := outer }.truncate height).leave target depth := by
            rw [modifyTop_modifyTop _ _ found]
            exact modifyTop_congr found rfl
          rw [together]
          exact ⟨jumped, lands⟩
      · exact ⟨moved, Or.inl goesOn⟩
  · next regions _ =>
      obtain ⟨moved, goesOn⟩ := running.turn found (.exitTry top)
      have left : machine.modifyTop (fun frame =>
            { frame with tryRegions := top.tryRegions.tail }) =
          machine.modifyTop fun _ => top.exitTry :=
        modifyTop_congr found rfl
      rw [left]
      exact ⟨moved, Or.inl goesOn⟩

end Machine
end ScriptVM

import ScriptVM.Proofs.Completions

/-!
# Finally bodies on the way of a completion

A return, a throw or a jump leaves the regions of its frame from the innermost outwards.
It runs the finally body of every active region that it leaves, each once, drops what was
pending in the running bodies among them, and then takes effect as if they had not been
there.
-/

namespace ScriptVM

variable {σ : Type}

/-! ## Runs -/

namespace Exec

variable {env : Env σ} {base : Nat} {machine : Machine σ} {frame : Frame}

/-- The end of an instruction that completes the innermost frame. -/
def complete (base : Nat) : Completion -> Exec σ Flow
  | .normal => return .continue
  | .return value => returnValue base value
  | .throw exception => raise exception
  | .jump target depth => do
      update fun machine => machine.modifyTop fun frame => frame.leave target depth
      return .continue

/-- Handling an exception that nobody watches. -/
theorem handle_of_unwatched
    (unwatched : ∀ seen, env.watch seen = false)
    (base : Nat)
    (exception : Exception)
    (machine : Machine σ) :
    handle base exception env machine =
      match machine.unwind (machine.attachStack exception) (machine.frames.size - base) with
      | (true, after) => .ok () after
      | (false, after) => .error (.thrown (machine.attachStack exception)) after := by
  unfold handle
  rw [ask_bind, bind_of_ok _ (change_of_unwatched unwatched _ machine)]
  generalize machine.unwind _ _ = result
  match result with
  | (true, after) => rfl
  | (false, after) => rfl

/-- Only what an instruction does matters for how a run goes on. -/
theorem advance_congr
    {first second : Exec σ Flow}
    {before after : Machine σ}
    (same : first env before = second env after) :
    advance base first env before = advance base second env after := by
  unfold advance
  show EStateM.bind (attempt first env) _ before = EStateM.bind (attempt second env) _ after
  unfold EStateM.bind attempt
  rw [same]

variable (unwatched : ∀ seen, env.watch seen = false)
include unwatched

/-- How a run goes on after a change of the machine that ends an instruction. -/
theorem advance_flow
    (operation : Machine σ -> Except Exception Flow × Machine σ)
    (machine : Machine σ) :
    advance base (flow operation) env machine = Machine.settle base (operation machine) := by
  have changed : flow operation env machine =
      (ofExcept (operation machine).1 : Exec σ Flow) env (operation machine).2 :=
    bind_of_ok _ (change_of_unwatched unwatched operation machine)
  have attempted : attempt (flow operation) env machine =
      .ok (operation machine).1 (operation machine).2 := by
    unfold attempt
    rw [changed]
    cases (operation machine).1 <;> rfl
  unfold advance
  rw [bind_of_ok _ attempted]
  match operation machine with
  | (.ok .continue, after) => rfl
  | (.ok (.exit exit), after) => rfl
  | (.error exception, after) =>
      have handled := handle_of_unwatched unwatched base exception after
      show (handle base exception >>= fun _ => pure none : Exec σ _) env after = _
      unfold Machine.settle
      dsimp only
      generalize after.unwind _ _ = result at handled ⊢
      match result with
      | (true, caught) => exact bind_of_ok _ handled
      | (false, escaped) => exact bind_of_error _ handled

/-- How a run goes on after a completion. -/
theorem advance_complete
    (completion : Completion)
    (machine : Machine σ) :
    advance base (complete base completion) env machine =
      Machine.settle base (machine.complete base completion) := by
  have same : complete base completion env machine =
      flow (fun machine => machine.complete base completion) env machine := by
    have changed : flow (fun machine => machine.complete base completion) env machine = _ :=
      bind_of_ok _ (change_of_unwatched unwatched _ machine)
    rw [changed]
    cases completion with
    | «return» value => exact bind_of_ok _ (change_of_unwatched unwatched _ machine)
    | jump target depth =>
        exact bind_of_ok _ (change_of_unwatched unwatched
          (fun machine => ((), machine.modifyTop fun frame => frame.leave target depth)) machine)
    | _ => rfl
  exact (advance_congr same).trans (advance_flow unwatched _ machine)

/-- Fetching an instruction moves the innermost frame past it. -/
theorem fetch_of_instruction
    (standing : machine.top? = some frame)
    {instruction : Instruction}
    (present : frame.template.instruction? frame.next = some instruction) :
    fetch env machine = .ok (some (frame.template, instruction))
      (machine.modifyTop fun _ => { frame with next := frame.next + 1 }) := by
  have moved : machine.modifyTop (fun top => { top with next := frame.next + 1 }) =
      machine.modifyTop fun _ => { frame with next := frame.next + 1 } :=
    Machine.modifyTop_congr standing rfl
  unfold fetch
  rw [ask_bind, standing]
  dsimp only [Option.map_some]
  rw [present]
  have jumped : jump (frame.next + 1) env machine =
      .ok () (machine.modifyTop fun _ => { frame with next := frame.next + 1 }) := by
    rw [← moved]
    exact change_of_unwatched unwatched
      (fun machine => ((), machine.modifyTop fun top => { top with next := frame.next + 1 }))
      machine
  exact bind_of_ok _ jumped

/-- Where a frame stands at the end of a finally body, its run goes on with the completion
that entered the body. -/
theorem advance_endFinally
    (standing : machine.top? = some frame)
    (present : frame.template.instruction? frame.next = some .endFinally)
    {depth : Nat}
    {outer : List TryRegion}
    {completion : Completion}
    (regions : frame.tryRegions = .finallyBody depth :: outer)
    (pending : frame.completions[depth]? = some completion) :
    advance base (step base) env machine =
      Machine.settle base ((machine.modifyTop fun _ =>
        { frame with next := frame.next + 1, tryRegions := outer }.truncate depth).complete
          base completion) := by
  have stepped : step base env machine =
      flow (fun machine => machine.endFinally base) env
        (machine.modifyTop fun _ => { frame with next := frame.next + 1 }) :=
    bind_of_ok _ (fetch_of_instruction unwatched standing present)
  have ended : (machine.modifyTop fun _ => { frame with next := frame.next + 1 }).endFinally
      base = _ :=
    Machine.endFinally_of_entered
      (Machine.top?_modifyTop standing fun _ => { frame with next := frame.next + 1 })
      regions pending
  rw [Machine.modifyTop_const standing] at ended
  rw [advance_congr stepped, advance_flow unwatched, ended]

/-- A run that has come as far as a first result goes on to a last one, and on the way
comes to stand at certain places, where it executes one instruction each time. -/
inductive Visits (base : Nat) (env : Env σ) :
    List Nat -> EStateM.Result (Stop σ) (Machine σ) (Option FrameExit) ->
      EStateM.Result (Stop σ) (Machine σ) (Option FrameExit) -> Prop
  | done (last : EStateM.Result (Stop σ) (Machine σ) (Option FrameExit)) :
      Visits base env [] last last
  | body {machine : Machine σ} {frame : Frame} {targets : List Nat}
      {last : EStateM.Result (Stop σ) (Machine σ) (Option FrameExit)} :
      machine.top? = some frame ->
      Visits base env targets (advance base (step base) env machine) last ->
      Visits base env (frame.next :: targets) (.ok none machine) last

end Exec

/-- How a completion takes effect in a frame that has left the regions on the way: a return
hands on the value; a throw reaches the catch body of the innermost region left, of which a
finally body stays, or else the frame below; a jump goes to its target. -/
def Completion.TakesEffect
    (completion : Completion)
    (base : Nat)
    (machine : Machine σ)
    (left : Frame)
    (last : EStateM.Result (Stop σ) (Machine σ) (Option FrameExit)) : Prop :=
  match completion with
  | .normal => last = .ok none (machine.modifyTop fun _ => left)
  | .return value =>
      left.tryRegions = [] ∧ last = Machine.settle base (machine.popFrame.handOn base left value)
  | .throw exception =>
      let exception := machine.attachStack exception
      match left.tryRegions with
      | [] => last = Machine.settle base (.error exception, machine.popFrame)
      | region :: outer =>
          ∃ target, region.catchTarget? = some target ∧
            last = .ok none ((machine.exceptionValue exception).2.modifyTop fun _ =>
              { left with
                tryRegions := region.rearmed ++ outer
                exception := some (machine.exceptionValue exception).1
                next := target })
  | .jump target _ => last = .ok none (machine.modifyTop fun _ => { left with next := target })

/-- How many regions a jump still has to leave does not matter for its effect. -/
theorem Completion.takesEffect_past
    {completion : Completion}
    {base : Nat}
    {machine : Machine σ}
    {left : Frame}
    {last : EStateM.Result (Stop σ) (Machine σ) (Option FrameExit)} :
    completion.past.TakesEffect base machine left last ↔
      completion.TakesEffect base machine left last := by
  cases completion <;> rfl

namespace Machine

variable {base : Nat} {machine : Machine σ} {frame left : Frame} {completion : Completion}

/-- A completion that leaves no region takes effect at once. -/
theorem takesEffect_of_uncrossed
    (standing : machine.top? = some frame)
    (above : base < machine.frames.size)
    (stacked : completion.HasStack)
    (stays : completion.crossed frame.tryRegions = []) :
    completion.TakesEffect base machine frame (settle base (machine.complete base completion)) := by
  have size : machine.frames.size = machine.popFrame.frames.size + 1 := by
    have popped := machine.size_popFrame
    omega
  cases completion with
  | normal =>
      have same : machine.modifyTop (fun _ => frame) = machine := by
        obtain ⟨below, stack⟩ := stack_of_top? standing
        exact modifyTop_eq rfl ((stack_modifyTop _ stack).trans stack.symm)
      unfold Completion.TakesEffect
      rw [same]
      rfl
  | «return» value =>
      have none : frame.tryRegions = [] := stays
      refine ⟨none, congrArg (settle base) ?_⟩
      have routed : frame.routeReturn value = (false, { frame with tryRegions := [] }) := by
        unfold Frame.routeReturn
        rw [none]
        rfl
      show machine.returnFrom base value machine.frames.size = _
      rw [size, returnFrom_of_routed standing, routed]
      rfl
  | throw exception =>
      have same : machine.attachStack exception = exception :=
        machine.attachStack_of_hasStack stacked
      have sizes : machine.frames.size - base = (machine.popFrame.frames.size - base) + 1 := by
        omega
      unfold Completion.TakesEffect complete settle
      dsimp only
      rw [same, sizes, attachStack_of_hasStack machine.popFrame stacked]
      split
      · next none =>
          have uncaught : frame.routeThrow.1 = .none := by
            unfold Frame.routeThrow
            rw [none]
            rfl
          rw [unwind_of_uncaught standing uncaught]
      · next region outer regions =>
          rw [regions] at stays
          obtain ⟨target, caught⟩ : ∃ target, region.catchTarget? = some target := by
            cases found : region.catchTarget? with
            | none =>
                have crosses : (Completion.throw exception).crosses region := by
                  simp [Completion.crosses, found]
                rw [Completion.crossed_of_crosses crosses] at stays
                cases stays
            | some target => exact ⟨target, rfl⟩
          have routed : frame.routeThrow = (some (.catchBody target),
              { frame with tryRegions := region.rearmed ++ outer }) := by
            unfold Frame.routeThrow
            rw [regions]
            match region, caught with
            | .handler (some _) (some _), rfl => rfl
            | .handler (some _) none, rfl => rfl
          have found : machine.frames.back? = some frame := standing
          refine ⟨target, caught, ?_⟩
          rw [unwind, found]
          dsimp only
          rw [routed]
  | jump target depth =>
      have routed : frame.leave target depth = { frame with next := target } := by
        have done : frame.routeJumpThrough target depth frame.tryRegions = (false, frame) := by
          rcases List.take_eq_nil_iff.1 stays with rfl | none
          · rfl
          · rw [none]
            cases depth <;> simp [Frame.routeJumpThrough, ← none]
        unfold Frame.leave
        rw [done]
      have moved : machine.modifyTop (fun top => top.leave target depth) =
          machine.modifyTop fun _ => { frame with next := target } :=
        modifyTop_congr standing routed
      show settle base (.ok .continue, machine.modifyTop fun top => top.leave target depth) = _
      rw [moved]
      rfl

/-- The effect of a completion does not depend on where its frame stood before. -/
theorem takesEffect_of_rerouted
    {moved : Frame}
    {last : EStateM.Result (Stop σ) (Machine σ) (Option FrameExit)}
    (standing : machine.top? = some frame)
    (rerouted : frame.Rerouted moved)
    (stacked : completion.HasStack)
    (effect : completion.TakesEffect base (machine.modifyTop fun _ => moved) left last) :
    completion.TakesEffect base machine left last := by
  cases completion with
  | normal => 
      unfold Completion.TakesEffect at effect ⊢
      dsimp only at effect ⊢
      rwa [modifyTop_const standing] at effect
  | «return» value =>
      unfold Completion.TakesEffect at effect ⊢
      dsimp only at effect ⊢
      rwa [popFrame_modifyTop standing rerouted] at effect
  | throw exception =>
      unfold Completion.TakesEffect at effect ⊢
      dsimp only at effect ⊢
      rw [attachStack_of_hasStack _ stacked] at effect ⊢
      rw [popFrame_modifyTop standing rerouted, exceptionValue_modifyTop] at effect
      split
      · next none =>
          rw [none] at effect
          exact effect
      · next region outer regions =>
          rw [regions] at effect
          obtain ⟨target, caught, settled⟩ := effect
          have same : (machine.exceptionValue exception).2.top? = some frame := by
            rwa [top?_exceptionValue]
          dsimp only at settled
          rw [modifyTop_const same] at settled
          exact ⟨target, caught, settled⟩
  | jump target depth => 
      unfold Completion.TakesEffect at effect ⊢
      dsimp only at effect ⊢
      rwa [modifyTop_const standing] at effect

end Machine

namespace Exec

variable {env : Env σ} {base : Nat} {machine : Machine σ} {frame : Frame}
  {completion : Completion}

/-- One region on the way of a completion: its finally body is run, if it has one, and then
the completion goes on behind it. -/
theorem visits_region
    {region : TryRegion}
    {outer : List TryRegion}
    (unwatched : ∀ seen, env.watch seen = false)
    (standing : machine.top? = some frame)
    (regions : frame.tryRegions = region :: outer)
    (above : base < machine.frames.size)
    (stacked : completion.HasStack)
    (crosses : completion.crosses region)
    (body : ∀ target, region.finallyTarget? = some target ->
      frame.template.instruction? target = some .endFinally)
    {targets : List Nat}
    {last : EStateM.Result (Stop σ) (Machine σ) (Option FrameExit)}
    (further : Visits base env targets
      (Machine.settle base ((machine.modifyTop fun _ => frame.beyond outer region).complete base
        completion.past)) last) :
    Visits base env (region.finallyTarget?.toList ++ targets)
      (Machine.settle base (machine.complete base completion)) last := by
  cases found : region.finallyTarget? with
  | none =>
      rw [Machine.settle_complete_of_skipped standing regions above stacked crosses found]
      exact further
  | some target =>
      rw [Machine.settle_complete_of_entered standing regions above stacked crosses found]
      have entered := Machine.top?_modifyTop standing fun _ =>
        { frame with tryRegions := outer }.enterFinally target completion.past
      refine .body entered ?_
      rw [advance_endFinally unwatched entered (body target found) rfl
        Array.getElem?_push_size, Machine.modifyTop_const standing]
      have back : { frame with tryRegions := outer, next := target + 1 } =
          frame.beyond outer region := by
        match region, found with
        | .handler _ (some _), rfl => rfl
      have restored :
          ({ { frame with tryRegions := outer }.enterFinally target completion.past with
              next := target + 1, tryRegions := outer }.truncate frame.completions.size) =
            { frame with tryRegions := outer, next := target + 1 } := by
        simp [Frame.truncate, Frame.enterFinally]
      rw [← back, ← restored] at further
      exact further

theorem visits_of_uncrossed
    (standing : machine.top? = some frame)
    (ordered : frame.Ordered)
    (above : base < machine.frames.size)
    (stacked : completion.HasStack)
    (stays : completion.crossed frame.tryRegions = []) :
    ∃ left last,
      frame.Leaves (completion.crossed frame.tryRegions)
          (completion.uncrossed frame.tryRegions) left ∧
        Visits base env (completion.finallyTargets frame.tryRegions)
          (Machine.settle base (machine.complete base completion)) last ∧
        completion.TakesEffect base machine left last := by
  have none : completion.finallyTargets frame.tryRegions = [] := by
    simp [Completion.finallyTargets, stays]
  have kept : completion.uncrossed frame.tryRegions = frame.tryRegions := by
    simp [Completion.uncrossed, stays]
  rw [stays, none, kept]
  exact ⟨frame, _, .nothing ordered, .done _,
    Machine.takesEffect_of_uncrossed standing above stacked stays⟩

/-- A completion whose exception has its stack visits the finally bodies on its way. -/
theorem visits_complete
    {regions : List TryRegion}
    (unwatched : ∀ seen, env.watch seen = false)
    (standing : machine.top? = some frame)
    (inside : frame.tryRegions = regions)
    (ordered : frame.Ordered)
    (above : base < machine.frames.size)
    (stacked : completion.HasStack)
    (bodies : ∀ target ∈ completion.finallyTargets regions,
      frame.template.instruction? target = some .endFinally) :
    ∃ left last,
      frame.Leaves (completion.crossed regions) (completion.uncrossed regions) left ∧
        Visits base env (completion.finallyTargets regions)
          (Machine.settle base (machine.complete base completion)) last ∧
        completion.TakesEffect base machine left last := by
  induction regions generalizing machine frame completion with
  | nil =>
      rw [← inside]
      refine visits_of_uncrossed standing ordered above stacked ?_
      rw [inside, completion.crossed_nil]
  | cons region outer step =>
      by_cases crosses : completion.crosses region
      · rw [Completion.finallyTargets_of_crosses crosses] at bodies
        have nested : TryRegion.OrderedBelow frame.completions.size (region :: outer) :=
          inside ▸ ordered
        have same : (frame.beyond outer region).template = frame.template := by
          obtain ⟨_, _, _, moved⟩ := frame.rerouted_beyond outer region
          rw [moved]
        obtain ⟨left, last, leaves, visits, effect⟩ :=
          step (Machine.top?_modifyTop standing fun _ => frame.beyond outer region)
            (frame.tryRegions_beyond outer region) (Frame.ordered_beyond nested)
            (by rwa [Machine.size_modifyTop]) stacked.past
            (fun target member => by
              rw [same]
              exact bodies target (List.mem_append_right _ member))
        rw [Completion.crossed_of_crosses crosses, Completion.uncrossed_of_crosses crosses,
          Completion.finallyTargets_of_crosses crosses]
        refine ⟨left, last, leaves.cross nested, ?_, ?_⟩
        · refine visits_region unwatched standing inside above stacked crosses ?_ visits
          intro target found
          exact bodies target (List.mem_append_left _ (by rw [found]; exact .head _))
        · exact Completion.takesEffect_past.1 (Machine.takesEffect_of_rerouted standing
            (frame.rerouted_beyond outer region) stacked.past effect)
      · rw [← inside]
        refine visits_of_uncrossed standing ordered above stacked ?_
        rw [inside, Completion.crossed_of_not_crosses crosses]

end Exec

/-- A completion runs the finally bodies of all regions that it leaves, innermost first and
each once, if these bodies do nothing. It drops the completions of the running bodies among
these regions and no others, and takes effect as if it had met none. -/
theorem completions_run_crossed_finally_bodies
    {env : Env σ}
    {base : Nat}
    {machine : Machine σ}
    {frame : Frame}
    (completion : Completion)
    (unwatched : ∀ seen, env.watch seen = false)
    (standing : machine.top? = some frame)
    (ordered : frame.Ordered)
    (above : base < machine.frames.size)
    (bodies : ∀ target ∈ completion.finallyTargets frame.tryRegions,
      frame.template.instruction? target = some .endFinally) :
    ∃ left last,
      frame.Leaves (completion.crossed frame.tryRegions)
          (completion.uncrossed frame.tryRegions) left ∧
        Exec.Visits base env (completion.finallyTargets frame.tryRegions)
          (Exec.advance base (Exec.complete base completion) env machine) last ∧
        completion.TakesEffect base machine left last := by
  have running : 0 < machine.frames.size := Nat.zero_lt_of_lt above
  rw [Exec.advance_complete unwatched]
  cases completion with
  | throw exception =>
      have attached : (Completion.throw (machine.attachStack exception)).HasStack :=
        machine.hasStack_attachStack running exception
      have same : Machine.settle base (machine.complete base (.throw exception)) =
          Machine.settle base
            (machine.complete base (.throw (machine.attachStack exception))) := by
        unfold Machine.complete Machine.settle
        dsimp only
        rw [machine.attachStack_of_hasStack attached]
      obtain ⟨left, last, leaves, visits, effect⟩ :=
        Exec.visits_complete unwatched standing rfl ordered above attached bodies
      refine ⟨left, last, leaves, same ▸ visits, ?_⟩
      unfold Completion.TakesEffect at effect ⊢
      dsimp only at effect ⊢
      rwa [machine.attachStack_of_hasStack attached] at effect
  | _ => exact Exec.visits_complete unwatched standing rfl ordered above trivial bodies

/-- A script that jumps out of two nested try bodies. -/
def leaveScript : Chunk where
  info := { name := "main", kind := .script }
  code := #[
    ⟨.enterTry none (some 4), none⟩,
    ⟨.enterTry none (some 3), none⟩,
    ⟨.leave 5 2, none⟩,
    ⟨.endFinally, none⟩,
    ⟨.endFinally, none⟩,
    ⟨.loadUndefined 0, none⟩,
    ⟨.return 0, none⟩]
  registerCount := 1

/-- The run of the script up to the jump. -/
def leaveRun : EStateM.Result (Stop Unit) (Machine Unit) Value :=
  Exec.runProgram (.request (.execute leaveScript) fun _ => .finish (.ok .undefined))
    (Env.watched 10 fun sight => (sight.machine.top?.map Frame.next) == some 3)
    (Builtins.newMachine {} ())

/-- The jump runs both finally bodies and then goes to its target. -/
theorem completions_run_crossed_finally_bodies_leaveScript :
    ∃ sight ∈ Sight.ofRun? leaveRun, ∃ frame ∈ sight.machine.top?,
      ∃ (left : Frame) (last : EStateM.Result (Stop Unit) (Machine Unit) (Option FrameExit)),
      Exec.Visits 0 (Env.ofFuel 10) [3, 4]
          (Exec.advance 0 (Exec.execute 0 frame.template (.leave 5 2)) (Env.ofFuel 10)
            sight.machine) last ∧
        left.tryRegions = [] ∧
        last = .ok none (sight.machine.modifyTop fun _ => { left with next := 5 }) := by
  have seen : ∃ sight ∈ Sight.ofRun? leaveRun, ∃ frame ∈ sight.machine.top?,
      0 < sight.machine.frames.size ∧
        frame.tryRegions = [.handler none (some 3), .handler none (some 4)] ∧
        frame.template.instruction? 3 = some .endFinally ∧
        frame.template.instruction? 4 = some .endFinally := by
    decide +kernel
  obtain ⟨sight, interrupted, frame, standing, above, regions, inner, outer⟩ := seen
  have ordered : frame.Ordered :=
    Sight.ordered_of_holds (Sight.visible_of_ofRun? interrupted) (Machine.holds_top standing)
  have unwatched : ∀ seen : Sight Unit, (Env.ofFuel 10).watch seen = false := fun _ => rfl
  have targets : (Completion.jump 5 2).finallyTargets frame.tryRegions = [3, 4] := by
    rw [regions]
    rfl
  obtain ⟨left, last, leaves, visits, effect⟩ :=
    completions_run_crossed_finally_bodies (.jump 5 2) unwatched standing ordered above (by
        rw [targets]
        intro target member
        obtain rfl | rfl : target = 3 ∨ target = 4 := by simpa using member
        · exact inner
        · exact outer)
  rw [targets] at visits
  refine ⟨sight, interrupted, frame, standing, left, last, visits, ?_, effect⟩
  rw [leaves.regions, regions]
  rfl

end ScriptVM

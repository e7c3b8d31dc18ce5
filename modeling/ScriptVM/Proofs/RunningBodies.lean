import ScriptVM.Proofs.Completions

/-!
# Running finally bodies

A finally body is entered with a completion pending, which it resumes when it ends. Whatever a frame
does in between, structured or not, the completion of a body that still runs stays where the body
will look for it: regions may be left without their completions, but no completion is dropped before
the region that it belongs to.
-/

namespace ScriptVM

variable {σ : Type}

namespace Frame

variable {frame routed : Frame} {regions : List TryRegion}

variable {before after left : Frame} {completion : Completion} {depth target : Nat}
  {outer : List TryRegion}

/-! ## Steps of a frame -/

/-- A finally body runs, inside of some regions. -/
def Runs (frame : Frame) (depth : Nat) (outer : List TryRegion) : Prop :=
  .finallyBody depth :: outer <:+ frame.tryRegions

/-- No finally body comes to run that did not run before, and nothing more comes to be pending. -/
structure Retains (before after : Frame) : Prop where
  bodies : ∀ depth outer, after.Runs depth outer -> before.Runs depth outer
  completions : after.completions.toList <+: before.completions.toList

/-- Regions are left up to one whose finally body is to be entered. -/
structure ComesTo (before : Frame) (target : Nat) (left : Frame) : Prop where
  retains : before.Retains left
  region : ∃ catchTarget,
    .handler catchTarget (some target) :: left.tryRegions <:+ before.tryRegions

/-- In one step some regions may be left, and a finally body is entered that did not run before. -/
structure Enters (before : Frame) (completion : Completion) (after : Frame) : Prop where
  becomes : before.Becomes after
  entered : ∃ left target, before.Retains left ∧ after = left.enterFinally target completion
  new : ¬ after.tryRegions <:+ before.tryRegions

namespace Retains

theorem trans
    {first second third : Frame}
    (earlier : first.Retains second)
    (later : second.Retains third) :
    first.Retains third where
  bodies depth outer runs := earlier.bodies depth outer (later.bodies depth outer runs)
  completions := later.completions.trans earlier.completions

theorem of_suffix
    (regions : after.tryRegions <:+ before.tryRegions)
    (completions : after.completions.toList <+: before.completions.toList) :
    before.Retains after where
  bodies _ _ runs := runs.trans regions
  completions := completions

/-- Nothing changes but where a frame stands and what it keeps beside its regions. -/
theorem of_same
    (regions : after.tryRegions = before.tryRegions)
    (completions : after.completions = before.completions) :
    before.Retains after :=
  .of_suffix (regions ▸ List.suffix_rfl) (completions ▸ List.prefix_rfl)

/-- Another handler around the regions that a frame is in. -/
theorem handler
    {catchTarget finallyTarget : Option Nat}
    (regions : after.tryRegions = .handler catchTarget finallyTarget :: outer)
    (suffix : outer <:+ before.tryRegions)
    (completions : after.completions = before.completions) :
    before.Retains after where
  bodies depth inside runs := by
    unfold Runs at runs
    rw [regions, List.suffix_cons_iff] at runs
    rcases runs with same | inner
    · cases same
    · exact inner.trans suffix
  completions := completions ▸ List.prefix_rfl

/-- What is still pending is what was pending. -/
theorem getElem?_completions
    (retains : before.Retains after)
    (within : depth < after.completions.size) :
    after.completions[depth]? = before.completions[depth]? := by
  obtain ⟨rest, same⟩ := retains.completions
  rw [← Array.getElem?_toList, ← Array.getElem?_toList, ← same, List.getElem?_append_left within]

end Retains

theorem ComesTo.enters
    (comes : before.ComesTo target left)
    (becomes : before.Becomes (left.enterFinally target completion)) :
    before.Enters completion (left.enterFinally target completion) where
  becomes := becomes
  entered := ⟨left, target, comes.retains, rfl⟩
  new := by
    intro running
    obtain ⟨catchTarget, region⟩ := comes.region
    have within := List.suffix_of_suffix_length_le running region (by simp [enterFinally])
    cases within.eq_of_length (by simp [enterFinally])

/-! ## Leaving regions -/

/-- Leaving a running body drops what is pending from its completion on. -/
theorem retains_truncate (frame : Frame) (depth : Nat) (outer : List TryRegion) :
    { frame with tryRegions := .finallyBody depth :: outer }.Retains
      { frame.truncate depth with tryRegions := outer } := by
  refine .of_suffix (List.suffix_cons _ _) ?_
  simp only [truncate, Array.take_eq_extract, Array.toList_extract]
  exact List.take_prefix _ _

theorem retains_routeThrowThrough (frame : Frame) (regions : List TryRegion) :
    { frame with tryRegions := regions }.Retains (frame.routeThrowThrough regions).2 := by
  induction frame, regions using routeThrowThrough.induct with
  | case1 frame => exact .of_same rfl rfl
  | case2 frame catchTarget finallyTarget outer =>
      exact .handler rfl (List.suffix_cons _ _) rfl
  | case3 frame catchTarget outer => exact .of_suffix (List.suffix_cons _ _) List.prefix_rfl
  | case4 frame finallyTarget outer => exact .of_suffix (List.suffix_cons _ _) List.prefix_rfl
  | case5 frame outer step =>
      have left : Retains { frame with tryRegions := .handler none none :: outer }
          { frame with tryRegions := outer } :=
        .of_suffix (List.suffix_cons _ _) List.prefix_rfl
      exact left.trans step
  | case6 frame depth outer step => exact (frame.retains_truncate depth outer).trans step

/-- A throw that goes to a finally body comes to its region. -/
theorem region_routeThrowThrough
    (route : frame.routeThrowThrough regions = (some (.finallyBody target), routed)) :
    .handler none (some target) :: routed.tryRegions <:+ regions := by
  induction frame, regions using routeThrowThrough.induct with
  | case1 frame => cases route
  | case2 frame catchTarget finallyTarget outer => cases route
  | case3 frame catchTarget outer => cases route
  | case4 frame finallyTarget outer =>
      cases route
      exact List.suffix_rfl
  | case5 frame outer step => exact (step route).trans (List.suffix_cons _ _)
  | case6 frame depth outer step => exact (step route).trans (List.suffix_cons _ _)

theorem ComesTo.of_routeThrow
    {routed : Frame}
    (route : before.routeThrow = (some (.finallyBody target), routed)) :
    before.ComesTo target routed where
  retains := by
    have retains := before.retains_routeThrowThrough before.tryRegions
    unfold routeThrow at route
    rw [route] at retains
    exact retains
  region := ⟨none, region_routeThrowThrough route⟩

/-- A frame that has left some regions already comes to one further out. -/
theorem ComesTo.behind
    {inner : Frame}
    (leaves : before.Retains inner)
    (within : inner.tryRegions <:+ before.tryRegions)
    (comes : inner.ComesTo target left) :
    before.ComesTo target left where
  retains := leaves.trans comes.retains
  region := by
    obtain ⟨catchTarget, found⟩ := comes.region
    exact ⟨catchTarget, found.trans within⟩

/-- A return that is held up comes to the region of a finally body. -/
theorem comesTo_routeReturnThrough
    {value : Value}
    (route : frame.routeReturnThrough value regions = (true, routed)) :
    ∃ target left, { frame with tryRegions := regions }.ComesTo target left ∧
      routed = left.enterFinally target (.return value) := by
  induction frame, regions using routeReturnThrough.induct with
  | case1 frame => cases route
  | case2 frame catchTarget finallyTarget outer =>
      cases route
      exact ⟨finallyTarget, { frame with tryRegions := outer },
        ⟨.of_suffix (List.suffix_cons _ _) List.prefix_rfl, catchTarget, List.suffix_rfl⟩, rfl⟩
  | case3 frame catchTarget outer step =>
      obtain ⟨target, left, comes, same⟩ := step route
      have leaves : Retains { frame with tryRegions := .handler catchTarget none :: outer }
          { frame with tryRegions := outer } :=
        .of_suffix (List.suffix_cons _ _) List.prefix_rfl
      exact ⟨target, left, comes.behind leaves (List.suffix_cons _ _), same⟩
  | case4 frame depth outer step =>
      obtain ⟨target, left, comes, same⟩ := step route
      have leaves := frame.retains_truncate depth outer
      exact ⟨target, left, comes.behind leaves (List.suffix_cons _ _), same⟩

/-- A jump either comes to the region of a finally body or leaves regions only. -/
theorem comesTo_routeJumpThrough (frame : Frame) (goal depth : Nat) (regions : List TryRegion) :
    (∃ target left rest, { frame with tryRegions := regions }.ComesTo target left ∧
      frame.routeJumpThrough goal depth regions =
        (true, left.enterFinally target (.jump goal rest))) ∨
    (∃ left, { frame with tryRegions := regions }.Retains left ∧
      frame.routeJumpThrough goal depth regions = (false, left)) := by
  induction frame, depth, regions using routeJumpThrough.induct with
  | case1 frame regions => exact .inr ⟨_, .of_same rfl rfl, rfl⟩
  | case2 frame depth => exact .inr ⟨_, .of_same rfl rfl, rfl⟩
  | case3 frame depth catchTarget finallyTarget outer =>
      exact .inl ⟨finallyTarget, { frame with tryRegions := outer }, depth,
        ⟨.of_suffix (List.suffix_cons _ _) List.prefix_rfl, catchTarget, List.suffix_rfl⟩, rfl⟩
  | case4 frame depth catchTarget outer step =>
      have leaves : Retains { frame with tryRegions := .handler catchTarget none :: outer }
          { frame with tryRegions := outer } :=
        .of_suffix (List.suffix_cons _ _) List.prefix_rfl
      obtain ⟨target, left, rest, comes, same⟩ | ⟨left, retains, same⟩ := step
      · exact .inl ⟨target, left, rest, comes.behind leaves (List.suffix_cons _ _), same⟩
      · exact .inr ⟨left, leaves.trans retains, same⟩
  | case5 frame depth height outer step =>
      have leaves := frame.retains_truncate height outer
      obtain ⟨target, left, rest, comes, same⟩ | ⟨left, retains, same⟩ := step
      · exact .inl ⟨target, left, rest, comes.behind leaves (List.suffix_cons _ _), same⟩
      · exact .inr ⟨left, leaves.trans retains, same⟩

/-- What a jump out of regions does to a frame that has left some already. -/
theorem comesTo_leave (frame : Frame) (goal depth : Nat) :
    (∃ target left rest, frame.ComesTo target left ∧
      frame.leave goal depth = left.enterFinally target (.jump goal rest)) ∨
    frame.Retains (frame.leave goal depth) := by
  obtain ⟨target, left, rest, comes, same⟩ | ⟨left, retains, same⟩ :=
    frame.comesTo_routeJumpThrough goal depth frame.tryRegions
  · exact .inl ⟨target, left, rest, comes, by rw [leave, same]⟩
  · refine .inr ?_
    rw [leave, same]
    exact retains.trans (.of_same rfl rfl)

/-! ## What a step does to running bodies -/

/-- A step enters one finally body, or none. -/
theorem Becomes.retains_or_enters (becomes : before.Becomes after) :
    before.Retains after ∨ ∃ completion, before.Enters completion after := by
  have enters {target : Nat} {completion : Completion} {left : Frame}
      (comes : before.ComesTo target left)
      (same : after = left.enterFinally target completion) :
      before.Retains after ∨ ∃ completion, before.Enters completion after := by
    subst same
    exact .inr ⟨completion, comes.enters becomes⟩
  have step := becomes
  cases step with
  | prepare _ prepared => exact .inl (by cases prepared <;> exact .of_same rfl rfl)
  | attach => exact .inl (.of_same rfl rfl)
  | move _ move =>
    cases move with
    | advance => exact .inl (.of_same rfl rfl)
    | turn _ turn =>
      cases turn with
      | enterTry catchTarget finallyTarget =>
          exact .inl (.handler rfl List.suffix_rfl rfl)
      | exitTry => exact .inl (.of_suffix (List.tail_suffix _) List.prefix_rfl)
      | gotoFinally target =>
          refine .inr ⟨.normal, becomes, ⟨before, target, .of_same rfl rfl, rfl⟩, ?_⟩
          exact fun running => absurd running.length_le (by simp [enterFinally])
      | leave goal depth =>
          obtain ⟨target, left, rest, comes, same⟩ | retains := before.comesTo_leave goal depth
          · exact enters comes same
          · exact .inl retains
      | endFinally height outer standing =>
          have ended := before.retains_truncate height outer
          rw [← standing] at ended
          exact .inl ended
      | endJump height outer goal depth standing =>
          have ended := before.retains_truncate height outer
          rw [← standing] at ended
          obtain ⟨target, left, rest, comes, same⟩ | retains :=
            ({ before with tryRegions := outer }.truncate height).comesTo_leave goal depth
          · exact enters (comes.behind ended (standing ▸ List.suffix_cons _ _)) same
          · exact .inl (ended.trans retains)
      | catchBody routed target value route =>
          have retains := before.retains_routeThrowThrough before.tryRegions
          unfold routeThrow at route
          rw [route] at retains
          exact .inl (retains.trans (.of_same rfl rfl))
      | finallyBody routed target exception route => exact enters (.of_routeThrow route) rfl
      | «return» _ value route =>
          obtain ⟨target, left, comes, same⟩ := comesTo_routeReturnThrough route
          exact enters comes same
      | _ => exact .inl (.of_same rfl rfl)

/-- A body that runs after a step ran before it, or the step entered it. -/
theorem Enters.runs_or_entered
    (enters : before.Enters completion after)
    (runs : after.Runs depth outer) :
    after.tryRegions = .finallyBody depth :: outer ∨
      ∃ left target, before.Retains left ∧ left.Runs depth outer ∧
        after = left.enterFinally target completion := by
  obtain ⟨left, target, retains, rfl⟩ := enters.entered
  obtain same | within := List.suffix_cons_iff.1 runs
  · exact .inl same.symm
  · exact .inr ⟨left, target, retains, within, rfl⟩

/-- A finally body still runs that was entered with a completion. -/
inductive RunsWith (completion : Completion) (depth : Nat) (outer : List TryRegion) :
    Frame -> Prop
  | entered (before after : Frame) :
      before.Lived -> before.Enters completion after ->
      after.tryRegions = .finallyBody depth :: outer ->
      RunsWith completion depth outer after
  | goesOn (before after : Frame) :
      RunsWith completion depth outer before -> before.Becomes after ->
      after.Runs depth outer ->
      RunsWith completion depth outer after

namespace RunsWith

variable {frame : Frame}

theorem runs (running : frame.RunsWith completion depth outer) : frame.Runs depth outer := by
  cases running with
  | entered before _ _ _ standing =>
      exact ⟨[], standing.symm⟩
  | goesOn before _ _ _ runs => exact runs

theorem lived (running : frame.RunsWith completion depth outer) : frame.Lived := by
  induction running with
  | entered before after lived enters _ => exact .step before after lived enters.becomes
  | goesOn before after _ becomes _ lived => exact .step before after lived becomes

/-- The completion of a body stays where the body looks for it, as long as the body runs. -/
theorem pending (running : frame.RunsWith completion depth outer) :
    frame.completions[depth]? = some completion := by
  induction running with
  | entered before after _ enters standing =>
      obtain ⟨left, target, -, rfl⟩ := enters.entered
      obtain ⟨⟨⟩, -⟩ : .finallyBody left.completions.size = TryRegion.finallyBody depth ∧ _ :=
        List.cons.inj standing
      exact Array.getElem?_push_size
  | goesOn before after earlier becomes runs pending =>
      have ordered : after.Ordered := (Lived.step before after earlier.lived becomes).ordered
      obtain retains | ⟨entering, enters⟩ := becomes.retains_or_enters
      · have within : depth < after.completions.size := ordered.lt_of_mem (runs.mem (by simp))
        rw [retains.getElem?_completions within, pending]
      · obtain again | ⟨left, target, retains, still, rfl⟩ := enters.runs_or_entered runs
        · -- The same body is not entered again while it runs.
          exact absurd (again ▸ earlier.runs) enters.new
        · have within : depth < left.completions.size :=
            ordered.2.lt_of_mem (still.mem (by simp))
          show (left.completions.push entering)[depth]? = some completion
          rw [Array.getElem?_push_lt within, ← Array.getElem?_eq_getElem within,
            retains.getElem?_completions within, pending]

end RunsWith

/-- Every body that runs has been entered, with some completion. -/
theorem Lived.exists_runsWith
    {frame : Frame}
    (lived : frame.Lived)
    (runs : frame.Runs depth outer) :
    ∃ completion, frame.RunsWith completion depth outer := by
  induction lived with
  | fresh cells frame fresh =>
      unfold Runs at runs
      rw [fresh.tryRegions] at runs
      cases List.suffix_nil.1 runs
  | step before after lived becomes exists_before =>
      have goesOn (ran : before.Runs depth outer) :
          ∃ completion, after.RunsWith completion depth outer := by
        obtain ⟨completion, running⟩ := exists_before ran
        exact ⟨completion, .goesOn before after running becomes runs⟩
      obtain retains | ⟨completion, enters⟩ := becomes.retains_or_enters
      · exact goesOn (retains.bodies depth outer runs)
      · obtain standing | ⟨left, target, retains, still, -⟩ := enters.runs_or_entered runs
        · exact ⟨completion, .entered before after lived enters standing⟩
        · exact goesOn (retains.bodies depth outer still)

end Frame

/-! ## Where completions are pending -/

namespace TryRegion

/-- Where the completion of a running finally body is pending. -/
def bodyDepth? : TryRegion -> Option Nat
  | .handler _ _ => none
  | .finallyBody depth => some depth

theorem mem_of_bodyDepth?
    {region : TryRegion}
    {depth : Nat}
    (found : region.bodyDepth? = some depth) :
    region = .finallyBody depth := by
  cases region with
  | handler catchTarget finallyTarget => cases found
  | finallyBody height => cases found; rfl

theorem OrderedBelow.pairwise_bodyDepths
    {height : Nat}
    {regions : List TryRegion}
    (ordered : OrderedBelow height regions) :
    (regions.filterMap bodyDepth?).Pairwise (· > ·) := by
  induction regions generalizing height with
  | nil => exact .nil
  | cons region outer step =>
      cases region with
      | handler catchTarget finallyTarget => exact step ordered
      | finallyBody depth =>
          refine .cons ?_ (step ordered.2)
          intro deeper member
          obtain ⟨region, within, found⟩ := List.mem_filterMap.1 member
          rw [mem_of_bodyDepth? found] at within
          exact ordered.2.lt_of_mem within

end TryRegion

namespace Frame

/-- Where the completions of the running finally bodies are pending, outermost first. -/
def bodyDepths (frame : Frame) : List Nat :=
  (frame.tryRegions.filterMap TryRegion.bodyDepth?).reverse

theorem Ordered.pairwise_bodyDepths {frame : Frame} (ordered : frame.Ordered) :
    frame.bodyDepths.Pairwise (· < ·) :=
  List.pairwise_reverse.2 (TryRegion.OrderedBelow.pairwise_bodyDepths ordered)

theorem Ordered.lt_of_mem_bodyDepths
    {frame : Frame}
    {depth : Nat}
    (ordered : frame.Ordered)
    (member : depth ∈ frame.bodyDepths) :
    depth < frame.completions.size := by
  obtain ⟨region, within, found⟩ := List.mem_filterMap.1 (List.mem_reverse.1 member)
  rw [TryRegion.mem_of_bodyDepth? found] at within
  exact ordered.lt_of_mem within

end Frame

/-! ## The end of a finally body -/

namespace Machine

variable {machine : Machine σ} {frame : Frame}

/-- What the end of a finally body throws if nothing is pending there. -/
def noCompletion : Exception := .internalError "finally body without a completion"

theorem constructResult_ne_noCompletion (machine : Machine σ) (frame : Frame) (value : Value) :
    machine.constructResult frame value ≠ .error noCompletion := by
  unfold constructResult
  cases frame.construct with
  | none => exact nofun
  | base =>
      dsimp only
      split <;> exact nofun
  | derived =>
      dsimp only
      split
      · exact nofun
      · split
        · exact fun failed => absurd (Except.error.inj failed) (by decide)
        · split
          · exact nofun
          · exact fun failed => absurd (Except.error.inj failed) (by decide)

/-- A return fails otherwise than for want of a completion. -/
theorem returnFrom_ne_noCompletion
    (machine : Machine σ)
    (base : Nat)
    (value : Value)
    (count : Nat) :
    (machine.returnFrom base value count).1 ≠ .error noCompletion := by
  have frameless : Exception.internalError "return without a frame" ≠ noCompletion := by decide
  induction count generalizing machine value with
  | zero => exact fun failed => frameless (Except.error.inj failed)
  | succ count step =>
      cases standing : machine.top? with
      | none =>
          have missing : machine.frames.back? = none := standing
          rw [returnFrom, missing]
          exact fun failed => frameless (Except.error.inj failed)
      | some frame =>
          rw [returnFrom_of_routed standing]
          split
          · simp
          · split
            · next exception failed =>
                have other := machine.popFrame.constructResult_ne_noCompletion frame value
                rw [failed] at other
                exact fun same => other (congrArg Except.error (Except.error.inj same))
            · split
              · simp
              · split
                · simp
                · simp
                · exact step _ _

/-- Only a completion that is such a throw makes the machine throw for want of a completion. -/
theorem complete_ne_noCompletion
    {completion : Completion}
    (base : Nat)
    (other : completion ≠ .throw noCompletion) :
    (machine.complete base completion).1 ≠ .error noCompletion := by
  cases completion with
  | normal => exact nofun
  | «return» value => exact machine.returnFrom_ne_noCompletion base value _
  | throw exception =>
      exact fun failed => other (congrArg Completion.throw (Except.error.inj failed))
  | jump target depth => exact nofun

end Machine

/-- Wherever an embedder looks, and whatever the code has done with the regions of a frame: the
completions of the finally bodies that run lie in order, those of outer bodies below; each body
finds the one that it was entered with, which its end carries out, and none is missing. -/
theorem running_bodies_keep_completions
    {sight : Sight σ}
    (visible : sight.Visible)
    {frame : Frame}
    (held : sight.machine.Holds frame) :
    frame.bodyDepths.Pairwise (· < ·) ∧
    (∀ depth ∈ frame.bodyDepths, depth < frame.completions.size) ∧
    ∀ depth outer, frame.Runs depth outer -> ∃ completion,
      frame.RunsWith completion depth outer ∧
      (∀ other, frame.RunsWith other depth outer -> other = completion) ∧
      frame.completions[depth]? = some completion ∧
      (sight.machine.top? = some frame -> frame.tryRegions = .finallyBody depth :: outer ->
        ∀ base,
          sight.machine.endFinally base =
            (sight.machine.modifyTop fun _ =>
              { frame with tryRegions := outer }.truncate depth).complete base completion ∧
          (completion ≠ .throw Machine.noCompletion ->
            (sight.machine.endFinally base).1 ≠ .error Machine.noCompletion)) := by
  have lived := Sight.lived_of_holds visible held
  refine ⟨lived.ordered.pairwise_bodyDepths, fun depth => lived.ordered.lt_of_mem_bodyDepths, ?_⟩
  intro depth outer runs
  obtain ⟨completion, running⟩ := lived.exists_runsWith runs
  have pending := running.pending
  refine ⟨completion, running, ?_, pending, ?_⟩
  · intro other also
    exact Option.some.inj (also.pending.symm.trans pending)
  · intro standing regions base
    have ends : sight.machine.endFinally base = _ :=
      Machine.endFinally_of_entered standing regions pending
    refine ⟨ends, fun other => ?_⟩
    rw [ends]
    exact Machine.complete_ne_noCompletion base other

/-- A script that exits the region of a body that runs for a return, and enters another body from
there. -/
def exitedBodyScript : Chunk where
  info := { name := "main", kind := .script }
  code := #[
    ⟨.enterTry none (some 3), none⟩,
    ⟨.loadUndefined 0, none⟩,
    ⟨.return 0, none⟩,
    ⟨.exitTry, none⟩,
    ⟨.gotoFinally 5, none⟩,
    ⟨.endFinally, none⟩,
    ⟨.return 0, none⟩]
  registerCount := 1

/-- The run of the script up to the end of the second body. -/
def exitedBodyRun : EStateM.Result (Stop Unit) (Machine Unit) Value :=
  Exec.runProgram (.request (.execute exitedBodyScript) fun _ => .finish (.ok .undefined))
    (Env.watched 10 fun sight => (sight.machine.top?.map Frame.next) == some 6)
    (Builtins.newMachine {} ())

/-- The second body finds its own completion behind the one that the first has left. -/
theorem running_bodies_keep_completions_exitedBodyScript :
    ∃ sight ∈ Sight.ofRun? exitedBodyRun, ∃ frame ∈ sight.machine.top?,
      frame.completions.size = 2 ∧
        frame.bodyDepths = [1] ∧
        frame.RunsWith .normal 1 [] ∧
        (sight.machine.endFinally 0).1 ≠ .error Machine.noCompletion := by
  have seen : ∃ sight ∈ Sight.ofRun? exitedBodyRun, ∃ frame ∈ sight.machine.top?,
      frame.tryRegions = [.finallyBody 1] ∧ frame.completions.size = 2 ∧
        frame.completions[1]? = some .normal := by
    decide +kernel
  obtain ⟨sight, interrupted, frame, standing, regions, size, pending⟩ := seen
  obtain ⟨-, -, keeps⟩ :=
    running_bodies_keep_completions (Sight.visible_of_ofRun? interrupted)
      (Machine.holds_top standing)
  obtain ⟨completion, running, -, found, ends⟩ :=
    keeps 1 [] (show _ <:+ frame.tryRegions from regions ▸ List.suffix_rfl)
  obtain rfl : .normal = completion := Option.some.inj (pending.symm.trans found)
  refine ⟨sight, interrupted, frame, standing, size, ?_, running, ?_⟩
  · rw [Frame.bodyDepths, regions]
    rfl
  · exact (ends standing regions 0).2 nofun

end ScriptVM

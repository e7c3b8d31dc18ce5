import ScriptVM.Proofs.LifetimeChanges

/-!
# Captured registers are shared

What code can observe of registers and captured variables is the same as if there were one
variable for each lifetime of a register, which the frame shares with every closure that
captured the register in this time. Two closures see what the other one writes exactly when
they captured the same register in the same lifetime.
-/

namespace ScriptVM

variable {σ : Type}

/-! ## A play and its scene -/

/-- The play shows the scene. Its frames stand on top of `older` ones and carry out the
activations, and what its closures captured is named by what those of the scene did. -/
structure Play.Stages
    (older : List Frame)
    (play : Play σ)
    (scene : Scene)
    (current parked : List Part)
    (names : Naming) : Prop where
  stack : play.machine.stack = older ++ (current.map Prod.fst).reverse
  running : scene.running = current.map Prod.snd
  frames : play.suspended = parked.map Prod.fst
  suspended : scene.suspended = parked.map Prod.snd
  closures : play.closures.map (fun closure => closure.upvalues.toList.map names) =
    scene.closures.map (List.map some)
  realizes : Realizes play.machine.cells scene.values scene.begun names (current ++ parked)

namespace Play

variable {older : List Frame} {play : Play σ} {scene : Scene}

/-- Some parts make the play show the scene. -/
def Shows
    (older : List Frame)
    (play : Play σ)
    (scene : Scene) : Prop :=
  ∃ current parked names, play.Stages older scene current parked names

namespace Stages

variable {closure index : Nat}

variable {older : List Frame} {play : Play σ} {scene : Scene} {current parked : List Part}
  {names : Naming}

/-- The play begins on top of whatever stands on the stack. -/
theorem start (machine : Machine σ) :
    Play.Stages machine.stack ⟨machine, [], []⟩ {} [] [] fun _ => none where
  stack := (List.append_nil _).symm
  running := rfl
  frames := rfl
  suspended := rfl
  closures := rfl
  realizes :=
    { plays := List.forall_mem_nil _
      numbered := List.forall_mem_nil _
      apart := .nil
      injective := fun named _ => nomatch named
      started := fun named => nomatch named
      detached := fun named _ => nomatch named }

theorem captured (stages : play.Stages older scene current parked names) (closure index : Nat) :
    (play.captured? closure index).map names = (scene.captured? closure index).map some := by
  have same := congrArg (·[closure]?) stages.closures
  rw [List.getElem?_map, List.getElem?_map] at same
  unfold Play.captured? Scene.captured?
  dsimp only [Option.bind_eq_bind]
  cases found : play.closures[closure]? with
  | none =>
      rw [found] at same
      rw [Option.map_eq_none_iff.1 same.symm]
      rfl
  | some made =>
      rw [found] at same
      obtain ⟨lifetimes, present, listed⟩ := Option.map_eq_some_iff.1 same.symm
      rw [present]
      have place := congrArg (·[index]?) listed
      dsimp only at place
      rw [List.getElem?_map, List.getElem?_map] at place
      change made.upvalues[index]?.map names = lifetimes[index]?.map some
      rw [← Array.getElem?_toList]
      exact place.symm

section

variable (stages : play.Stages older scene current parked names)
include stages

/-- A captured variable of the play is named. -/
theorem exists_lifetime
    {id : UpvalueId}
    (found : play.captured? closure index = some id) :
    ∃ lifetime, scene.captured? closure index = some lifetime ∧
      names id = some lifetime := by
  have same := stages.captured closure index
  rw [found] at same
  obtain ⟨lifetime, present, equal⟩ := Option.map_eq_some_iff.1 same.symm
  exact ⟨lifetime, present, equal.symm⟩

/-- New names leave those of what the closures captured. -/
theorem closures_extends
    {later : Naming}
    (grown : later.Extends names) :
    play.closures.map (fun closure => closure.upvalues.toList.map later) =
      scene.closures.map (List.map some) := by
  rw [← stages.closures]
  refine List.map_congr_left fun closure member => ?_
  have listed : closure.upvalues.toList.map names ∈ scene.closures.map (List.map some) := by
    rw [← stages.closures]
    exact List.mem_map_of_mem member
  obtain ⟨lifetimes, _, same⟩ := List.mem_map.1 listed
  rw [grown.map_eq same.symm, same]

theorem captured_none
    (missing : play.captured? closure index = none) :
    scene.captured? closure index = none := by
  have same := stages.captured closure index
  rw [missing] at same
  exact Option.map_eq_none_iff.1 same.symm

/-- The scene has an innermost activation, and a frame carries it out. -/
theorem exists_part
    (inhabited : scene.running ≠ []) :
    ∃ frame activation outer, current = (frame, activation) :: outer ∧
      scene.running = activation :: outer.map Prod.snd := by
  have same := stages.running
  cases current with
  | nil => exact absurd same inhabited
  | cons part outer => exact ⟨part.1, part.2, outer, rfl, same⟩

end

variable {frame : Frame} {activation : Activation} {outer : List Part}

theorem stack_cons (stages : play.Stages older scene ((frame, activation) :: outer) parked names) :
    play.machine.stack = older ++ (outer.map Prod.fst).reverse ++ [frame] := by
  rw [stages.stack, List.map_cons, List.reverse_cons, List.append_assoc]

theorem back (stages : play.Stages older scene ((frame, activation) :: outer) parked names) :
    play.machine.frames.back? = some frame :=
  Machine.top?_of_stack stages.stack_cons

/-! ## Steps -/

theorem enter
    (stages : play.Stages older scene current parked names)
    (template : Template)
    (scope : Scope)
    (returnTo : ReturnTo)
    (closure : Option Nat) :
    (play.enter template scope returnTo closure).Shows older
      (scene.enter template.chunk.registerCount closure) := by
  let frame : Frame :=
    { (Frame.start play.machine.cells template scope returnTo).1 with
      upvalues := (closure.bind fun number => play.closures[number]?).elim #[] Closure.upvalues }
  let captured := (closure.bind fun number => scene.closures[number]?).getD []
  have named : frame.upvalues.toList.map names = captured.map some := by
    cases closure with
    | none => rfl
    | some number =>
        have same := congrArg (·[number]?) stages.closures
        rw [List.getElem?_map, List.getElem?_map] at same
        dsimp only [frame, captured, Option.bind_some]
        cases found : play.closures[number]? with
        | none =>
            rw [found] at same
            rw [Option.map_eq_none_iff.1 same.symm]
            rfl
        | some made =>
            rw [found] at same
            obtain ⟨lifetimes, present, listed⟩ := Option.map_eq_some_iff.1 same.symm
            rw [present]
            exact listed.symm
  refine ⟨(frame, { number := scene.begun, size := template.chunk.registerCount, captured }) ::
    current, parked, names, ?_, ?_, stages.frames, stages.suspended, stages.closures,
    stages.realizes.enter rfl rfl named⟩
  · refine (Machine.stack_pushFrame _ frame).trans ?_
    rw [List.map_cons, List.reverse_cons, ← List.append_assoc]
    exact congrArg (· ++ [frame]) stages.stack
  · exact congrArg (_ :: ·) stages.running

section

variable (stages : play.Stages older scene ((frame, activation) :: outer) parked names)
include stages

theorem capture
    (nested : Template)
    (fits : ∀ capture ∈ nested.chunk.info.captures, capture.Fits activation.size) :
    (play.capture nested).Shows older (scene.capture nested.chunk.info.captures) := by
  obtain ⟨later, grown, resolved, realizes⟩ :=
    stages.realizes.resolveCaptures nested.chunk.info.captures fits
  let answer := Machine.resolveCaptures frame play.machine.cells nested.chunk.info.captures
  have ran : play.machine.captureClosure nested =
      (answer.1.map fun upvalues =>
          { template := nested
            upvalues := upvalues.toArray
            lexicalScope := if nested.kind.isArrow then some frame.scope else none },
        { play.machine with
          cells := answer.2.2
          frames := play.machine.frames.setIfInBounds (play.machine.frames.size - 1)
            answer.2.1 }) := by
    unfold Machine.captureClosure
    rw [stages.back]
  have showed : scene.capture nested.chunk.info.captures =
      { scene with closures := scene.closures ++
        (nested.chunk.info.captures.mapM activation.capture?).toList } := by
    unfold Scene.capture
    rw [stages.running]
    rfl
  unfold Play.capture
  rw [ran, showed]
  refine ⟨(answer.2.1, activation) :: outer, parked, later, ?_, stages.running, stages.frames,
    stages.suspended, ?_, realizes⟩
  · refine (Machine.stack_setTop answer.2.1 stages.stack_cons).trans ?_
    rw [List.map_cons, List.reverse_cons, List.append_assoc]
  · rw [List.map_append, List.map_append]
    refine congrArg₂ (· ++ ·) (stages.closures_extends grown) ?_
    dsimp only [answer]
    generalize (Machine.resolveCaptures frame play.machine.cells
      nested.chunk.info.captures).1 = ids at resolved ⊢
    cases ids with
    | none => rw [Option.map_eq_none_iff.1 resolved.symm]; rfl
    | some ids =>
        obtain ⟨lifetimes, present, same⟩ := Option.map_eq_some_iff.1 resolved.symm
        rw [present]
        exact congrArg (fun list => [list]) same.symm

theorem read
    (register : Register) :
    play.machine.register register = scene.read register := by
  have plays := stages.realizes.plays _ (.head _)
  have showed : scene.read register =
      if register < activation.size then scene.values (activation.lifetime register)
      else .undefined := by
    unfold Scene.read
    rw [stages.running]
    rfl
  unfold Machine.register
  rw [stages.back, showed]
  dsimp only
  split
  · next within => exact plays.registers register within
  · next outside =>
      exact Cells.register_of_size_le (plays.size ▸ Nat.le_of_not_lt outside)

theorem write
    (register : Register)
    (value : Value) :
    Play.Shows older { play with machine := play.machine.setRegister register value }
      (scene.write register value) := by
  have plays := stages.realizes.plays _ (.head _)
  unfold Machine.setRegister Scene.write
  rw [stages.back]
  dsimp only
  split
  · next empty => exact absurd (stages.running.symm.trans empty) (List.cons_ne_nil _ _)
  · next innermost _ running =>
      obtain rfl : activation = innermost :=
        (List.cons.inj (stages.running.symm.trans running)).1
      split
      · next within =>
          exact ⟨_, parked, names, stages.stack, stages.running, stages.frames,
            stages.suspended, stages.closures,
            stages.realizes.setRegister (.head _) within value⟩
      · next outside =>
          have same : play.machine.modifyCells (fun cells =>
              cells.setRegister frame.window register value) = play.machine :=
            congrArg (fun cells => { play.machine with cells })
              (Cells.setRegister_of_size_le (plays.size ▸ Nat.le_of_not_lt outside) value)
          rw [same]
          exact ⟨_, parked, names, stages⟩

end

theorem readCaptured
    (stages : play.Stages older scene current parked names)
    (closure index : Nat) :
    (play.captured? closure index).map play.machine.cells.upvalue =
      (scene.captured? closure index).map scene.values := by
  cases found : play.captured? closure index with
  | none => rw [stages.captured_none found]; rfl
  | some id =>
      obtain ⟨lifetime, present, named⟩ := stages.exists_lifetime found
      rw [present]
      exact congrArg some (stages.realizes.upvalue named)

theorem writeCaptured
    (stages : play.Stages older scene current parked names)
    (closure index : Nat)
    (value : Value) :
    (play.writeCaptured closure index value).Shows older
      (scene.writeCaptured closure index value) := by
  unfold Play.writeCaptured Scene.writeCaptured
  cases found : play.captured? closure index with
  | none =>
      rw [stages.captured_none found]
      exact ⟨_, _, _, stages⟩
  | some id =>
      obtain ⟨lifetime, present, named⟩ := stages.exists_lifetime found
      rw [present]
      exact ⟨current, parked, names, stages.stack, stages.running, stages.frames,
        stages.suspended, stages.closures, stages.realizes.setUpvalue named value⟩

theorem close
    (stages : play.Stages older scene ((frame, activation) :: outer) parked names)
    (first : Register) :
    Play.Shows older { play with machine := play.machine.detachFrom first }
      (scene.close first) := by
  have showed : scene.close first =
      { scene with
        values := Scene.renew scene.values activation first
        running := activation.close first :: outer.map Prod.snd } := by
    unfold Scene.close
    rw [stages.running]
    rfl
  unfold Machine.detachFrom
  rw [stages.back, showed]
  refine ⟨((frame.detachFrom play.machine.cells first).1, activation.close first) :: outer,
    parked, names, ?_, rfl, stages.frames, stages.suspended, stages.closures,
    stages.realizes.close first⟩
  refine (Machine.stack_setTop _ stages.stack_cons).trans ?_
  rw [List.map_cons, List.reverse_cons, List.append_assoc]

theorem pop (stages : play.Stages older scene ((frame, activation) :: outer) parked names) :
    Play.Shows older { play with machine := play.machine.popFrame }
      { scene with running := scene.running.tail } := by
  refine ⟨outer, parked, names, ?_, congrArg List.tail stages.running, stages.frames,
    stages.suspended, stages.closures, ?_⟩
  · refine (Machine.stack_popFrame _).trans ?_
    rw [stages.stack_cons, List.dropLast_concat]
  · unfold Machine.popFrame
    rw [stages.back]
    exact stages.realizes.pop

theorem suspend (stages : play.Stages older scene ((frame, activation) :: outer) parked names) :
    play.suspend.Shows older scene.suspend := by
  refine ⟨outer, (frame, activation) :: parked, names, ?_, congrArg List.tail stages.running,
    ?_, ?_, stages.closures, stages.realizes.perm List.perm_middle.symm⟩
  · refine (Machine.stack_takeFrame _).trans ?_
    rw [stages.stack_cons, List.dropLast_concat]
  · have top : play.machine.top? = some frame := stages.back
    unfold Play.suspend
    rw [top, stages.frames]
    rfl
  · unfold Scene.suspend
    rw [stages.running, stages.suspended]
    rfl

theorem resume (stages : play.Stages older scene current parked names) (place : Nat) :
    (play.resume place).Shows older (scene.resume place) := by
  unfold Play.resume Scene.resume
  rw [stages.frames, stages.suspended, List.getElem?_map, List.getElem?_map]
  cases found : parked[place]? with
  | none => exact ⟨current, parked, names, stages⟩
  | some part =>
      obtain ⟨below, here⟩ := List.getElem?_eq_some_iff.1 found
      have same : (part :: parked.eraseIdx place).Perm parked :=
        here ▸ List.getElem_cons_eraseIdx_perm below
      refine ⟨part :: current, parked.eraseIdx place, names, ?_, ?_, ?_, ?_, stages.closures,
        stages.realizes.perm ?_⟩
      · refine (Machine.stack_pushFrame _ part.1).trans ?_
        rw [stages.stack, List.map_cons, List.reverse_cons, List.append_assoc]
      · exact congrArg (part.2 :: ·) stages.running
      · exact List.eraseIdx_map ..
      · exact List.eraseIdx_map ..
      · exact (List.perm_middle.symm.trans (same.append_left current)).symm

end Stages

/-- One step of code shows in the play what it shows in the scene. -/
theorem Shows.act
    (shown : play.Shows older scene)
    (step : VariableStep)
    (allowed : scene.Allows step) :
    (play.act step).1 = (scene.act step).1 ∧
      (play.act step).2.Shows older (scene.act step).2 := by
  obtain ⟨current, parked, names, stages⟩ := shown
  have inside : ∀ {P : Prop}, (∀ {frame activation outer},
      play.Stages older scene ((frame, activation) :: outer) parked names -> P) ->
      scene.running ≠ [] -> P := by
    intro P next inhabited
    obtain ⟨frame, activation, outer, rfl, _⟩ := stages.exists_part inhabited
    exact next stages
  cases step with
  | enter template scope returnTo closure =>
      exact ⟨rfl, stages.enter template scope returnTo closure⟩
  | capture nested =>
      obtain ⟨activation, innermost, fits⟩ := allowed
      refine ⟨rfl, ?_⟩
      obtain ⟨frame, other, outer, rfl, running⟩ := stages.exists_part fun empty => by
        rw [empty] at innermost
        cases innermost
      rw [running] at innermost
      obtain rfl := Option.some.inj innermost
      exact stages.capture nested fits
  | read register =>
      exact ⟨congrArg (fun value => [value])
        (inside (fun stages => stages.read register) allowed), _, _, _, stages⟩
  | write register value => exact ⟨rfl, inside (fun stages => stages.write register value) allowed⟩
  | readCaptured closure index =>
      exact ⟨congrArg Option.toList (stages.readCaptured closure index), _, _, _, stages⟩
  | writeCaptured closure index value => exact ⟨rfl, stages.writeCaptured closure index value⟩
  | close first => exact ⟨rfl, inside (fun stages => stages.close first) allowed⟩
  | pop => exact ⟨rfl, inside (fun stages => stages.pop) allowed⟩
  | suspend => exact ⟨rfl, inside (fun stages => stages.suspend) allowed⟩
  | resume place => exact ⟨rfl, stages.resume place⟩

theorem Shows.run
    (steps : List VariableStep)
    (shown : play.Shows older scene)
    (allowed : scene.AllowsAll steps) :
    (play.run steps).1 = (scene.run steps).1 ∧
      (play.run steps).2.Shows older (scene.run steps).2 := by
  induction steps generalizing play scene with
  | nil => exact ⟨rfl, shown⟩
  | cons step rest later =>
      obtain ⟨seen, after⟩ := shown.act step allowed.1
      obtain ⟨others, last⟩ := later after allowed.2
      exact ⟨congrArg₂ (· ++ ·) seen others, last⟩

/-- Suspending the innermost frame and resuming it changes nothing. -/
theorem resume_suspend
    {frame : Frame}
    (standing : play.machine.top? = some frame) :
    play.suspend.resume 0 = play := by
  have frames : (play.machine.takeFrame.pushFrame frame).frames = play.machine.frames := by
    obtain ⟨below, stack⟩ := Machine.stack_of_top? standing
    refine Machine.stack_eq_iff.1 ?_
    rw [Machine.stack_pushFrame, Machine.stack_takeFrame, stack, List.dropLast_concat]
  have pushed : play.machine.takeFrame.pushFrame frame = play.machine :=
    congrArg (fun frames => { play.machine with frames }) frames
  unfold suspend resume
  rw [standing]
  exact congrArg (fun machine => { play with machine }) pushed

end Play

/-- Captured registers are shared variables. Whatever stands on the stack when code begins,
and whichever of its steps follow each other as long as captured registers are among those
of their frames: each read gives the value that the variable of the lifetime has, captured
variables are the same exactly if they belong to the same lifetime, and then and only then
what is written to one is read from the other. Suspending a frame and resuming it is as if
nothing had happened. -/
theorem captured_registers_shared
    (machine : Machine σ)
    (steps : List VariableStep)
    (allowed : Scene.AllowsAll {} steps) :
    let played := (Play.run ⟨machine, [], []⟩ steps)
    let scene := (Scene.run {} steps)
    played.1 = scene.1 ∧
      (∀ closure index, (played.2.captured? closure index).isSome =
        (scene.2.captured? closure index).isSome) ∧
      (∀ closure index other place id another,
        played.2.captured? closure index = some id ->
        played.2.captured? other place = some another ->
        ∃ lifetime meant, scene.2.captured? closure index = some lifetime ∧
          scene.2.captured? other place = some meant ∧ (id = another ↔ lifetime = meant) ∧
          ∀ value, (played.2.machine.cells.setUpvalue id value).upvalue another =
            if lifetime = meant then value else played.2.machine.cells.upvalue another) ∧
      (played.2.machine.top?.isSome = true -> played.2.suspend.resume 0 = played.2) := by
  intro played scene
  have shown : Play.Shows machine.stack ⟨machine, [], []⟩ ({} : Scene) :=
    ⟨_, _, _, .start machine⟩
  obtain ⟨seen, current, parked, names, stages⟩ := shown.run steps allowed
  refine ⟨seen, fun closure index => ?_, fun closure index other place id another first second =>
    ?_, fun inhabited => ?_⟩
  · have same := congrArg Option.isSome (stages.captured closure index)
    rwa [Option.isSome_map, Option.isSome_map] at same
  · obtain ⟨lifetime, present, named⟩ := stages.exists_lifetime first
    obtain ⟨meant, found, called⟩ := stages.exists_lifetime second
    refine ⟨lifetime, meant, present, found, ⟨fun same => ?_, fun same => ?_⟩, fun value => ?_⟩
    · subst same
      exact Option.some.inj (named.symm.trans called)
    · subst same
      exact stages.realizes.injective named called
    · rw [(stages.realizes.setUpvalue named value).upvalue called, stages.realizes.upvalue called]
      unfold Scene.assign
      simp only [eq_comm]
  · obtain ⟨frame, standing⟩ := Option.isSome_iff_exists.1 inhabited
    exact Play.resume_suspend standing

/-- A script whose loop makes closures over the variable of each round. -/
def loopingScript : Template where
  id := ⟨0⟩
  chunk := {
    info := { name := "main", kind := .script }
    code := #[]
    registerCount := 1 }
  nested := []

/-- A function that captures the variable of the loop. -/
def roundFunction : Template where
  id := ⟨1⟩
  chunk := {
    info := { name := "round", kind := .normal, captures := [.register 0] }
    code := #[]
    registerCount := 1 }
  nested := []

/-- Two closures of one round and one of the next. The first writes what it captured, and
all three and the loop read it. -/
def roundSteps : List VariableStep :=
  [.enter loopingScript { this := .bound .undefined } .boundary none,
    .write 0 (.ofNat 1), .capture roundFunction, .capture roundFunction, .close 0,
    .write 0 (.ofNat 2), .capture roundFunction, .writeCaptured 0 0 (.ofNat 5),
    .readCaptured 0 0, .readCaptured 1 0, .readCaptured 2 0, .read 0, .suspend,
    .writeCaptured 2 0 (.ofNat 7), .resume 0, .read 0, .pop, .readCaptured 2 0]

/-- The closures of one round share their variable, and that of the next has another one,
which it shares with the loop. -/
theorem captured_registers_shared_roundSteps :
    Scene.AllowsAll {} roundSteps ∧
      (Play.run ⟨Builtins.newMachine {} (), [], []⟩ roundSteps).1 =
        [.ofNat 5, .ofNat 5, .ofNat 2, .ofNat 2, .ofNat 7, .ofNat 7] :=
  ⟨by decide, (captured_registers_shared (Builtins.newMachine {} ()) roundSteps
    (by decide)).1.trans (by decide)⟩

end ScriptVM

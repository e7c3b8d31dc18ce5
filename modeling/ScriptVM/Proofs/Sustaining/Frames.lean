import ScriptVM.Proofs.Sustaining.Tables

/-!
# Frames that sustain a machine

Pushing, popping and changing frames, and moving them between the stack and coroutines. A
frame off the stack may be pushed or parked as long as it has no variable attached that a
frame of the machine has attached, too.
-/

namespace ScriptVM

variable {σ : Type} {collects : Bool}

/-! ## Routed frames -/

namespace Frame

/-- A frame that goes on elsewhere in its code: regions, next instruction and completions
differ, and at most one completion is new. -/
def Reroutes (extra : Option Completion) (before after : Frame) : Prop :=
  ∃ (next : Nat) (regions : List TryRegion) (completions : Array Completion),
    after = { before with next, tryRegions := regions, completions } ∧
      ∀ completion ∈ completions, completion ∈ before.completions ∨ extra = some completion

namespace Reroutes

variable {extra : Option Completion} {first second third : Frame}

theorem trans (earlier : Reroutes extra first second) (later : Reroutes extra second third) :
    Reroutes extra first third := by
  obtain ⟨_, _, _, rfl, old⟩ := earlier
  obtain ⟨next, regions, completions, rfl, new⟩ := later
  exact ⟨next, regions, completions, rfl, fun completion member =>
    (new completion member).elim (old completion) Or.inr⟩

/-- A completion may be allowed that is not there. -/
theorem weaken (reroutes : Reroutes none first second) : Reroutes extra first second := by
  obtain ⟨next, regions, completions, same, old⟩ := reroutes
  exact ⟨next, regions, completions, same, fun completion member =>
    Or.inl ((old completion member).resolve_right nofun)⟩

theorem regions (frame : Frame) (tryRegions : List TryRegion) :
    Reroutes extra frame { frame with tryRegions } :=
  ⟨frame.next, tryRegions, frame.completions, rfl, fun _ => Or.inl⟩

theorem next (frame : Frame) (next : Nat) :
    Reroutes extra frame { frame with next } :=
  ⟨next, frame.tryRegions, frame.completions, rfl, fun _ => Or.inl⟩

theorem truncate (frame : Frame) (depth : Nat) :
    Reroutes extra frame (frame.truncate depth) :=
  ⟨frame.next, frame.tryRegions, frame.completions.take depth, rfl, fun completion member => by
    rw [Array.take_eq_extract] at member
    obtain ⟨index, _, rfl⟩ := Array.mem_extract_iff_getElem.1 member
    exact Or.inl (Array.getElem_mem _)⟩

theorem enterFinally (frame : Frame) (target : Nat) (completion : Completion) :
    Reroutes (some completion) frame (frame.enterFinally target completion) :=
  ⟨target, _, frame.completions.push completion, rfl, fun _ member =>
    (Array.mem_push.1 member).imp_right fun same => congrArg some same.symm⟩

theorem routeThrowThrough (regions : List TryRegion) (frame : Frame) :
    Reroutes extra frame (frame.routeThrowThrough regions).2 := by
  induction regions generalizing frame with
  | nil => exact .regions frame []
  | cons region outer step =>
      cases region with
      | handler catchTarget finallyTarget =>
          cases catchTarget with
          | none =>
              cases finallyTarget with
              | none => exact step frame
              | some target => exact .regions frame outer
          | some target =>
              cases finallyTarget with
              | none => exact .regions frame outer
              | some finallyTarget => exact .regions frame _
      | finallyBody depth => exact (truncate frame depth).trans (step _)

theorem routeThrow (frame : Frame) : Reroutes extra frame frame.routeThrow.2 :=
  routeThrowThrough frame.tryRegions frame

theorem routeReturn (frame : Frame) (value : Value) :
    Reroutes (some (.return value)) frame (frame.routeReturn value).2 := by
  unfold Frame.routeReturn
  generalize frame.tryRegions = regions
  induction regions generalizing frame with
  | nil => exact .regions frame []
  | cons region outer step =>
      cases region with
      | handler catchTarget finallyTarget =>
          cases finallyTarget with
          | none => exact step frame
          | some target => exact (Reroutes.regions frame outer).trans (.enterFinally _ _ _)
      | finallyBody depth => exact (truncate frame depth).trans (step _)

/-- The completion of a jump holds no value. -/
theorem leave (frame : Frame) (target depth : Nat) :
    ∃ rest, Reroutes (some (.jump target rest)) frame (frame.leave target depth) := by
  have routed : ∀ regions depth (frame : Frame), ∃ rest,
      Reroutes (some (.jump target rest)) frame
        (frame.routeJumpThrough target depth regions).2 := by
    intro regions
    induction regions with
    | nil =>
        intro depth frame
        cases depth with
        | zero => exact ⟨0, .regions frame []⟩
        | succ depth => exact ⟨0, .regions frame []⟩
    | cons region outer step =>
        intro depth frame
        cases depth with
        | zero => exact ⟨0, .regions frame _⟩
        | succ depth =>
            cases region with
            | handler catchTarget finallyTarget =>
                cases finallyTarget with
                | none => exact step depth frame
                | some finallyTarget =>
                    exact ⟨depth, (Reroutes.regions frame outer).trans (.enterFinally _ _ _)⟩
            | finallyBody height =>
                obtain ⟨rest, routes⟩ := step depth (frame.truncate height)
                exact ⟨rest, (truncate frame height).trans routes⟩
  obtain ⟨rest, routes⟩ := routed frame.tryRegions depth frame
  refine ⟨rest, ?_⟩
  unfold Frame.leave
  split
  · next after same => rwa [same] at routes
  · next after same =>
      rw [same] at routes
      exact routes.trans (.next after target)

end Reroutes
end Frame

namespace Machine

variable {machine : Machine σ}

theorem Vouches.rerouted
    {extra : Option Completion}
    {before after : Frame}
    (reroutes : before.Reroutes extra after)
    [vouched : machine.Vouches before]
    [new : machine.Vouches extra] :
    machine.Vouches after := by
  obtain ⟨next, regions, completions, rfl, held⟩ := reroutes
  have : machine.Vouches completions := vouches_array.2 fun completion member =>
    (held completion member).elim
      (fun old => vouches_array.1 (vouches_frame_completions before) completion old)
      fun same => vouches_some.1 (same ▸ new)
  infer_instance

/-! ## A new innermost frame -/

/-- A frame off the stack that can be pushed or parked. -/
structure Frees (machine : Machine σ) (frame : Frame) : Prop where
  attaches : machine.Attaches frame
  apart : ∀ {place other}, machine.FrameAt place other -> frame.Apart other

/-- A frame that has nothing attached. -/
theorem Frees.of_fresh {frame : Frame} (fresh : frame.attached = []) :
    machine.Frees frame where
  attaches entry member := by
    rw [fresh] at member
    cases member
  apart _ entry member := by
    rw [fresh] at member
    cases member

section

variable [consistent : machine.Consistent collects] {cells : Cells} {frame : Frame}

/-- Other frames and cells, if the machine is tied with them. -/
theorem Sustains.reframe
    {frames : Array Frame}
    (fills : machine.Fills cells)
    (vouched : Vouches { machine with cells } frames)
    (tied : Tied { machine with cells, frames }) :
    machine.Sustains collects { machine with cells, frames } := by
  have carries : machine.CarriesOver { machine with cells, frames } := .of_heap rfl fun _ => id
  have reframes : Preserves { machine with cells } { machine with cells, frames } :=
    .of_same rfl rfl rfl (Nat.le_refl _)
  have later : Later machine { machine with cells, frames } :=
    ⟨fills.later.toPreserves.trans reframes, carries.inHand⟩
  exact ⟨⟨consistent.tidy, fun live => later.vouches (consistent.objects live),
    reframes.vouches vouched, later.vouches consistent.microtasks,
    later.vouches consistent.rejections, later.vouches consistent.unhandled,
    fun id member => vouches_value.1 (later.vouches (vouches_intrinsic member)), tied,
    consistent.attended.congr rfl rfl, carries.resumesOnce consistent.resumes⟩, later,
    fun acyclic => acyclic.mono (fun linked => linked) fun stands _ => stands⟩

/-- Push a frame that is free. -/
theorem Sustains.pushFrame (free : machine.Frees frame) [vouched : machine.Vouches frame] :
    machine.Sustains collects (machine.pushFrame frame) := by
  have held : ∀ {place other}, (machine.pushFrame frame).FrameAt place other ->
      machine.FrameAt place other ∨ place = .inl machine.frames.size ∧ other = frame := by
    intro place other stands
    cases place with
    | inl height =>
        have present := frameAt_running.1 stands
        change (machine.frames.push frame)[height]? = some other at present
        rw [Array.getElem?_push] at present
        split at present
        · next same => exact Or.inr ⟨congrArg Sum.inl same, (Option.some.inj present).symm⟩
        · exact Or.inl (.running present)
    | inr id =>
        obtain ⟨kind, present, parked⟩ := frameAt_parked.1 stands
        exact Or.inl (frameAt_parked.2 ⟨kind, present, parked⟩)
  have frames := consistent.frames
  refine .reframe (.refl machine) (vouches_push machine.frames frame) ⟨fun stands => ?_,
    fun first second distinct => ?_⟩
  · rcases held stands with old | ⟨_, rfl⟩
    · exact consistent.tied.attaches old
    · exact free.attaches
  · rcases held first with old | ⟨rfl, rfl⟩
    · rcases held second with other | ⟨rfl, rfl⟩
      · exact consistent.tied.apart old other distinct
      · exact fun entry member other present same => free.apart old other present entry member same.symm
    · rcases held second with other | ⟨rfl, rfl⟩
      · exact free.apart other
      · exact absurd rfl distinct

/-- A change of the innermost frame that leaves its window and its attached variables. -/
theorem Sustains.modifyTop
    (change : Frame -> Frame)
    (window : ∀ frame, machine.top? = some frame -> (change frame).window = frame.window)
    (attached : ∀ frame, machine.top? = some frame -> (change frame).attached = frame.attached)
    (vouched : ∀ frame, machine.top? = some frame -> machine.Vouches frame ->
      machine.Vouches (change frame)) :
    machine.Sustains collects (machine.modifyTop change) := by
  have held : ∀ {place other}, (machine.modifyTop change).FrameAt place other ->
      ∃ old, machine.FrameAt place old ∧ other.window = old.window ∧
        other.attached = old.attached := by
    intro place other stands
    cases place with
    | inl height =>
        have stands := frameAt_running.1 stands
        change (machine.frames.modify _ change)[height]? = some other at stands
        rw [Array.getElem?_modify] at stands
        split at stands
        · next same =>
            obtain ⟨old, present, rfl⟩ := Option.map_eq_some_iff.1 stands
            have top : machine.top? = some old := by
              unfold top?
              rw [Array.back?_eq_getElem?, same]
              exact present
            exact ⟨old, .running present, window old top, attached old top⟩
        · exact ⟨other, .running stands, rfl, rfl⟩
    | inr id =>
        obtain ⟨kind, present, parked⟩ := frameAt_parked.1 stands
        exact ⟨other, frameAt_parked.2 ⟨kind, present, parked⟩, rfl, rfl⟩
  refine .reframe (.refl machine) (vouches_array.2 fun frame member => ?_)
    ⟨fun stands entry member => ?_, fun first second distinct => ?_⟩
  · obtain ⟨height, present⟩ := Array.mem_iff_getElem?.1 member
    rw [Array.getElem?_modify] at present
    split at present
    · next same =>
        obtain ⟨old, standing, rfl⟩ := Option.map_eq_some_iff.1 present
        have top : machine.top? = some old := by
          unfold top?
          rw [Array.back?_eq_getElem?, same]
          exact standing
        exact vouched old top (.of_some top)
    · exact vouches_array.1 consistent.frames frame (Array.mem_of_getElem? present)
  · obtain ⟨old, standing, sameWindow, sameAttached⟩ := held stands
    rw [sameWindow]
    exact consistent.tied.attaches standing entry (sameAttached ▸ member)
  · obtain ⟨left, standing, _, leftAttached⟩ := held first
    obtain ⟨right, present, _, rightAttached⟩ := held second
    have apart := consistent.tied.apart standing present distinct
    unfold Frame.Apart
    rw [leftAttached, rightAttached]
    exact apart

/-- Route the innermost frame elsewhere. -/
theorem Sustains.reroute
    {extra : Option Completion}
    (change : Frame -> Frame)
    (reroutes : ∀ frame, machine.top? = some frame -> frame.Reroutes extra (change frame))
    [machine.Vouches extra] :
    machine.Sustains collects (machine.modifyTop change) := by
  refine .modifyTop change (fun frame top => ?_) (fun frame top => ?_)
    fun frame top vouched => .rerouted (reroutes frame top)
  · obtain ⟨_, _, _, same, _⟩ := reroutes frame top
    rw [same]
  · obtain ⟨_, _, _, same, _⟩ := reroutes frame top
    rw [same]

/-! ## Detached variables -/

omit consistent in
/-- The cells after some variables were detached: those hold values that are vouched for, and
everything else is as it was. -/
structure Detaches (machine : Machine σ) (entries : List (Register × UpvalueId))
    (cells : Cells) : Prop where
  windows : cells.windows = machine.cells.windows
  thisCells : cells.thisCells = machine.cells.thisCells
  aggregates : cells.aggregates = machine.cells.aggregates
  upvalues : ∀ index : Nat, cells.upvalues[index]? = machine.cells.upvalues[index]? ∨
    (∃ entry ∈ entries, entry.2.index = index) ∧
      ∃ value, cells.upvalues[index]? = some (.detached value) ∧ machine.Tags value

omit consistent in
theorem Detaches.refl (machine : Machine σ) : machine.Detaches [] machine.cells :=
  ⟨rfl, rfl, rfl, fun _ => Or.inl rfl⟩

omit consistent in
theorem Detaches.foldl
    {earlier entries : List (Register × UpvalueId)}
    (detaches : machine.Detaches earlier cells)
    (vouched : ∀ entry ∈ entries, machine.Vouches entry.2) :
    machine.Detaches (earlier ++ entries)
      (entries.foldl (fun cells entry => cells.detach entry.2) cells) := by
  induction entries generalizing earlier cells with
  | nil => rwa [List.append_nil]
  | cons entry rest step =>
      have value : machine.Tags (cells.upvalue entry.2) := by
        have old := vouches_captured.1 (vouched entry (.head _))
        unfold Cells.upvalue
        rcases detaches.upvalues entry.2.index with same | ⟨_, value, present, tagged⟩
        · rw [same]
          split
          · next window register present =>
              have := old.1 window register present
              have registers : machine.Vouches (machine.cells.register window register) :=
                vouches_register_of window register
              unfold Cells.register at registers ⊢
              rw [detaches.windows]
              exact vouches_value.1 registers
          · next value present => exact vouches_value.1 (old.2 value present)
          · trivial
        · rw [present]
          exact tagged
      have one : machine.Detaches (earlier ++ [entry]) (cells.detach entry.2) := by
        refine ⟨detaches.windows, detaches.thisCells, detaches.aggregates, fun index => ?_⟩
        unfold Cells.detach
        dsimp only
        rw [Array.getElem?_setIfInBounds]
        split
        · next same =>
            subst same
            split
            · exact Or.inr ⟨⟨entry, by simp, rfl⟩, _, rfl, value⟩
            · next outside =>
                refine Or.inl ?_
                rcases detaches.upvalues entry.2.index with kept | ⟨_, _, present, _⟩
                · rw [← kept]
                  exact (Array.getElem?_eq_none (Nat.le_of_not_lt outside)).symm
                · exact absurd (Array.getElem?_eq_some_iff.1 present).1 outside
        · rcases detaches.upvalues index with kept | ⟨⟨other, member, named⟩, rest⟩
          · exact .inl kept
          · exact .inr ⟨⟨other, List.mem_append_left _ member, named⟩, rest⟩
      have rest := step one fun other member => vouched other (.tail _ member)
      rwa [List.append_assoc] at rest

omit consistent in
theorem Detaches.fills
    {entries : List (Register × UpvalueId)}
    (detaches : machine.Detaches entries cells) :
    machine.Fills cells where
  windows member := by
    unfold Cells.window at member ⊢
    rw [detaches.windows] at member
    exact Or.inl member
  attached {index window register} present := by
    rcases detaches.upvalues index with same | ⟨_, value, stands, _⟩
    · exact Or.inl (same ▸ present)
    · rw [stands] at present
      cases present
  detached {index value} present := by
    rcases detaches.upvalues index with same | ⟨_, other, stands, tagged⟩
    · exact Or.inl (same ▸ present)
    · rw [stands] at present
      cases present
      exact Or.inr tagged
  thisCells present := by
    rw [detaches.thisCells] at present
    exact Or.inl present
  aggregates present _ member := by
    rw [detaches.aggregates] at present
    exact Or.inl ⟨_, present, member⟩

include consistent in
/-- The variables that a frame has attached are vouched for with the frame. -/
theorem vouches_attached
    {place : Nat ⊕ ObjectId}
    (stands : machine.FrameAt place frame)
    [vouched : machine.Vouches frame]
    {entry : Register × UpvalueId}
    (member : entry ∈ frame.attached) :
    machine.Vouches entry.2 := by
  have attached := consistent.tied.attaches stands entry member
  refine vouches_captured.2 ⟨fun window register present => ?_, fun value present => ?_⟩
  · rw [attached] at present
    cases present
    infer_instance
  · rw [attached] at present
    cases present

omit consistent in
theorem frameAt_top (standing : machine.frames.back? = some frame) :
    machine.FrameAt (.inl (machine.frames.size - 1)) frame := by
  rw [Array.back?_eq_getElem?] at standing
  exact .running standing

end

end Machine
end ScriptVM

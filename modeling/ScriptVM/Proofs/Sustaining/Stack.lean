import ScriptVM.Machine.Coroutines
import ScriptVM.Proofs.Layouts
import ScriptVM.Proofs.Sustaining.Frames

/-!
# The frame stack of a sustained machine

Frames that leave the stack, variables that are detached and captured, and the routes that
throws and returns take through the stack. A frame that was taken off the stack, or out of a
coroutine, is free.
-/

namespace ScriptVM

variable {σ : Type} {collects : Bool}

namespace Machine

variable {place : Nat ⊕ ObjectId} {other : Frame}

variable {machine : Machine σ} [consistent : machine.Consistent collects] {cells : Cells}
  {frame : Frame}

/-! ## Frames that leave the stack -/

include consistent in
/-- A machine stays tied if frames lose attached variables, among them all that are detached. -/
theorem Tied.detach
    {frames : Array Frame}
    {entries : List (Register × UpvalueId)}
    (detaches : machine.Detaches entries cells)
    (held : ∀ {place frame}, FrameAt { machine with cells, frames } place frame ->
      ∃ old, machine.FrameAt place old ∧ frame.window = old.window ∧
        ∀ entry ∈ frame.attached, entry ∈ old.attached ∧
          ∀ other ∈ entries, other.2 ≠ entry.2) :
    Tied { machine with cells, frames } where
  attaches stands entry member := by
    obtain ⟨old, standing, window, kept⟩ := held stands
    obtain ⟨present, apart⟩ := kept entry member
    have attached := consistent.tied.attaches standing entry present
    rw [window]
    rcases detaches.upvalues entry.2.index with same | ⟨⟨other, leaves, named⟩, _⟩
    · exact same.trans attached
    · refine absurd ?_ (apart other leaves)
      generalize other.2 = left at named ⊢
      generalize entry.2 = right at named ⊢
      cases left
      cases right
      cases named
      rfl
  apart first second distinct entry member other present := by
    obtain ⟨left, standing, _, kept⟩ := held first
    obtain ⟨right, stands, _, left⟩ := held second
    exact consistent.tied.apart standing stands distinct entry (kept entry member).1 other
      (left other present).1

omit consistent in
/-- Frames below the innermost one, and parked frames, are what they were. -/
theorem frameAt_pop
    (stands : FrameAt { machine with cells, frames := machine.frames.pop } place other) :
    machine.FrameAt place other ∧ place ≠ .inl (machine.frames.size - 1) := by
  cases place with
  | inl height =>
      have present := frameAt_running.1 stands
      dsimp only at present
      rw [Array.getElem?_pop] at present
      split at present
      · next below =>
          refine ⟨.running present, fun same => ?_⟩
          cases same
          omega
      · cases present
  | inr id =>
      obtain ⟨kind, present, parked⟩ := frameAt_parked.1 stands
      exact ⟨frameAt_parked.2 ⟨kind, present, parked⟩, Sum.inr_ne_inl⟩

instance : machine.Vouches machine.frames.pop := vouches_array.2 fun other member => by
  obtain ⟨height, present⟩ := Array.mem_iff_getElem?.1 member
  rw [Array.getElem?_pop] at present
  split at present
  · exact vouches_array.1 consistent.frames other (Array.mem_of_getElem? present)
  · cases present

/-- Pop the innermost frame for good. -/
instance : machine.Sustains collects machine.popFrame := by
  unfold popFrame
  split
  · exact .refl machine
  · next frame standing =>
      have top := frameAt_top standing
      have vouched : machine.Vouches frame :=
        vouches_array.1 consistent.frames frame (Array.mem_of_back? standing)
      have leaving : frame.attached.filter (fun entry => decide (0 <= entry.1)) ⊆ frame.attached :=
        List.filter_sublist.subset
      have detaches := (Detaches.refl machine).foldl
        fun entry member => vouches_attached top (leaving member)
      refine .reframe detaches.fills (detaches.fills.later.vouches inferInstance)
        (.detach detaches fun {place other} stands => ?_)
      obtain ⟨old, distinct⟩ := frameAt_pop stands
      exact ⟨other, old, rfl, fun entry member => ⟨member, fun leaves left =>
        consistent.tied.apart top old (Ne.symm distinct) leaves (leaving left) entry member⟩⟩

/-- Take the innermost frame off the stack to keep it. -/
instance : machine.Sustains collects machine.takeFrame := by
  unfold takeFrame
  cases standing : machine.frames.back? with
  | none =>
      have empty : machine.frames.pop = machine.frames := by
        rw [Array.back?_eq_none_iff.1 standing]
        rfl
      rw [empty]
      exact .refl machine
  | some frame =>
      refine .reframe (.refl machine) inferInstance
        (consistent.tied.mono (fun {place other} stands => ?_) fun stands => stands)
      exact (frameAt_pop stands).1

include consistent in
theorem Frees.of_taken (standing : machine.frames.back? = some frame) :
    machine.takeFrame.Frees frame where
  attaches := consistent.tied.attaches (frameAt_top standing)
  apart stands := by
    obtain ⟨old, distinct⟩ := frameAt_pop stands
    exact consistent.tied.apart (frameAt_top standing) old (Ne.symm distinct)

/-! ## Variables of the innermost frame -/

omit consistent in
/-- Where the innermost frame is replaced, the others are what they were. -/
theorem frameAt_replace
    (stands : FrameAt
      { machine with
        cells
        frames := machine.frames.setIfInBounds (machine.frames.size - 1) frame } place other) :
    place = .inl (machine.frames.size - 1) ∧ other = frame ∨
      place ≠ .inl (machine.frames.size - 1) ∧ machine.FrameAt place other := by
  cases place with
  | inl height =>
      have present := frameAt_running.1 stands
      dsimp only at present
      rw [Array.getElem?_setIfInBounds] at present
      split at present
      · next same =>
          subst same
          split at present
          · cases present
            exact Or.inl ⟨rfl, rfl⟩
          · cases present
      · next other =>
          exact Or.inr ⟨fun same => other (Sum.inl.inj same).symm, .running present⟩
  | inr id =>
      obtain ⟨kind, present, parked⟩ := frameAt_parked.1 stands
      exact Or.inr ⟨Sum.inr_ne_inl, frameAt_parked.2 ⟨kind, present, parked⟩⟩

/-- Detach the variables of the innermost frame from a register on. -/
instance (first : Register) : machine.Sustains collects (machine.detachFrom first) := by
  unfold Machine.detachFrom
  split
  · exact .refl machine
  · next frame standing =>
      have top := frameAt_top standing
      have vouched : machine.Vouches frame :=
        vouches_array.1 consistent.frames frame (Array.mem_of_back? standing)
      have leaving : frame.attached.filter (fun entry => decide (first <= entry.1)) ⊆
          frame.attached := List.filter_sublist.subset
      have detaches := (Detaches.refl machine).foldl
        fun entry member => vouches_attached top (leaving member)
      have trimmed : machine.Vouches { frame with
          attached := frame.attached.filter fun entry => entry.1 < first } := ⟨vouched.accepts⟩
      have frames := consistent.frames
      refine .reframe detaches.fills (detaches.fills.later.vouches (vouches_setIfInBounds ..))
        (.detach detaches fun {place other} stands => ?_)
      rcases frameAt_replace stands with ⟨rfl, rfl⟩ | ⟨distinct, old⟩
      · refine ⟨frame, top, rfl, fun entry member => ?_⟩
        obtain ⟨present, below⟩ := List.mem_filter.1 member
        refine ⟨present, fun other leaves same => ?_⟩
        -- Both entries name one variable, so they are the same register.
        obtain ⟨attached, above⟩ := List.mem_filter.1 leaves
        have here := consistent.tied.attaches top entry present
        have there := consistent.tied.attaches top other attached
        rw [same, here] at there
        have register : entry.1 = other.1 := by
          injection there with there
          injection there
        have below := of_decide_eq_true below
        have above := of_decide_eq_true above
        exact absurd (register ▸ above) (Nat.not_le_of_lt below)
      · exact ⟨other, old, rfl, fun entry member => ⟨member, fun leaves left =>
          consistent.tied.apart top old (Ne.symm distinct) leaves (leaving left) entry member⟩⟩

omit consistent in
theorem size_pos_of_top (standing : machine.frames.back? = some frame) :
    machine.frames.size - 1 < machine.frames.size := by
  rw [Array.back?_eq_getElem?] at standing
  exact (Array.getElem?_eq_some_iff.1 standing).1

/-- The machine with other cells and another innermost frame. -/
def withTop (machine : Machine σ) (frame : Frame) (cells : Cells) : Machine σ :=
  { machine with
    cells
    frames := machine.frames.setIfInBounds (machine.frames.size - 1) frame }

omit consistent in
theorem withTop_self (standing : machine.frames.back? = some frame) :
    machine.withTop frame machine.cells = machine := by
  have frames : machine.frames.setIfInBounds (machine.frames.size - 1) frame =
      machine.frames := by
    refine Array.ext_getElem? fun height => ?_
    rw [Array.getElem?_setIfInBounds]
    split
    · next here =>
        subst here
        rw [if_pos (size_pos_of_top standing), ← standing, Array.back?_eq_getElem?]
    · rfl
  unfold withTop
  rw [frames]

omit consistent in
theorem withTop_withTop (first second : Frame) (cells later : Cells) :
    (machine.withTop first cells).withTop second later = machine.withTop second later := by
  unfold withTop
  dsimp only
  rw [Array.size_setIfInBounds, Array.setIfInBounds_setIfInBounds]

omit consistent in
theorem back?_withTop
    {top : Frame}
    (standing : machine.frames.back? = some top)
    (frame : Frame)
    (cells : Cells) :
    (machine.withTop frame cells).frames.back? = some frame := by
  unfold withTop
  dsimp only
  rw [Array.back?_eq_getElem?, Array.size_setIfInBounds, Array.getElem?_setIfInBounds,
    if_pos rfl, if_pos (size_pos_of_top standing)]

/-- Attach a register of the innermost frame that was not attached before. -/
theorem sustains_attach (standing : machine.frames.back? = some frame) (register : Register) :
    machine.Sustains collects (machine.withTop
      { frame with attached := frame.attached ++ [(register, UpvalueId.mk machine.cells.upvalues.size)] }
      (machine.cells.addUpvalue (.attached frame.window register)).2) := by
  have top := frameAt_top standing
  have vouched : machine.Vouches frame :=
    vouches_array.1 consistent.frames frame (Array.mem_of_back? standing)
  have fills : machine.Fills
      (machine.cells.addUpvalue (.attached frame.window register)).2 :=
    .addUpvalue frame.window register
  have extended : machine.Vouches { frame with
      attached := frame.attached ++ [(register, UpvalueId.mk machine.cells.upvalues.size)] } :=
    ⟨vouched.accepts⟩
  have frames := consistent.frames
  have attached : ∀ {index : Nat} {window place},
      machine.cells.upvalues[index]? = some (.attached window place) ->
        (machine.cells.upvalues.push (.attached frame.window register))[index]? =
          some (.attached window place) := by
    intro index window place stands
    rw [Array.getElem?_push, if_neg, stands]
    have bound := (Array.getElem?_eq_some_iff.1 stands).1
    omega
  -- The new variable is not one that another frame has attached.
  have new : ∀ {place other}, place ≠ .inl (machine.frames.size - 1) ->
      machine.FrameAt place other ->
      ∀ entry ∈ frame.attached ++ [(register, UpvalueId.mk machine.cells.upvalues.size)],
        ∀ held ∈ other.attached, entry.2 ≠ held.2 := by
    intro place other distinct stands entry member held present
    rcases List.mem_append.1 member with before | new
    · exact consistent.tied.apart top stands (Ne.symm distinct) entry before held present
    · cases List.mem_singleton.1 new
      intro same
      have bound := (Array.getElem?_eq_some_iff.1
        (consistent.tied.attaches stands held present)).1
      rw [← same] at bound
      exact Nat.lt_irrefl _ bound
  refine .reframe fills (fills.later.vouches (vouches_setIfInBounds ..))
    ⟨fun {place other} stands entry member => ?_,
      fun {place second left right} first stands distinct => ?_⟩
  · rcases frameAt_replace stands with ⟨rfl, rfl⟩ | ⟨_, old⟩
    · rcases List.mem_append.1 member with before | new
      · exact attached (consistent.tied.attaches top entry before)
      · cases List.mem_singleton.1 new
        exact Array.getElem?_push_size
    · exact attached (consistent.tied.attaches old entry member)
  · rcases frameAt_replace first with ⟨rfl, rfl⟩ | ⟨apart, old⟩
    · rcases frameAt_replace stands with ⟨rfl, rfl⟩ | ⟨apart, old⟩
      · exact absurd rfl distinct
      · exact new apart old
    · rcases frameAt_replace stands with ⟨rfl, rfl⟩ | ⟨_, other⟩
      · exact fun entry member held present same =>
          new apart old held present entry member same.symm
      · exact consistent.tied.apart old other distinct

/-- Capture a register of the innermost frame. -/
theorem sustains_capture
    {frame captor : Frame}
    {id : UpvalueId}
    (standing : machine.frames.back? = some frame)
    {register : Register}
    (captures : frame.capture machine.cells register = (id, captor, cells)) :
    machine.Sustains collects (machine.withTop captor cells) ∧
      (machine.withTop captor cells).Vouches id := by
  have vouched : machine.Vouches frame :=
    vouches_array.1 consistent.frames frame (Array.mem_of_back? standing)
  unfold Frame.capture at captures
  split at captures
  · next present =>
      cases captures
      rw [withTop_self standing]
      exact ⟨.refl machine, vouches_attached (frameAt_top standing)
        (ShapeTable.mem_of_lookup present)⟩
  · cases captures
    have sustains := sustains_attach standing register
    refine ⟨sustains, vouches_captured.2 ⟨fun window place present => ?_,
      fun value present => ?_⟩⟩
    · change (machine.cells.upvalues.push (.attached frame.window register))[machine.cells.upvalues.size]? =
        some (.attached window place) at present
      rw [Array.getElem?_push_size] at present
      cases present
      exact sustains.later.vouches (vouches_frame_window frame)
    · change (machine.cells.upvalues.push (.attached frame.window register))[machine.cells.upvalues.size]? =
        some (.detached value) at present
      rw [Array.getElem?_push_size] at present
      cases present

/-- Resolve captures against the innermost frame. -/
theorem sustains_resolveCaptures
    (captures : List Capture)
    {frame captor : Frame}
    {ids : Option (List UpvalueId)}
    (standing : machine.frames.back? = some frame)
    (resolved : resolveCaptures frame machine.cells captures = (ids, captor, cells)) :
    machine.Sustains collects (machine.withTop captor cells) ∧
      (machine.withTop captor cells).Vouches ids := by
  induction captures generalizing machine frame captor cells ids with
  | nil =>
      cases resolved
      rw [withTop_self standing]
      exact ⟨.refl machine, inferInstance⟩
  | cons capture rest step =>
      cases capture with
      | register register =>
          unfold resolveCaptures at resolved
          rcases captured : frame.capture machine.cells register with ⟨id, middle, between⟩
          rw [captured] at resolved
          rcases rests : resolveCaptures middle between rest with ⟨others, last, final⟩
          dsimp only at resolved
          rw [rests] at resolved
          cases resolved
          obtain ⟨sustains, new⟩ := sustains_capture standing captured
          have := sustains.consistent
          obtain ⟨further, old⟩ := step (back?_withTop standing middle between) rests
          rw [withTop_withTop] at further old
          have later := further.later
          refine ⟨sustains.trans further, ?_⟩
          cases others with
          | none => exact vouches_none
          | some others =>
              have old := vouches_some.1 old
              have first := later.vouches new
              exact vouches_some_of (id :: others)
      | upvalue index =>
          unfold resolveCaptures at resolved
          split at resolved
          · cases resolved
            rw [withTop_self standing]
            exact ⟨.refl machine, vouches_none⟩
          · next id present =>
              rcases rests : resolveCaptures frame machine.cells rest with ⟨others, last, final⟩
              rw [rests] at resolved
              cases resolved
              obtain ⟨sustains, old⟩ := step standing rests
              refine ⟨sustains, ?_⟩
              have vouched : machine.Vouches frame :=
                vouches_array.1 consistent.frames frame (Array.mem_of_back? standing)
              have first : machine.Vouches id := .of_some present
              have first := sustains.later.vouches first
              cases others with
              | none => exact vouches_none
              | some others =>
                  have old := vouches_some.1 old
                  exact vouches_some_of (id :: others)

end Machine
end ScriptVM

import Mathlib.Data.List.Chain
import ScriptVM.Proofs.FreshFrames
import ScriptVM.Proofs.Reachable
import ScriptVM.Proofs.Targets
import ScriptVM.Proofs.Templates
import ScriptVM.Proofs.Verification

/-!
# Ranges of frames and operands

What accepted code refers to exists when a frame runs it, since the frame itself stays within the
code and within its window of registers.
-/

/-!
## Frames in range

A frame that runs accepted code goes on within the code, and the registers that it
captured, that it resumes into or that calls in place leave their results in are among
those of its window. Transitions keep this true of the frames on the stack and of those
that coroutines hold.
-/

namespace ScriptVM

/-! ## Windows -/

/-- Every register window keeps its registers. -/
def Cells.Widens (before after : Cells) : Prop :=
  ∀ id, (before.window id).size <= (after.window id).size

namespace Cells.Widens

theorem refl (cells : Cells) : cells.Widens cells :=
  fun _ => Nat.le_refl _

theorem of_windows {before after : Cells} (same : after.windows = before.windows) :
    before.Widens after := by
  intro id
  unfold Cells.window
  rw [same]

theorem setRegister (cells : Cells) (window : WindowId) (register : Register) (value : Value) :
    cells.Widens (cells.setRegister window register value) :=
  fun id => Nat.le_of_eq (cells.size_window_setRegister id window register value).symm

end Cells.Widens

theorem CellsChange.widens {before after : Cells} (change : CellsChange before after) :
    before.Widens after := by
  cases change with
  | openWindow size =>
      intro id
      unfold Cells.openWindow Cells.window
      dsimp only
      rw [Array.getElem?_push]
      split
      · next new => simp [new]
      · exact Nat.le_refl _
  | setRegister window register value => exact .setRegister before window register value
  | setUpvalue id value =>
      unfold Cells.setUpvalue
      split
      · exact .setRegister before _ _ value
      · exact .of_windows rfl
      · exact .refl before
  | share => exact .of_windows rfl

/-- Giving a `this` its value leaves the windows alone. -/
theorem Cells.windows_bindThis (cells : Cells) (scope : Scope) (this : Value) :
    (cells.bindThis scope this).2.windows = cells.windows := by
  unfold bindThis
  split
  · rfl
  · split <;> rfl

/-! ## Frames -/

namespace Frame

/-- All that a frame names for later exists. -/
structure InRange
    (cells : Cells)
    (frame : Frame) : Prop where
  window : frame.template.chunk.registerCount <= (cells.window frame.window).size
  aims : frame.AimsWithin frame.template.chunk.code.size
  attached : ∀ entry ∈ frame.attached, entry.1 < frame.template.chunk.registerCount
  resumes : ∀ register, frame.resumeRegister = some register ->
    register < frame.template.chunk.registerCount

/-- A frame of accepted code is in range. -/
def Sound
    (cells : Cells)
    (frame : Frame) : Prop :=
  frame.template.chunk.Accepted -> frame.InRange cells

theorem InRange.widen
    {before after : Cells}
    (widens : before.Widens after)
    {frame : Frame}
    (range : frame.InRange before) :
    frame.InRange after where
  window := Nat.le_trans range.window (widens frame.window)
  aims := range.aims
  attached := range.attached
  resumes := range.resumes

theorem Sound.widen
    {before after : Cells}
    (widens : before.Widens after)
    {frame : Frame}
    (sound : frame.Sound before) :
    frame.Sound after :=
  fun accepted => (sound accepted).widen widens

variable {cells : Cells} {frame : Frame}

theorem Fresh.sound (fresh : frame.Fresh cells) : frame.Sound cells := by
  intro _
  refine ⟨Nat.le_of_eq fresh.window.symm, ⟨?_, ?_, ?_⟩, ?_, ?_⟩
  · rw [fresh.next]
    exact Nat.zero_le _
  · rw [fresh.tryRegions]
    exact fun _ impossible => by cases impossible
  · rw [fresh.completions]
    exact fun _ impossible => by cases impossible
  · rw [fresh.attached]
    exact fun _ impossible => by cases impossible
  · rw [fresh.resumeRegister]
    exact fun _ impossible => by cases impossible

theorem Prepared.sound
    {prepared : Frame}
    (change : frame.Prepared prepared)
    (sound : frame.Sound cells) :
    prepared.Sound cells := by
  intro accepted
  have range : frame.InRange cells := sound (by rwa [change.template] at accepted)
  cases change with
  | resume =>
      exact ⟨range.window, ⟨range.aims.next, range.aims.regions, range.aims.completions⟩,
        range.attached, fun _ impossible => by cases impossible⟩
  | _ =>
      exact ⟨range.window, ⟨range.aims.next, range.aims.regions, range.aims.completions⟩,
        range.attached, range.resumes⟩

namespace InRange

theorem target_le
    (accepted : frame.template.chunk.Accepted)
    {instruction : Instruction}
    (contains : frame.template.Contains instruction)
    {target : Nat}
    (aimed : target ∈ instruction.targets) :
    target <= frame.template.chunk.code.size := by
  obtain ⟨placed, member, rfl⟩ := contains.placed
  exact accepted.target_le member aimed

theorem register_lt
    (accepted : frame.template.chunk.Accepted)
    {instruction : Instruction}
    (contains : frame.template.Contains instruction)
    {register : Register}
    (named : (register, 1) ∈ instruction.registers) :
    register < frame.template.chunk.registerCount := by
  obtain ⟨placed, member, rfl⟩ := contains.placed
  have refers : placed.instruction.RefersTo (.register register) :=
    ⟨_, named, Nat.le_refl _, Nat.lt_succ_self _⟩
  exact accepted.resolves member refers

end InRange

/-- A turn of accepted code keeps its frame in range. -/
theorem Turn.sound {turned : Frame} (turn : frame.Turn turned) (sound : frame.Sound cells) :
    turned.Sound cells := by
  intro acceptedTurned
  have same := turn.sameActivation
  have accepted : frame.template.chunk.Accepted := by
    rwa [same.template] at acceptedTurned
  have range := sound accepted
  have goes := turn.goes range.aims.aims fun instruction fetched target aimed =>
    InRange.target_le accepted fetched.contains aimed
  refine ⟨?_, ⟨?_, ?_, ?_⟩, ?_, fun register chosen => ?_⟩
  · rw [same.template, same.window]
    exact range.window
  · rw [same.template]
    rcases goes.next with stays | reached | ⟨_, _, _, next⟩
    · rw [stays]
      exact range.aims.next
    · exact reached
    · rw [next]
      exact Nat.le_trans (Nat.sub_le _ _) range.aims.next
  · rw [same.template]
    exact goes.aims.regions
  · rw [same.template]
    exact goes.aims.completions
  · rw [goes.attached, same.template]
    exact range.attached
  · rw [same.template]
    rcases goes.resumes register chosen with old | ⟨instruction, contains, named⟩
    · exact range.resumes register old
    · exact InRange.register_lt accepted contains named

/-- So does fetching an instruction of it. -/
theorem Move.sound {moved : Frame} (move : frame.Move moved) (sound : frame.Sound cells) :
    moved.Sound cells := by
  cases move with
  | turn _ turn => exact turn.sound sound
  | advance instruction fetched =>
      intro accepted
      have range : frame.InRange cells := sound accepted
      obtain ⟨placed, stands, _⟩ := Option.map_eq_some_iff.1 fetched
      exact ⟨range.window, ⟨(Array.getElem?_eq_some_iff.1 stands).1, range.aims.regions,
        range.aims.completions⟩, range.attached, range.resumes⟩

/-- Capturing registers that the code has keeps a frame in range. -/
theorem InRange.attach
    (range : frame.InRange cells)
    {attached : List (Register × UpvalueId)}
    (known : ∀ entry ∈ attached, entry.1 < frame.template.chunk.registerCount) :
    { frame with attached }.InRange cells :=
  ⟨range.window, ⟨range.aims.next, range.aims.regions, range.aims.completions⟩, known,
    range.resumes⟩

/-- The result of a frame goes into a register of the frame below. -/
def Hands (lower upper : Frame) : Prop :=
  ∀ destination, upper.returnTo = .caller destination ->
    lower.template.chunk.Accepted -> destination < lower.template.chunk.registerCount

theorem hands_of_boundary
    (lower : Frame)
    {upper : Frame}
    (boundary : upper.returnTo = .boundary) :
    lower.Hands upper := by
  intro destination caller
  rw [boundary] at caller
  cases caller

end Frame

/-! ## Stages -/

variable {σ : Type}

/-- The frames of a stage that run accepted code are in range, and so are the registers
into which frames that were called in place hand their results. -/
structure Stage.InRange (stage : Stage σ) : Prop where
  stack : ∀ frame ∈ stage.machine.stack, frame.Sound stage.machine.cells
  /-- Frames off the stack do not return to any frame. -/
  loose : ∀ frame, stage.origins.frame frame ->
    frame.returnTo = .boundary ∧ frame.Sound stage.machine.cells
  hands : stage.machine.stack.IsChain Frame.Hands

namespace Stage.InRange

variable {origins : Origins}

/-- Only the cells, the stack and the frames off the stack matter. -/
theorem same
    {before after : Stage σ}
    (range : before.InRange)
    (frames : after.origins.frame = before.origins.frame)
    (cells : before.machine.cells.Widens after.machine.cells)
    (stack : after.machine.stack = before.machine.stack) :
    after.InRange where
  stack frame member := (range.stack frame (by rwa [stack] at member)).widen cells
  loose frame known := by
    rw [frames] at known
    exact ⟨(range.loose frame known).1, (range.loose frame known).2.widen cells⟩
  hands := by
    rw [stack]
    exact range.hands

/-- One more frame off the stack. -/
theorem withFrame
    {machine : Machine σ}
    (range : InRange ⟨origins, machine⟩)
    {frame : Frame}
    (boundary : frame.returnTo = .boundary)
    (sound : frame.Sound machine.cells) :
    InRange ⟨origins.withFrame frame, machine⟩ where
  stack := range.stack
  loose := by
    rintro other (known | rfl)
    · exact range.loose other known
    · exact ⟨boundary, sound⟩
  hands := range.hands

/-- The innermost frame leaves. -/
theorem dropTop
    {before after : Machine σ}
    (range : InRange ⟨origins, before⟩)
    (cells : before.cells.Widens after.cells)
    (stack : after.stack = before.stack.dropLast) :
    InRange ⟨origins, after⟩ where
  stack frame member := by
    rw [stack] at member
    exact (range.stack frame ((List.dropLast_sublist _).subset member)).widen cells
  loose frame known := ⟨(range.loose frame known).1, (range.loose frame known).2.widen cells⟩
  hands := by
    rw [stack]
    exact range.hands.dropLast

/-- A frame comes on top of the stack. -/
theorem push
    {machine : Machine σ}
    (range : InRange ⟨origins, machine⟩)
    {frame : Frame}
    (sound : frame.Sound machine.cells)
    (hands : ∀ top, machine.top? = some top -> top.Hands frame) :
    InRange ⟨origins, machine.pushFrame frame⟩ where
  stack other member := by
    rw [Machine.stack_pushFrame, List.mem_append, List.mem_singleton] at member
    rcases member with below | rfl
    · exact range.stack other below
    · exact sound
  loose := range.loose
  hands := by
    rw [Machine.stack_pushFrame]
    refine List.isChain_append.2 ⟨range.hands, .singleton frame, ?_⟩
    intro top last upper first
    rw [← Machine.top?_eq_getLast?] at last
    cases first
    exact hands top last

/-- The innermost frame changes, but not what it runs or where it returns. -/
theorem replaceTop
    {before after : Machine σ}
    {below : List Frame}
    {top changed : Frame}
    (range : InRange ⟨origins, before⟩)
    (standing : before.stack = below ++ [top])
    (left : after.stack = below ++ [changed])
    (cells : before.cells.Widens after.cells)
    (sound : changed.Sound after.cells)
    (returnTo : changed.returnTo = top.returnTo) :
    InRange ⟨origins, after⟩ where
  stack frame member := by
    rw [left, List.mem_append, List.mem_singleton] at member
    rcases member with lower | rfl
    · exact (range.stack frame (by rw [standing]; exact List.mem_append_left _ lower)).widen
        cells
    · exact sound
  loose frame known := ⟨(range.loose frame known).1, (range.loose frame known).2.widen cells⟩
  hands := by
    have chain := range.hands
    dsimp only at chain ⊢
    rw [standing] at chain
    rw [left]
    obtain ⟨lower, _, joint⟩ := List.isChain_append.1 chain
    refine List.isChain_append.2 ⟨lower, .singleton changed, ?_⟩
    intro last isLast upper first
    cases first
    intro destination caller
    exact joint last isLast top rfl destination (by rwa [returnTo] at caller)

end Stage.InRange

/-- A call in place hands its result to a register that the caller has. -/
theorem Machine.Expects.hands
    {machine : Machine σ}
    {frame top : Frame}
    (expects : machine.Expects frame.returnTo)
    (standing : machine.top? = some top) :
    top.Hands frame := by
  intro destination caller accepted
  rw [caller] at expects
  cases expects with
  | caller _ instruction _ found contains named =>
      cases standing.symm.trans found
      exact Frame.InRange.register_lt accepted contains named

/-- A function that is nested in accepted code captures only registers that the code
around it has. -/
theorem Stage.Filed.provides
    {stage : Stage σ}
    (filed : stage.Filed)
    {outer nested : Template}
    (known : stage.origins.template outer)
    (accepted : outer.chunk.Accepted)
    (member : nested ∈ outer.nested)
    {register : Register}
    (captured : .register register ∈ nested.chunk.info.captures) :
    register < outer.chunk.registerCount := by
  have inner : nested.chunk ∈ outer.chunk.functions := by
    rw [← filed.nested outer known]
    exact List.mem_map_of_mem member
  have provided := accepted.provides inner captured
  unfold Chunk.provides at provided
  exact of_decide_eq_true provided

/-- A transition keeps the frames of accepted code in range. -/
theorem Transition.inRange
    {before after : Stage σ}
    (coherent : before.Coherent)
    (filed : before.Filed)
    (range : before.InRange)
    (transition : Transition before after) :
    after.InRange := by
  cases transition with
  | cells origins machine cells change => exact range.same rfl change.widens rfl
  | bindThis origins machine top _ _ _ this =>
      exact range.same rfl (.of_windows (machine.cells.windows_bindThis top.scope this)) rfl
  | consult origins machine id name template slot =>
      obtain ⟨caches, same⟩ := machine.cachedLookup_machine id name template.id slot
      rw [same]
      exact range.same rfl (.refl _) rfl
  | remember origins machine id name template slot =>
      obtain ⟨caches, same⟩ := machine.rememberOwn_machine id name template.id slot
      rw [same]
      exact range.same rfl (.refl _) rfl
  | «open» origins machine frame fresh known boundary =>
      exact range.withFrame boundary fresh.sound
  | prepare origins machine old frame known prepared =>
      obtain ⟨boundary, sound⟩ := range.loose old known
      exact range.withFrame (prepared.returnTo.trans boundary) (prepared.sound sound)
  | push origins machine frame known =>
      obtain ⟨boundary, sound⟩ := range.loose frame known
      exact range.push sound fun top _ => Frame.hands_of_boundary top boundary
  | call origins machine frame fresh known room expects =>
      exact range.push fresh.sound fun top standing => expects.hands standing
  | replace origins machine top frame standing fresh known returnTo =>
      obtain ⟨below, stack⟩ := Machine.stack_of_top? standing
      have widens : machine.cells.Widens (machine.popFrame.pushFrame frame).cells :=
        .of_windows machine.recaptures_popFrame.windows
      refine range.replaceTop stack ?_ widens (fresh.sound.widen widens) returnTo
      rw [Machine.stack_pushFrame, Machine.stack_popFrame, stack, List.dropLast_concat]
  | pop origins machine =>
      exact range.dropTop (.of_windows machine.recaptures_popFrame.windows) machine.stack_popFrame
  | take origins machine top known standing earlier returnTo =>
      obtain ⟨below, stack⟩ := Machine.stack_of_top? standing
      have sound := range.stack top (by rw [stack]; simp)
      have left : Stage.InRange ⟨origins, machine.takeFrame⟩ :=
        range.dropTop (.refl _) machine.stack_takeFrame
      exact left.withFrame (returnTo.trans (range.loose known earlier).1) sound
  | move origins machine top moved standing move =>
      obtain ⟨below, stack⟩ := Machine.stack_of_top? standing
      have sound := range.stack top (by rw [stack]; simp)
      exact range.replaceTop stack (Machine.stack_modifyTop _ stack) (.refl _)
        (move.sound sound) move.sameActivation.returnTo
  | capture origins machine top nested standing member =>
      obtain ⟨below, stack⟩ := Machine.stack_of_top? standing
      obtain ⟨attached, captured, new⟩ := Machine.stack_captureClosure nested stack
      have widens := Cells.Widens.of_windows (machine.recaptures_captureClosure nested).windows
      have running : top ∈ machine.stack := by rw [stack]; simp
      refine range.replaceTop stack captured widens ?_ rfl
      intro accepted
      have inner := (range.stack top running accepted).widen widens
      refine inner.attach fun entry present => ?_
      rcases new entry present with old | fresh
      · exact inner.attached entry old
      · exact filed.provides (coherent.stack top running).template accepted member fresh
  | detach origins machine first =>
      have widens := Cells.Widens.of_windows (machine.recaptures_detachFrom first).windows
      cases standing : machine.top? with
      | none =>
          rw [Machine.detachFrom_of_no_top first standing]
          exact range
      | some top =>
          obtain ⟨below, stack⟩ := Machine.stack_of_top? standing
          obtain ⟨attached, detached, fewer⟩ := Machine.stack_detachFrom first stack
          have running : top ∈ machine.stack := by rw [stack]; simp
          refine range.replaceTop stack detached widens ?_ rfl
          intro accepted
          have inner := (range.stack top running accepted).widen widens
          exact inner.attach fun entry present => inner.attached entry (fewer present)
  | collect origins machine kept =>
      refine range.same rfl ?_ (machine.stack_collectGarbage kept)
      unfold Machine.collectGarbage
      split <;> exact .refl _
  | _ => exact range.same rfl (.refl _) rfl

/-!
## Operands in range

Whatever an instruction of accepted code refers to exists when a frame runs it: the
registers, the constants and nested functions and the cache slots. This holds of frames
on the stack and of frames that coroutines hold, at every sight that an embedder can
come across.
-/

/-! ## Operands that are there -/

variable {α : Type}

namespace Exec

variable {index : Nat} {template : Template}
/-- A change of the machine throws nothing. -/
theorem change_thrown
    {operation : Machine σ -> α × Machine σ}
    {env : Env σ}
    {machine after : Machine σ}
    {exception : Exception} :
    change operation env machine ≠ .error (.thrown exception) after := by
  unfold change
  dsimp only
  split <;> exact fun impossible => by cases impossible

/-- What throws after the use of an operand throws by itself. -/
theorem use_bind_thrown
    {referent : Referent}
    {next : Exec σ α}
    {env : Env σ}
    {machine after : Machine σ}
    {exception : Exception}
    (thrown : (do use referent; next) env machine = .error (.thrown exception) after) :
    next env machine = .error (.thrown exception) after := by
  cases unseen : env.watch { machine, used := some referent } with
  | false =>
      have used : use referent env machine = .ok () machine := if_neg (by rw [unseen]; decide)
      rwa [bind_of_ok (fun _ => next) used] at thrown
  | true =>
      have used : use referent env machine =
          .error (.interrupted { machine, used := some referent }) machine := if_pos unseen
      rw [bind_of_error (fun _ => next) used] at thrown
      cases thrown

theorem constantOperand_thrown
    (within : index < template.chunk.constants.size)
    (env : Env σ)
    (machine after : Machine σ)
    (exception : Exception) :
    constantOperand template index env machine ≠ .error (.thrown exception) after := by
  intro thrown
  have found := use_bind_thrown thrown
  rw [Array.getElem?_eq_getElem within] at found
  cases constant : template.chunk.constants[index] <;>
  · rw [constant] at found
    cases found

theorem nameOperand_thrown
    (named : (template.chunk.string? index).isSome)
    (env : Env σ)
    (machine after : Machine σ)
    (exception : Exception) :
    nameOperand template index env machine ≠ .error (.thrown exception) after := by
  intro thrown
  obtain ⟨name, found⟩ := Option.isSome_iff_exists.1 named
  have raised := use_bind_thrown thrown
  rw [found] at raised
  cases raised

theorem createClosure_thrown
    (within : index < template.nested.length)
    (env : Env σ)
    (machine after : Machine σ) :
    createClosure template index env machine ≠
      .error (.thrown (.internalError "function index out of range")) after := by
  intro thrown
  have raised := use_bind_thrown thrown
  rw [List.getElem?_eq_getElem within] at raised
  dsimp only at raised
  cases captured : change (fun machine => machine.captureClosure template.nested[index])
      env machine with
  | error stop middle =>
      rw [bind_of_error _ captured] at raised
      cases raised
      exact change_thrown captured
  | ok closure middle =>
      rw [bind_of_ok _ captured] at raised
      cases closure with
      | none => simp [raise, Exception.internalError, Fault.internalError] at raised
      | some closure => exact change_thrown raised

end Exec

/-! ## Visible sights -/

theorem Stage.blank_inRange (intrinsics : Intrinsics) (config : Config) (world : σ) :
    (Stage.blank intrinsics config world).InRange where
  stack frame member := by cases member
  loose frame impossible := impossible.elim
  hands := .nil

/-- A machine that is reached is coherent, keeps its templates apart and is in range, for
some origins. -/
theorem Machine.Reached.inRange {machine : Machine σ} (reached : machine.Reached) :
    ∃ origins, Stage.Coherent ⟨origins, machine⟩ ∧ Stage.Filed ⟨origins, machine⟩ ∧
      Stage.InRange ⟨origins, machine⟩ :=
  reached.invariant Stage.blank_inRange fun coherent filed range transition =>
    transition.inRange coherent filed range

namespace Machine

/-- The machine has what an operand of a frame refers to. -/
def Provides
    (machine : Machine σ)
    (frame : Frame) : Referent -> Prop
  | .register register => register < (machine.cells.window frame.window).size
  | .constant index => index < frame.template.chunk.constants.size
  | .name index => (frame.template.chunk.string? index).isSome
  | .function index => index < frame.template.nested.length
  | .cacheSlot slot => (machine.cache? frame.template.id slot).isSome

/-- None of the faults that report a missing constant or function can come up. -/
structure NothingMissing
    (σ : Type)
    (template : Template)
    (instruction : Instruction) : Prop where
  constant : ∀ index, instruction.RefersTo (.constant index) ->
    ∀ (env : Env σ) (machine after : Machine σ) (exception : Exception),
      Exec.constantOperand template index env machine ≠ .error (.thrown exception) after
  name : ∀ index, instruction.RefersTo (.name index) ->
    ∀ (env : Env σ) (machine after : Machine σ) (exception : Exception),
      Exec.nameOperand template index env machine ≠ .error (.thrown exception) after
  function : ∀ index, instruction.RefersTo (.function index) ->
    ∀ (env : Env σ) (machine after : Machine σ),
      Exec.createClosure template index env machine ≠
        .error (.thrown (.internalError "function index out of range")) after

/-- What a frame names is there: its own registers and targets, whatever the operands of
its instructions refer to, and the register in which a call in place leaves its result. -/
structure OperandsInRange
    (machine : Machine σ)
    (frame : Frame) : Prop where
  own : frame.InRange machine.cells
  operands : ∀ instruction, frame.template.Contains instruction ->
    ∀ referent, instruction.RefersTo referent -> machine.Provides frame referent
  results : ∀ below upper above, machine.stack = below ++ frame :: upper :: above ->
    ∀ destination, upper.returnTo = .caller destination ->
      machine.Provides frame (.register destination)

theorem operandsInRange
    {origins : Origins}
    {machine : Machine σ}
    (coherent : Stage.Coherent ⟨origins, machine⟩)
    (filed : Stage.Filed ⟨origins, machine⟩)
    (range : Stage.InRange ⟨origins, machine⟩)
    {frame : Frame}
    (held : machine.Holds frame)
    (accepted : frame.template.chunk.Accepted) :
    machine.OperandsInRange frame := by
  have code := (coherent.admits_held held).template
  have inner : frame.InRange machine.cells := by
    rcases held with running | ⟨id, coroutine, present, parked⟩
    · exact range.stack frame running accepted
    · exact (range.loose frame (coherent.objects id _ present frame parked)).2 accepted
  refine ⟨inner, fun instruction contains referent refers => ?_, ?_⟩
  · obtain ⟨placed, member, rfl⟩ := contains.placed
    have resolves := accepted.resolves member refers
    cases referent with
    | register register => exact Nat.lt_of_lt_of_le resolves inner.window
    | function index =>
        have nested := filed.nested frame.template code
        unfold Chunk.Resolves at resolves
        rwa [← nested, List.length_map] at resolves
    | cacheSlot slot =>
        have counted := filed.cached frame.template code
        unfold cacheCounts at counted
        rw [List.getElem?_map, Array.getElem?_toList] at counted
        obtain ⟨slots, present, size⟩ := Option.map_eq_some_iff.1 counted
        unfold Provides cache?
        rw [present]
        have within : slot < slots.size := size ▸ resolves
        exact Option.isSome_iff_exists.2 ⟨slots[slot], Array.getElem?_eq_getElem within⟩
    | _ => exact resolves
  · intro below upper above standing destination caller
    have chain := range.hands
    dsimp only at chain
    rw [standing] at chain
    have joint := (List.isChain_append_cons_cons.1 chain).2.1
    exact Nat.lt_of_lt_of_le (joint destination caller accepted) inner.window

/-- In range, no constant and no function can turn out to be missing. -/
theorem OperandsInRange.nothingMissing
    {machine : Machine σ}
    {frame : Frame}
    (range : machine.OperandsInRange frame)
    {instruction : Instruction}
    (contains : frame.template.Contains instruction) :
    NothingMissing σ frame.template instruction where
  constant _ refers :=
    Exec.constantOperand_thrown (range.operands instruction contains _ refers)
  name _ refers :=
    Exec.nameOperand_thrown (range.operands instruction contains _ refers)
  function _ refers :=
    Exec.createClosure_thrown (range.operands instruction contains _ refers)

end Machine

/-- Verified operands are in range: when a verification accepts a chunk, then whatever an
embedder does, each frame that runs one of its functions has all that it names, whether
it is running or parked in a coroutine. So does the innermost frame with what its
instruction is about to use, and no fault about a missing constant, name or function can
come up in it. -/
theorem verified_operands_in_range
    {chunk : Chunk}
    {limit : Nat}
    (bounded : limit <= Chunk.maxRegister)
    (verified : chunk.verify limit = .ok ())
    {sight : Sight σ}
    (visible : sight.Visible)
    {frame : Frame}
    (held : sight.machine.Holds frame)
    (enclosed : chunk.Encloses frame.template.chunk) :
    sight.machine.OperandsInRange frame ∧
      (∀ instruction, frame.template.Contains instruction ->
        Machine.NothingMissing σ frame.template instruction) ∧
      (sight.machine.top? = some frame -> ∀ referent, sight.used = some referent ->
        sight.machine.Provides frame referent) := by
  obtain ⟨founded, reached⟩ := visible.reached
  obtain ⟨origins, coherent, filed, range⟩ := reached.inRange
  have accepted : chunk.Accepted := ⟨limit, bounded, verified⟩
  have inner := Machine.operandsInRange coherent filed range held (accepted.encloses enclosed)
  refine ⟨inner, fun instruction contains => inner.nothingMissing contains, ?_⟩
  intro standing referent used
  obtain ⟨template, instruction, executes, refers⟩ := founded referent used
  obtain ⟨top, found, same⟩ := executes.top
  cases standing.symm.trans found
  have contains := executes.contains
  rw [← same] at contains
  exact inner.operands instruction contains referent refers

/-- A script that returns its only constant. -/
def constantScript : Chunk where
  info := { name := "constant", kind := .script }
  code := #[⟨.loadConst 0 0, none⟩, ⟨.return 0, none⟩]
  constants := #[.string "x"]
  registerCount := 1

/-- The run of the script up to the use of its constant. -/
def constantScriptRun : EStateM.Result (Stop Unit) (Machine Unit) Value :=
  Exec.runProgram (.request (.execute constantScript) fun _ => .finish (.ok .undefined))
    (Env.watched 10 fun sight => sight.used == some (.constant 0))
    (Builtins.newMachine {} ())

/-- The script has its constant when it uses it. -/
theorem verified_operands_in_range_constantScript :
    ∃ sight ∈ Sight.ofRun? constantScriptRun, ∃ frame ∈ sight.machine.top?,
      sight.machine.OperandsInRange frame := by
  have seen : ∃ sight ∈ Sight.ofRun? constantScriptRun, ∃ frame ∈ sight.machine.top?,
      (frame.template.chunk.verify Chunk.defaultMaxRegisters).toBool = true := by
    decide +kernel
  obtain ⟨sight, interrupted, frame, standing, accepted⟩ := seen
  have verified := Chunk.verify_of_toBool accepted
  have visible : sight.Visible := Sight.visible_of_ofRun? interrupted
  exact ⟨sight, interrupted, frame, standing, (verified_operands_in_range (by decide) verified
    visible (Machine.holds_top standing) .self).1⟩

end ScriptVM

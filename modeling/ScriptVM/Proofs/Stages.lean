import ScriptVM.Proofs.Coherence
import ScriptVM.Proofs.Targets
import ScriptVM.Proofs.Verification

/-!
# Stages of a run

A computation can begin at a stage where every coroutine that runs has its frame on the
stack. A dispatch run owns the frames above those that were there when it began: the lowest
one stands where the frame stood that the run began with, and the others were called in
place.
-/

namespace ScriptVM

variable {σ : Type}

/-! ## The calls under way -/

/-- The calls that are under way. -/
structure Machine.SameCalls (before after : Machine σ) : Prop where
  frames : after.frames = before.frames
  nativeDepth : after.nativeDepth = before.nativeDepth

namespace Machine.SameCalls

@[refl] theorem refl (machine : Machine σ) : machine.SameCalls machine := ⟨rfl, rfl⟩

theorem trans
    {first second third : Machine σ}
    (earlier : first.SameCalls second)
    (later : second.SameCalls third) :
    first.SameCalls third :=
  ⟨later.frames.trans earlier.frames, later.nativeDepth.trans earlier.nativeDepth⟩

theorem stack {before after : Machine σ} (same : before.SameCalls after) :
    after.stack = before.stack :=
  Machine.stack_eq_iff.2 same.frames

end Machine.SameCalls

/-! ## Frames of coroutines -/

namespace Machine.Manned

variable {machine after : Machine σ} {loose : Option Routine} {lower : List Frame}
  {top changed : Frame}

theorem routines_of_stack (standing : machine.stack = lower ++ [top]) :
    machine.routines = lower.filterMap Frame.routine? ++ top.routine?.toList := by
  have routines : machine.routines = machine.stack.filterMap Frame.routine? := rfl
  rw [routines, standing, List.filterMap_append]
  cases belongs : top.routine? <;> simp [belongs]

/-- Native code holds the frame that leaves the stack. -/
theorem leave
    (manned : machine.Manned none)
    (standing : machine.stack = lower ++ [top])
    (left : after.stack = lower)
    (heap : after.heap = machine.heap) :
    after.Manned top.routine? := by
  refine manned.rearrange (.of_payload fun _ => by rw [heap]) ?_
  have routines : after.routines = after.stack.filterMap Frame.routine? := rfl
  rw [routines, left, routines_of_stack standing]
  exact List.perm_append_comm

/-- A frame that native code held, or one of no coroutine, enters the stack. -/
theorem join
    (manned : machine.Manned top.routine?)
    (entered : after.stack = machine.stack ++ [top])
    (heap : after.heap = machine.heap) :
    after.Manned none := by
  refine manned.rearrange (.of_payload fun _ => by rw [heap]) ?_
  have routines : machine.routines = machine.stack.filterMap Frame.routine? := rfl
  rw [routines_of_stack entered, routines, Option.toList_none, List.nil_append]
  exact List.perm_append_comm

/-- The innermost frame changes and still belongs to the same coroutine. -/
theorem changeTop
    (manned : machine.Manned loose)
    (standing : machine.stack = lower ++ [top])
    (left : after.stack = lower ++ [changed])
    (heap : after.heap = machine.heap)
    (belongs : changed.routine? = top.routine?) :
    after.Manned loose := by
  refine manned.rearrange (.of_payload fun _ => by rw [heap]) ?_
  rw [routines_of_stack standing, routines_of_stack left, belongs]

end Machine.Manned

namespace Stage

variable {before after : Stage σ} {watch : Sight σ -> Bool} {origins : Origins}
variable {machine : Machine σ}

/-- The coroutines that run have their frames on the stack, but for one at most, unless
nothing is asked of coroutines. -/
def Manned
    (loose : Option Routine)
    (stage : Stage σ) : Prop :=
  stage.origins.lax ∨ stage.machine.Manned loose

/-- How deep native calls are does not matter. -/
theorem Manned.deeper
    {loose : Option Routine}
    (manned : Manned loose ⟨origins, machine⟩)
    (nativeDepth : Nat) :
    Manned loose ⟨origins, { machine with nativeDepth }⟩ :=
  manned.imp id fun manned => manned.same (.refl machine.heap) rfl

/-- The same calls are under way, and all coroutines that run still have their frames on
the stack. -/
structure SameCalls (before after : Stage σ) : Prop where
  calls : before.machine.SameCalls after.machine
  manned : before.Manned none -> after.Manned none

namespace SameCalls

@[refl] theorem refl (stage : Stage σ) : stage.SameCalls stage := ⟨.refl _, id⟩

theorem trans
    {first second third : Stage σ}
    (earlier : first.SameCalls second)
    (later : second.SameCalls third) :
    first.SameCalls third :=
  ⟨earlier.calls.trans later.calls, fun manned => later.manned (earlier.manned manned)⟩

/-- Nothing happens to the heap and the stack. -/
theorem beside
    {origins : Origins}
    {before after : Machine σ}
    (heap : after.heap = before.heap)
    (frames : after.frames = before.frames)
    (nativeDepth : after.nativeDepth = before.nativeDepth) :
    SameCalls ⟨origins, before⟩ ⟨origins, after⟩ where
  calls := ⟨frames, nativeDepth⟩
  manned manned := manned.imp id fun manned =>
    manned.same (.of_payload fun _ => by rw [heap]) frames

end SameCalls

/-- The watch picks every machine in which a spared object is gone. -/
def Watched
    (watch : Sight σ -> Bool)
    (stage : Stage σ) : Prop :=
  ∀ id, stage.origins.spared id -> ∀ sight : Sight σ,
    sight.machine.heap.contains id = false -> watch sight = true

theorem Watched.later (watched : before.Watched watch) (leads : before.Leads after) :
    after.Watched watch := by
  unfold Watched
  rw [leads.keeps.origins.spared]
  exact watched

/-- A computation can begin: the stage is coherent and watched, and all coroutines that run
have their frames on the stack. -/
structure Ready
    (watch : Sight σ -> Bool)
    (stage : Stage σ) : Prop where
  coherent : stage.Coherent
  watched : stage.Watched watch
  manned : stage.Manned none

/-- A stage that follows is ready too if all coroutines that run have their frames on the
stack. -/
theorem Ready.follow
    (ready : before.Ready watch)
    (leads : before.Leads after)
    (manned : after.Manned none) :
    after.Ready watch where
  coherent := leads.coherent ready.coherent
  watched := ready.watched.later leads
  manned := manned

/-- Where a computation leaves the calls as they were the next one can begin. -/
theorem Ready.later
    (ready : before.Ready watch)
    (leads : before.Leads after)
    (same : before.SameCalls after) :
    after.Ready watch :=
  ready.follow leads (same.manned ready.manned)

theorem Ready.deeper
    (ready : Ready watch ⟨origins, machine⟩)
    (nativeDepth : Nat) :
    Ready watch ⟨origins, { machine with nativeDepth }⟩ :=
  ⟨ready.coherent.withStack rfl ready.coherent.stack, ready.watched,
    ready.manned.deeper nativeDepth⟩

end Stage

/-! ## The frames of a run -/

namespace Frame

/-- A frame that is called in place does not return to native code, it belongs to no
coroutine, and it runs no function that suspends. -/
structure Inner (frame : Frame) : Prop where
  returnTo : frame.returnTo ≠ .boundary
  coroutine : frame.coroutine = none
  plain : frame.template.kind.suspends = false

/-- What keeps a frame at its place in the run lets a frame that is called in place be one. -/
theorem Continues.inner
    {before after : Frame}
    (continues : before.Continues after)
    (same : after.template = before.template)
    (inner : before.Inner) :
    after.Inner where
  returnTo := by
    rw [continues.returnTo]
    exact inner.returnTo
  coroutine := by
    rw [← routine?_eq_none, continues.routine, routine?_eq_none]
    exact inner.coroutine
  plain := by
    rw [same]
    exact inner.plain

/-- Capturing registers keeps a frame at its place in the run. -/
theorem continues_attached (frame : Frame) (attached : List (Register × UpvalueId)) :
    frame.Continues { frame with attached } :=
  .of_same rfl rfl rfl rfl rfl rfl rfl rfl rfl

/-- If the frame runs accepted code, then it is the one of a script of a kind that suspends,
which suspends outside of coroutines, or the one of a generator whose code the initial yield
does not divide, which suspends as no generator should. -/
def Excused
    (misstep : Misstep)
    (frame : Frame) : Prop :=
  frame.template.chunk.Accepted ->
    (misstep = .outsideCoroutineFrame ∨ misstep = .outsideCoroutine) ∧
        frame.function = none ∧ frame.template.kind.suspends = true ∨
      (misstep = .missedInitialYield ∨ misstep = .inGenerator) ∧
        frame.template.kind.isGenerator = true ∧ ∀ border, ¬ frame.template.Divided border

end Frame

/-- The frames of a run, innermost last: the lowest one stands where the frame stood that the
run began with, and the others are called in place. As long as the lowest one is opening, none
of them is called last by it. -/
def FramesOfRun (home : Frame) : List Frame -> Prop
  | [] => False
  | lowest :: inner =>
      home.Continues lowest ∧ (∀ frame ∈ inner, frame.Inner) ∧
        ∀ frame, inner.head? = some frame -> frame.returnTo = .tailReturn -> ¬ home.Opening

namespace FramesOfRun

variable {home : Frame} {frames : List Frame} {top : Frame}

theorem singleton (frame : Frame) (continues : home.Continues frame) :
    FramesOfRun home [frame] :=
  ⟨continues, fun _ member => absurd member List.not_mem_nil,
    fun _ impossible => by cases impossible⟩

theorem ne_nil (run : FramesOfRun home frames) : frames ≠ [] := by
  cases frames with
  | nil => exact run.elim
  | cons lowest inner => exact List.cons_ne_nil lowest inner

theorem exists_top (run : FramesOfRun home frames) : ∃ lower top, frames = lower ++ [top] :=
  ⟨frames.dropLast, frames.getLast run.ne_nil,
    (List.dropLast_concat_getLast run.ne_nil).symm⟩

theorem concat
    (run : FramesOfRun home frames)
    (inner : top.Inner)
    (last : frames.length = 1 -> top.returnTo = .tailReturn -> ¬ home.Opening) :
    FramesOfRun home (frames ++ [top]) := by
  cases frames with
  | nil => exact run.elim
  | cons lowest rest =>
      refine ⟨run.1, fun frame member => ?_, fun frame first => ?_⟩
      · rcases List.mem_append.1 member with old | new
        · exact run.2.1 frame old
        · exact List.mem_singleton.1 new ▸ inner
      · cases rest with
        | nil =>
            cases first
            exact last rfl
        | cons upper others => exact run.2.2 frame first

/-- Below the innermost frame there is the rest of the run, unless that frame was the
lowest one. -/
theorem dropTop (run : FramesOfRun home (frames ++ [top])) :
    (frames = [] ∧ home.Continues top) ∨
      (FramesOfRun home frames ∧ top.Inner ∧
        (frames.length = 1 -> top.returnTo = .tailReturn -> ¬ home.Opening)) := by
  cases frames with
  | nil => exact Or.inl ⟨rfl, run.1⟩
  | cons lowest rest =>
      right
      refine ⟨⟨run.1, fun frame member => ?_, fun frame first => ?_⟩, ?_, fun single => ?_⟩
      · exact run.2.1 frame (List.mem_append_left _ member)
      · cases rest with
        | nil => cases first
        | cons upper others => exact run.2.2 frame first
      · exact run.2.1 top (List.mem_append_right _ (List.mem_singleton.2 rfl))
      · have alone : rest = [] := List.length_eq_zero_iff.1 (Nat.succ.inj single)
        subst alone
        exact run.2.2 top rfl

theorem replaceTop
    {changed : Frame}
    (run : FramesOfRun home (frames ++ [top]))
    (continues : top.Continues changed)
    (inner : top.Inner -> changed.Inner) :
    FramesOfRun home (frames ++ [changed]) := by
  rcases run.dropTop with ⟨rfl, same⟩ | ⟨rest, called, last⟩
  · exact singleton changed (same.trans continues)
  · rw [← continues.returnTo] at last
    exact rest.concat (inner called) last

end FramesOfRun

/-! ## Runs -/

namespace Stage

/-- A run stands on the frames below, at a native depth. -/
structure Running
    (below : List Frame)
    (home : Frame)
    (depth : Nat)
    (stage : Stage σ) : Prop where
  frames : ∃ run, FramesOfRun home run ∧ stage.machine.stack = below ++ run
  depth : stage.machine.nativeDepth = depth
  manned : stage.Manned none

/-- All frames of the run on the frames below are gone. If the run was one of a coroutine
it still runs. -/
structure Ended
    (below : List Frame)
    (home : Frame)
    (depth : Nat)
    (stage : Stage σ) : Prop where
  frames : stage.machine.stack = below
  depth : stage.machine.nativeDepth = depth
  manned : stage.Manned home.routine?

namespace Running

variable {below : List Frame} {home : Frame} {depth : Nat} {stage after : Stage σ}
  {origins : Origins} {machine : Machine σ}

theorem exists_top (running : stage.Running below home depth) :
    ∃ run top, FramesOfRun home (run ++ [top]) ∧
      stage.machine.stack = (below ++ run) ++ [top] := by
  obtain ⟨frames, run, standing⟩ := running.frames
  obtain ⟨lower, top, rfl⟩ := run.exists_top
  exact ⟨lower, top, run, by rw [standing, List.append_assoc]⟩

/-- The run goes on with the same calls under way. -/
theorem same (running : stage.Running below home depth) (same : stage.SameCalls after) :
    after.Running below home depth where
  frames := by
    obtain ⟨run, frames, standing⟩ := running.frames
    exact ⟨run, frames, same.calls.stack.trans standing⟩
  depth := same.calls.nativeDepth.trans running.depth
  manned := same.manned running.manned

variable (running : Running below home depth ⟨origins, machine⟩)
include running

/-- The run goes on when its innermost frame changes at its place. -/
theorem changeTop
    {later : Machine σ}
    {run : List Frame}
    {top changed : Frame}
    (frames : FramesOfRun home (run ++ [top]))
    (standing : machine.stack = (below ++ run) ++ [top])
    (left : later.stack = (below ++ run) ++ [changed])
    (continues : top.Continues changed)
    (inner : top.Inner -> changed.Inner)
    (heap : later.heap = machine.heap)
    (native : later.nativeDepth = machine.nativeDepth) :
    Running below home depth ⟨origins, later⟩ where
  frames := ⟨run ++ [changed], frames.replaceTop continues inner, by
    rw [left, List.append_assoc]⟩
  depth := native.trans running.depth
  manned := running.manned.imp id fun manned =>
    manned.changeTop standing left heap continues.routine

/-- A move of the innermost frame that keeps it at its place keeps the run going. -/
theorem move
    {top moved : Frame}
    (found : machine.top? = some top)
    (move : top.Move moved)
    (continues : top.Continues moved) :
    Leads ⟨origins, machine⟩ ⟨origins, machine.modifyTop fun _ => moved⟩ ∧
      Running below home depth ⟨origins, machine.modifyTop fun _ => moved⟩ := by
  obtain ⟨run, innermost, frames, standing⟩ := running.exists_top
  have same : innermost = top :=
    Option.some.inj ((Machine.top?_of_stack standing).symm.trans found)
  subst same
  refine ⟨.single (.move origins machine innermost moved found move), ?_⟩
  exact running.changeTop frames standing (Machine.stack_modifyTop (fun _ => moved) standing)
    continues (continues.inner move.sameActivation.template) rfl rfl

theorem turn
    {top turned : Frame}
    (found : machine.top? = some top)
    (turn : top.Turn turned) :
    Leads ⟨origins, machine⟩ ⟨origins, machine.modifyTop fun _ => turned⟩ ∧
      Running below home depth ⟨origins, machine.modifyTop fun _ => turned⟩ :=
  running.move found (.turn top turned turn) turn.continues

end Running

/-! ## Returns -/

/-- The lowest frame of a run does not open any more if it is the innermost one, unless
nothing is asked of coroutines. -/
def MayReturn
    (below : List Frame)
    (home : Frame)
    (stage : Stage σ) : Prop :=
  stage.origins.lax ∨ (stage.machine.frames.size = below.length + 1 -> ¬ home.Opening)

namespace Running

variable {below : List Frame} {home : Frame} {depth : Nat} {stage : Stage σ} {template : Template}
variable {instruction : Instruction}

variable (running : stage.Running below home depth)
include running

/-- The only frame of a run stands where the frame stood that the run began with. -/
theorem continues_of_lowest
    {top : Frame}
    (found : stage.machine.top? = some top)
    (lowest : stage.machine.frames.size = below.length + 1) :
    home.Continues top ∧ stage.machine.stack = below ++ [top] := by
  obtain ⟨run, innermost, frames, standing⟩ := running.exists_top
  have same : innermost = top :=
    Option.some.inj ((Machine.top?_of_stack standing).symm.trans found)
  subst same
  have size : below.length + run.length + 1 = below.length + 1 := by
    rw [← lowest, ← Machine.length_stack, standing, List.length_append, List.length_append,
      List.length_singleton]
  have empty : run = [] := List.length_eq_zero_iff.1 (by omega)
  subst empty
  rw [List.append_nil] at standing
  exact ⟨frames.1, standing⟩

theorem not_opening
    (executes : stage.machine.Executes template instruction)
    (leaves : instruction.isPlain = false)
    (lowest : stage.machine.frames.size = below.length + 1) :
    ¬ home.Opening := by
  intro opening
  obtain ⟨top, found, -, fetched⟩ := executes.innermost
  have continues := (running.continues_of_lowest found lowest).1
  exact (continues.opening opening).absurd fetched leaves

theorem mayReturn
    (executes : stage.machine.Executes template instruction)
    (leaves : instruction.isPlain = false) :
    stage.MayReturn below home :=
  Or.inr (running.not_opening executes leaves)

end Running

/-- The frame that a run began with returns where a frame that came up before returns, and it
is due unless nothing is asked of coroutines. -/
structure Hosts
    (stage : Stage σ)
    (home : Frame) : Prop where
  known : ∃ frame, stage.origins.frame frame ∧ frame.returnTo = home.returnTo
  due : stage.origins.lax ∨ home.Due

theorem Hosts.later
    {home : Frame}
    {before after : Stage σ}
    (hosts : before.Hosts home)
    (leads : before.Leads after) :
    after.Hosts home where
  known := by
    obtain ⟨frame, known, returns⟩ := hosts.known
    exact ⟨frame, leads.keeps.origins.frame frame known, returns⟩
  due := by
    rw [leads.keeps.origins.lax]
    exact hosts.due

/-- The innermost frames are those of a run. -/
def Paused (stage : Stage σ) : Prop :=
  ∃ below home depth, stage.Running below home depth ∧ stage.Hosts home

/-- A frame that suspends out of place at the sight has an excuse, unless nothing is asked of
coroutines. -/
def Excuses
    (origins : Origins)
    (sight : Sight σ) : Prop :=
  ∀ misstep frame, sight.misstep = some (misstep, frame) ->
    origins.lax ∨ frame.Excused misstep

/-- A sight follows from a stage by transitions. If it is between two instructions it is one
of a run, and if a frame has suspended out of place that is excused; or a spared object is
gone. -/
inductive Shows (start : Stage σ) (sight : Sight σ) : Prop
  | reached (origins : Origins) :
      start.Leads ⟨origins, sight.machine⟩ ->
      (sight.between = true -> Paused ⟨origins, sight.machine⟩) ->
      Excuses origins sight ->
      Shows start sight
  | freed (id : ObjectId) :
      start.origins.spared id -> sight.machine.heap.contains id = false -> Shows start sight

theorem Shows.after_leads
    {start stage : Stage σ}
    {sight : Sight σ}
    (leads : start.Leads stage)
    (shows : stage.Shows sight) :
    start.Shows sight := by
  cases shows with
  | reached origins further paused excuses =>
      exact .reached origins (leads.trans further) paused excuses
  | freed id spared gone =>
      rw [leads.keeps.origins.spared] at spared
      exact .freed id spared gone

/-- A sight of the machine alone. -/
theorem Shows.machine
    {start : Stage σ}
    (origins : Origins)
    {machine : Machine σ}
    (leads : start.Leads ⟨origins, machine⟩) :
    start.Shows { machine } := by
  refine .reached origins leads (fun impossible => ?_) fun _ _ impossible => ?_
  · cases impossible
  · cases impossible

end Stage
end ScriptVM

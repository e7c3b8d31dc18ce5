import ScriptVM.Proofs.Dispatch

/-!
# Dispatch runs

A dispatch run executes instructions until its lowest frame returns, suspends or
throws, and then all of its frames are gone. So running a boundary frame is balanced.
-/

namespace ScriptVM

variable {σ α : Type} {env : Env σ} {below : List Frame} {home : Frame} {depth : Nat}
  {start : Stage σ}

/-- The frames below a run and the native depth are as before once it ended. -/
theorem Stage.Ended.sameCalls
    {before : Machine σ}
    {after : Stage σ}
    (ended : after.Ended before.stack home before.nativeDepth) :
    before.SameCalls after.machine :=
  ⟨Machine.stack_eq_iff.1 ended.frames, ended.depth⟩

namespace Exec

variable {instruction : Instruction} {template : Template} {top : Frame} {frame : Frame}
variable {destination iterator : Register}

/-! ## Flow of control -/

/-- The flow of control that a computation gives leaves the run as it should. -/
abbrev Steered
    (below : List Frame)
    (home : Frame)
    (depth : Nat)
    (start : Stage σ) :
    EStateM.Result (Stop σ) (Machine σ) Flow -> Prop :=
  Traced start fun outcome stage =>
    Machine.FlowLeaves below home depth outcome stage

theorem steered_flow
    (operation : Machine σ -> Except Exception Flow × Machine σ)
    (steers : Machine.Steers below home depth start.origins start.machine
      (operation start.machine)) :
    Steered below home depth start (flow operation env start.machine) := by
  refine .bind
    (fun outcome stage => ∃ answer, outcome = .ok answer ∧
      Machine.FlowLeaves below home depth answer stage)
    ?_ ?_ ?_
  · exact .change operation start.origins steers.leads ⟨_, rfl, steers.leaves⟩
  · rintro answer stage _ ⟨_, same, leaves⟩
    cases same
    exact .ofExcept answer leaves
  · rintro exception stage _ ⟨_, impossible, _⟩
    cases impossible

theorem steered_returnValue
    (inRun : start.InRun env.watch below home depth)
    (returns : start.MayReturn below home)
    (value : Value) :
    Steered below home depth start (returnValue below.length value env start.machine) :=
  steered_flow _ (Machine.steers_returnFrom _ _ value inRun.running returns)

theorem steered_endFinally
    (inRun : start.InRun env.watch below home depth)
    (returns : start.MayReturn below home) :
    Steered below home depth start
      (flow (fun machine => machine.endFinally below.length) env start.machine) :=
  steered_flow _ (Machine.steers_endFinally _ inRun.running returns)

/-- So does a computation that keeps the innermost frame where it is. -/
theorem Steered.bindStays
    {first : Exec σ α}
    {next : α -> Exec σ Flow}
    (stays : Stays template instruction first)
    (sound : env.Balanced)
    (inRun : start.InRun env.watch below home depth)
    (executes : start.machine.Executes template instruction)
    (later : ∀ answer stage, stage.InRun env.watch below home depth ->
      stage.machine.Executes template instruction ->
      Steered below home depth stage (next answer env stage.machine)) :
    Steered below home depth start ((first >>= next) env start.machine) := by
  refine .bind _ (stays.stays sound inRun executes) ?_ ?_
  · rintro answer stage leads ⟨running, executes⟩
    exact later answer stage (inRun.later leads running) executes
  · rintro exception stage _ ⟨running, -⟩
    exact Or.inl running

theorem Steered.bindCarries
    {first : Exec σ α}
    {next : α -> Exec σ Flow}
    (carries : Carries template instruction first)
    (sound : env.Balanced)
    (inRun : start.InRun env.watch below home depth)
    (executes : start.machine.Executes template instruction)
    (later : ∀ answer stage, stage.InRun env.watch below home depth ->
      Steered below home depth stage (next answer env stage.machine)) :
    Steered below home depth start ((first >>= next) env start.machine) := by
  refine .bind _ (carries.carries sound inRun executes) ?_ ?_
  · intro answer stage leads running
    exact later answer stage (inRun.later leads running)
  · intro exception stage _ running
    exact Or.inl running

/-! ## Suspension -/

/-- The innermost frame is the lowest one of the run, or it is inside of the run. -/
theorem top_cases
    (inRun : start.InRun env.watch below home depth)
    (found : start.machine.top? = some top) :
    start.machine.stack = below ++ [top] ∧ home.Continues top ∨ top.Inner := by
  obtain ⟨run, innermost, frames, standing⟩ := inRun.running.exists_top
  have same : innermost = top :=
    Option.some.inj ((Machine.top?_of_stack standing).symm.trans found)
  subst same
  rcases frames.dropTop with ⟨rfl, continues⟩ | ⟨-, inner, -⟩
  · exact .inl ⟨(List.append_nil below) ▸ standing, continues⟩
  · exact .inr inner

theorem lowest_of_owned
    (inRun : start.InRun env.watch below home depth)
    (found : start.machine.top? = some top)
    (owned : top.coroutine.isSome) :
    start.machine.frames.size = below.length + 1 := by
  rcases top_cases inRun found with ⟨standing, -⟩ | inner
  · rw [← Machine.length_stack, standing, List.length_append, List.length_singleton]
  · rw [inner.coroutine] at owned
    cases owned

/-- The innermost frame is due, unless nothing is asked of coroutines. -/
theorem due_of_top
    (inRun : start.InRun env.watch below home depth)
    (found : start.machine.top? = some top) :
    start.origins.lax ∨ top.Due := by
  rcases top_cases inRun found with ⟨-, continues⟩ | inner
  · exact inRun.hosts.due.imp id continues.due
  · exact Or.inr fun _ _ => inner.plain

theorem excused_of_unowned
    (due : frame.Due)
    (unowned : frame.coroutine = none)
    (suspends : frame.template.Yields ∨ frame.template.Awaits)
    {misstep : Misstep}
    (outside : misstep = .outsideCoroutineFrame ∨ misstep = .outsideCoroutine) :
    frame.Excused misstep := by
  intro accepted
  have kind : frame.template.kind.suspends = true := by
    unfold FunctionKind.suspends
    rw [Bool.or_eq_true]
    exact suspends.imp (fun yields => yields.isGenerator accepted) fun awaits =>
      awaits.isAsync accepted
  refine Or.inl ⟨outside, Option.not_isSome_iff_eq_none.1 fun called => ?_, kind⟩
  rw [due unowned called] at kind
  cases kind

/-- A frame that suspends out of place belongs to no coroutine, and it has an excuse. -/
theorem excused_of_executes
    (inRun : start.InRun env.watch below home depth)
    (executes : start.machine.Executes template instruction)
    (suspends : instruction.yields = true ∨ instruction.awaits = true)
    (found : start.machine.top? = some top)
    (amiss : start.machine.frames.size ≠ below.length + 1 ∨ top.coroutine = none) :
    start.origins.lax ∨ top.Excused .outsideCoroutineFrame := by
  have unowned : top.coroutine = none := by
    refine amiss.elim (fun differs => ?_) id
    exact Option.not_isSome_iff_eq_none.1 fun owned => differs (lowest_of_owned inRun found owned)
  refine (due_of_top inRun found).imp id fun due => excused_of_unowned due unowned ?_ (Or.inl rfl)
  obtain ⟨frame, standing, -, fetched⟩ := executes.innermost
  cases standing.symm.trans found
  exact suspends.imp (fun yields => ⟨instruction, fetched.contains, yields⟩) fun awaits =>
    ⟨instruction, fetched.contains, awaits⟩

/-- Taking the lowest frame of a run ends the run. -/
theorem traced_takeFrame
    (inRun : start.InRun env.watch below home depth)
    (found : start.machine.top? = some top)
    (lowest : start.machine.frames.size = below.length + 1) :
    Traced start
      (fun outcome stage => outcome = .ok () ∧ stage.Ended below home depth ∧
        stage.origins.frame top)
      (update Machine.takeFrame env start.machine) := by
  obtain ⟨continues, standing⟩ := inRun.running.continues_of_lowest found lowest
  obtain ⟨known, came, returns⟩ := inRun.hosts.known
  have home : top.returnTo = known.returnTo := continues.returnTo.trans returns.symm
  have left : start.machine.takeFrame.stack = below := by
    have dropped : start.machine.takeFrame.stack = start.machine.stack.dropLast :=
      start.machine.stack_takeFrame
    rw [dropped, standing, List.dropLast_concat]
  refine .update _ (start.origins.withFrame top)
    (.single (.take _ _ top known found came home))
    ⟨rfl, ⟨left, inRun.running.depth, ?_⟩, Or.inr rfl⟩
  rw [← continues.routine]
  exact inRun.running.manned.imp id fun manned => manned.leave standing left rfl

theorem suspend_of_lowest
    {machine : Machine σ}
    (found : machine.top? = some top)
    (lowest : machine.frames.size = below.length + 1)
    (owned : top.coroutine.isSome) :
    suspend below.length env machine =
      (do
        update Machine.takeFrame
        return top : Exec σ Frame) env machine := by
  unfold suspend
  rw [bind_of_ok _ (currentFrame_of_top found), ask_bind]
  dsimp only
  rw [if_neg (by simp [lowest, Option.isSome_iff_ne_none.1 owned])]

/-- An instruction that suspends the innermost frame leaves the run in an exit that knows the
frame. -/
theorem steered_suspend
    (inRun : start.InRun env.watch below home depth)
    (executes : start.machine.Executes template instruction)
    (leaves : instruction.isPlain = false)
    (suspends : instruction.yields = true ∨ instruction.awaits = true)
    (exit : Frame -> FrameExit)
    (knows : ∀ (origins : Origins) (frame : Frame), origins.frame frame ->
      frame.template.Contains instruction -> home.Suspends frame -> ¬ home.Opening ->
        (exit frame).Known origins home)
    (suspended : ∀ frame value, exit frame ≠ .returned value) :
    Steered below home depth start
      ((do return .exit (exit (<- suspend below.length)) : Exec σ Flow)
        env start.machine) := by
  obtain ⟨top, found, -, fetched⟩ := executes.innermost
  by_cases placed : start.machine.frames.size = below.length + 1 ∧ top.coroutine.isSome
  · obtain ⟨lowest, owned⟩ := placed
    have continues := (inRun.running.continues_of_lowest found lowest).1
    have further := inRun.running.not_opening executes leaves lowest
    have taken : Traced start
        (fun outcome stage => outcome = .ok top ∧ stage.Ended below home depth ∧
          stage.origins.frame top)
        (suspend below.length env start.machine) := by
      rw [suspend_of_lowest found lowest owned]
      refine .bind _ (traced_takeFrame inRun found lowest) ?_ ?_
      · rintro _ stage _ ⟨-, ended, known⟩
        exact .pure top ⟨rfl, ended, known⟩
      · rintro exception stage _ ⟨impossible, -⟩
        cases impossible
    refine .bind _ taken ?_ ?_
    · rintro frame stage _ ⟨same, ended, known⟩
      cases same
      exact .pure _ ⟨ended, knows stage.origins top known fetched.contains
        (continues.suspends further) further, fun value same => absurd same (suspended top value)⟩
    · rintro exception stage _ ⟨impossible, -⟩
      cases impossible
  · have strays : Traced start
        (fun outcome stage => (∃ exception, outcome = .error exception) ∧
          stage.Running below home depth)
        (suspend below.length env start.machine) := by
      unfold suspend
      rw [bind_of_ok _ (currentFrame_of_top found), ask_bind]
      dsimp only
      have amiss : start.machine.frames.size ≠ below.length + 1 ∨ top.coroutine = none := by
        rw [← Option.not_isSome_iff_eq_none]
        exact Decidable.not_and_iff_not_or_not.1 placed
      rw [if_pos]
      · exact .strayThen _ top (excused_of_executes inRun executes suspends found amiss)
          ⟨⟨_, rfl⟩, inRun.running⟩
      · rcases amiss with differs | unowned
        · simp [differs]
        · simp [unowned]
    refine .bind _ strays ?_ ?_
    · rintro frame stage _ ⟨⟨_, impossible⟩, -⟩
      cases impossible
    · rintro exception stage _ ⟨-, running⟩
      exact Or.inl running

theorem steered_suspendDelegating
    (inRun : start.InRun env.watch below home depth)
    (executes : start.machine.Executes template (.yieldStar destination iterator))
    (result : Value) :
    Steered below home depth start
      (suspendDelegating below.length result env start.machine) := by
  obtain ⟨top, found, -, fetched⟩ := executes.innermost
  let parked : Frame := { top with next := top.next - 1, delegating := true }
  have turned : top.Turn parked := .delegating top destination iterator fetched
  obtain ⟨leads, goesOn⟩ := inRun.running.turn found turned
  have moved : start.machine.modifyTop (fun frame =>
        { frame with next := frame.next - 1, delegating := true }) =
      start.machine.modifyTop fun _ => parked :=
    Machine.modifyTop_congr found rfl
  have size : (start.machine.modifyTop fun _ => parked).frames.size =
      start.machine.frames.size := Array.size_modify
  obtain ⟨lower, standing⟩ := Machine.stack_of_top? found
  have last : (start.machine.modifyTop fun _ => parked).top? = some parked :=
    Machine.top?_of_stack (Machine.stack_modifyTop (fun _ => parked) standing)
  unfold suspendDelegating
  refine .bind
    (fun outcome stage => outcome = .ok () ∧
      stage = ⟨start.origins, start.machine.modifyTop fun _ => parked⟩) ?_ ?_ ?_
  · refine .update _ start.origins ?_ ?_
    · rw [moved]
      exact leads
    · rw [moved]
      exact ⟨rfl, rfl⟩
  · rintro _ stage further ⟨-, rfl⟩
    have later : Stage.InRun env.watch below home depth
        ⟨start.origins, start.machine.modifyTop fun _ => parked⟩ :=
      inRun.later further goesOn
    rw [bind_of_ok _ (currentFrame_of_top last), ask_bind]
    dsimp only
    split
    · next amiss =>
        refine .strayThen _ parked ?_ (Or.inl goesOn)
        have differs : start.machine.frames.size ≠ below.length + 1 := by
          rw [← size]
          simpa using amiss
        have unowned : top.coroutine = none :=
          Option.not_isSome_iff_eq_none.1 fun owned =>
            differs (lowest_of_owned inRun found owned)
        refine (due_of_top inRun found).imp id fun due => ?_
        exact excused_of_unowned (turned.continues.due due) unowned
          (Or.inl ⟨_, fetched.contains, rfl⟩) (Or.inl rfl)
    · next allowed =>
        have lowest : (start.machine.modifyTop fun _ => parked).frames.size =
            below.length + 1 := by
          simpa using allowed
        have further' : ¬ home.Opening :=
          inRun.running.not_opening executes rfl (size.symm.trans lowest)
        have continues := (later.running.continues_of_lowest last lowest).1
        refine .bind _ (traced_takeFrame later last lowest) ?_ ?_
        · rintro _ final _ ⟨-, ended, known⟩
          exact .pure _ ⟨ended, ⟨known, Or.inr ⟨continues.suspends further',
            ⟨_, fetched.contains, rfl⟩, further'⟩⟩, nofun⟩
        · rintro exception final _ ⟨impossible, -⟩
          cases impossible
  · rintro exception stage _ ⟨impossible, -⟩
    cases impossible

theorem stays_takeDelegation {instruction : Instruction} :
    Stays template instruction (update fun machine =>
      machine.modifyTop fun frame => { frame with delegation := none } : Exec σ Unit) :=
  stays_turn _ (fun frame _ => .takeDelegation frame) fun _ => rfl

theorem steered_yieldStar
    (sound : env.Balanced)
    (inRun : start.InRun env.watch below home depth)
    (executes : start.machine.Executes template (.yieldStar destination iterator)) :
    Steered below home depth start
      (yieldStar below.length destination iterator env start.machine) := by
  unfold yieldStar
  refine .bindStays (heeds_read (.tail _ (.head _))).stays sound inRun executes
    fun iterator stage inRun executes => ?_
  refine Steered.bindStays (Heeds.stays inferInstance) sound inRun executes
    fun frame stage inRun executes => ?_
  refine Steered.bindStays stays_takeDelegation sound inRun executes
    fun _ stage inRun executes => ?_
  generalize frame.delegation.getD (.next, .undefined) = resumption
  obtain ⟨mode, received⟩ := resumption
  refine Steered.bindStays (Heeds.stays inferInstance) sound inRun executes
    fun answer stage inRun executes => ?_
  cases answer with
  | returns value =>
      exact steered_returnValue inRun (inRun.running.mayReturn executes rfl) value
  | result result =>
      refine Steered.bindStays (Heeds.stays inferInstance) sound inRun executes
        fun done stage inRun executes => ?_
      cases done with
      | true =>
          refine Steered.bindStays (Heeds.stays inferInstance) sound inRun executes
            fun value stage inRun executes => ?_
          refine Steered.bindStays (heeds_write value (.head _)).stays sound inRun executes
            fun _ stage inRun executes => ?_
          exact .pure _ inRun.running
      | false => exact steered_suspendDelegating inRun executes result

/-! ## Instructions -/

/-- Putting a frame for a closure in the place of the innermost frame keeps a run
going. -/
theorem traced_replaceCall
    (callee : ObjectId × Closure)
    (receiver : Value)
    (arguments : List Value)
    (inRun : start.InRun env.watch below home depth)
    (vouched : start.origins.Vouches callee.2)
    (plain : callee.2.template.kind.suspends = false)
    (found : start.machine.top? = some top)
    (free : top.coroutine = none)
    (constructs : top.construct = .none) :
    Traced start (fun _ stage => stage.Running below home depth)
      ((update fun machine =>
          let (frame, machine) :=
            machine.callFrame callee.1 callee.2 receiver arguments top.returnTo
          machine.popFrame.pushFrame frame : Exec σ Unit) env start.machine) := by
  have opened : Machine.Opened start.origins callee.2.template callee.1 callee.2.upvalues
      top.returnTo start.machine
      (start.machine.callFrame callee.1 callee.2 receiver arguments top.returnTo) :=
    Machine.opened_callFrame start.machine callee.1 callee.2 receiver arguments top.returnTo
  have placed :=
    Machine.places_callFrame vouched start.machine callee.1 receiver arguments top.returnTo
  refine .update _ start.origins ?_ ?_ <;>
    generalize start.machine.callFrame callee.1 callee.2 receiver arguments top.returnTo =
      result at opened placed ⊢
  · have last : result.2.top? = some top :=
      (Machine.top?_of_sameCalls opened.quiet.same).trans found
    exact opened.quiet.leads.tail (.replace start.origins result.2 top result.1 last
      opened.fresh (opened.admits vouched placed) opened.returnTo)
  · obtain ⟨run, innermost, frames, standing⟩ := inRun.running.exists_top
    have same : innermost = top :=
      Option.some.inj ((Machine.top?_of_stack standing).symm.trans found)
    subst same
    have stood : result.2.stack = (below ++ run) ++ [innermost] :=
      opened.quiet.same.stack.trans standing
    have running : Stage.Running below home depth ⟨start.origins, result.2⟩ :=
      inRun.running.same (opened.quiet.sameCalls inRun.coherent)
    have new : result.1.template.kind.suspends = false := opened.template ▸ plain
    have continues : innermost.Continues result.1 :=
      .ofFree free constructs opened.fresh.coroutine opened.returnTo fun _ _ => new
    have inner : innermost.Inner -> result.1.Inner := fun inner =>
      ⟨opened.returnTo ▸ inner.returnTo, opened.fresh.coroutine, new⟩
    refine running.changeTop frames stood ?_ continues inner result.2.heap_popFrame
      result.2.nativeDepth_popFrame
    rw [Machine.stack_pushFrame, Machine.stack_popFrame, stood, List.dropLast_concat]

theorem steered_tailCall
    (sound : env.Balanced)
    (inRun : start.InRun env.watch below home depth)
    (executes : start.machine.Executes template instruction)
    (leaves : instruction.isPlain = false)
    (callee receiver : Value)
    (arguments : List Value) :
    Steered below home depth start
      (tailCall below.length callee receiver arguments env start.machine) := by
  unfold tailCall
  rw [ask_bind]
  cases called : start.machine.inlineCallee? callee with
  | none =>
      refine Steered.bindStays (Heeds.stays inferInstance) sound inRun executes
        fun value stage inRun executes => ?_
      exact steered_returnValue inRun (inRun.running.mayReturn executes leaves) value
  | some closure =>
      obtain ⟨run, top, frames, standing⟩ := inRun.running.exists_top
      have found : start.machine.top? = some top := Machine.top?_of_stack standing
      obtain ⟨stands, plain⟩ := Machine.kind?_of_inlineCallee? called
      have vouched : start.origins.Vouches closure.2 := inRun.coherent.objects _ _ stands
      dsimp only
      rw [bind_of_ok _ (currentFrame_of_top found)]
      split
      · next replaceable =>
        obtain ⟨constructs, free⟩ : top.construct = .none ∧ top.coroutine = none := by
          simp [Frame.canReplace] at replaceable
          exact ⟨replaceable.1.2, replaceable.2⟩
        refine .bind _
          (traced_replaceCall closure receiver arguments inRun vouched plain found free
            constructs) ?_ ?_
        · intro _ stage _ running
          exact .pure _ running
        · intro exception stage _ running
          exact Or.inl running
      · refine .checkCallDepth _ (Or.inl inRun.running) fun room => ?_
        refine .bind _ (traced_pushCall closure receiver arguments inRun vouched plain room
          .tailReturn fun _ => inRun.running.not_opening executes leaves) ?_ ?_
        · intro _ stage _ running
          exact .pure _ running
        · intro exception stage _ running
          exact Or.inl running

theorem stays_resumeInto (register : Register) (among : (register, 1) ∈ instruction.registers) :
    Stays template instruction (resumeInto register : Exec σ Unit) :=
  stays_turn _ (fun frame fetched => .resumeInto frame instruction register fetched among)
    fun _ => rfl

/-- Executing an instruction of the innermost frame leaves the run as it should. -/
theorem steered_execute
    (sound : env.Balanced)
    (inRun : start.InRun env.watch below home depth)
    (executes : start.machine.Executes template instruction)
    (further : instruction ≠ .initialYield) :
    Steered below home depth start
      (execute below.length template instruction env start.machine) := by
  have acts : Steered below home depth start
      ((do
        act template instruction
        return .continue : Exec σ Flow) env start.machine) :=
    .bindCarries (carries_act template instruction) sound inRun executes
      fun _ stage inRun => .pure _ inRun.running
  cases instruction with
  | «return» value =>
      refine .bindStays (heeds_read (.head _)).stays sound inRun executes
        fun value stage inRun executes => ?_
      exact steered_returnValue inRun (inRun.running.mayReturn executes rfl) value
  | tailCall callee receiver arguments count =>
      refine .bindStays (heeds_read (.head _)).stays sound inRun executes
        fun calleeValue stage inRun executes => ?_
      refine Steered.bindStays (heeds_read (.tail _ (.head _))).stays sound inRun executes
        fun receiverValue stage inRun executes => ?_
      have reads : Heeds template (.tailCall callee receiver arguments count)
          (readRange arguments count : Exec σ (List Value)) :=
        heeds_readRange fun _ member => .tail _ (.tail _ member)
      refine Steered.bindStays reads.stays sound inRun executes
        fun values stage inRun executes => ?_
      exact steered_tailCall sound inRun executes rfl calleeValue receiverValue values
  | endFinally => exact steered_endFinally inRun (inRun.running.mayReturn executes rfl)
  | initialYield => exact absurd rfl further
  | yield destination value =>
      refine .bindStays (heeds_read (.tail _ (.head _))).stays sound inRun executes
        fun value stage inRun executes => ?_
      refine Steered.bindStays (stays_resumeInto destination (.head _)) sound inRun executes
        fun _ stage inRun executes => ?_
      exact steered_suspend inRun executes rfl (Or.inl rfl)
        (fun frame => .yielded value frame false) (fun _ _ known contains suspends further =>
          ⟨known, Or.inr ⟨suspends, ⟨_, contains, rfl⟩, further⟩⟩)
        fun _ _ => FrameExit.noConfusion
  | yieldStar destination iterator => exact steered_yieldStar sound inRun executes
  | await destination value =>
      refine .bindStays (heeds_read (.tail _ (.head _))).stays sound inRun executes
        fun value stage inRun executes => ?_
      refine Steered.bindStays (stays_resumeInto destination (.head _)) sound inRun executes
        fun _ stage inRun executes => ?_
      exact steered_suspend inRun executes rfl (Or.inr rfl) (.awaiting value)
        (fun _ _ known contains suspends further =>
          ⟨known, Or.inr ⟨suspends, ⟨_, contains, rfl⟩, further⟩⟩)
        fun _ _ => FrameExit.noConfusion
  | _ => exact acts

/-- The only frame of a run has just fetched the initial yield of its coroutine. -/
structure Starts
    (below : List Frame)
    (home : Frame)
    (depth : Nat)
    (stage : Stage σ)
    (top : Frame) : Prop where
  found : stage.machine.top? = some top
  fetched : top.HasFetched .initialYield
  owned : top.coroutine.isSome
  running : stage.Running below top depth
  hosts : stage.Hosts top
  suspends : home.Suspends top
  undivided : home.Begun -> ∀ border, ¬ top.template.Divided border

/-- How a fetch leaves a run: it goes on, unless it comes to the end of the code or to the
initial yield of a coroutine. -/
def Fetches
    (below : List Frame)
    (home : Frame)
    (depth : Nat) :
    Except Exception (Option (Template × Instruction)) -> Stage σ -> Prop
  | .ok none, stage => stage.Running below home depth ∧ stage.MayReturn below home
  | .ok (some (template, instruction)), stage =>
      stage.Running below home depth ∧ stage.machine.Executes template instruction ∧
          (instruction = .initialYield ->
            ∀ top, stage.machine.top? = some top -> top.coroutine = none) ∨
        instruction = .initialYield ∧ ∃ top, Starts below home depth stage top
  | .error _, stage => stage.Running below home depth

/-- Fetching moves the innermost frame past the instruction that it gives. -/
theorem traced_fetch (inRun : start.InRun env.watch below home depth) :
    Traced start (Fetches below home depth) (fetch env start.machine) := by
  obtain ⟨run, top, frames, standing⟩ := inRun.running.exists_top
  have found : start.machine.top? = some top := Machine.top?_of_stack standing
  unfold fetch
  rw [ask_bind, found]
  dsimp only [Option.map_some]
  cases present : top.template.instruction? top.next with
  | none =>
      refine ⟨start.origins, .refl, inRun.running, Or.inr fun lowest opening => ?_⟩
      have continues := (inRun.running.continues_of_lowest found lowest).1
      exact (continues.opening opening).not_at_end present
  | some instruction =>
      let moved : Frame := { top with next := top.next + 1 }
      have advanced : top.Move moved := .advance top instruction present
      have fetched : moved.HasFetched instruction := ⟨top.next, rfl, present⟩
      have placed : start.machine.modifyTop (fun frame =>
            { frame with next := top.next + 1 }) =
          start.machine.modifyTop fun _ => moved :=
        Machine.modifyTop_congr found rfl
      have last : (start.machine.modifyTop fun _ => moved).top? = some moved :=
        Machine.top?_of_stack (Machine.stack_modifyTop (fun _ => moved) standing)
      have leads : start.Leads ⟨start.origins, start.machine.modifyTop fun _ => moved⟩ :=
        .single (.move start.origins start.machine top moved found advanced)
      have settles : Fetches below home depth (.ok (some (top.template, instruction)))
          ⟨start.origins, start.machine.modifyTop fun _ => moved⟩ := by
        by_cases starts : top.coroutine.isSome ∧ instruction = .initialYield
        · obtain ⟨owned, rfl⟩ := starts
          have lowest := lowest_of_owned inRun found owned
          obtain ⟨continues, alone⟩ := inRun.running.continues_of_lowest found lowest
          refine Or.inr ⟨rfl, moved, ⟨last, fetched, owned, ⟨?_, ?_, ?_⟩, ⟨?_, ?_⟩, ?_, ?_⟩⟩
          · exact ⟨[moved], .singleton moved (.refl moved),
              Machine.stack_modifyTop (fun _ => moved) alone⟩
          · exact inRun.running.depth
          · exact inRun.running.manned.imp id fun manned => manned.changeTop alone
              (Machine.stack_modifyTop (fun _ => moved) alone) rfl rfl
          · obtain ⟨known, came, returns⟩ := inRun.hosts.known
            exact ⟨known, came, returns.trans continues.returnTo.symm⟩
          · exact inRun.hosts.due.imp id continues.due
          · refine ⟨continues.routine, continues.due, fun staged => ?_⟩
            exact Frame.begun_advance present (staged.imp continues.opening continues.begun)
          · intro begun border divided
            have past := (continues.begun begun).next border owned divided
            exact Nat.lt_irrefl _ (divided.once top.next present ▸ past)
        · have continues : top.Continues moved :=
            Frame.continues_advance present fun owned same => starts ⟨owned, same⟩
          refine Or.inl ⟨(inRun.running.move found advanced continues).2,
            ⟨moved, last, rfl, fetched⟩, fun same frame stands => ?_⟩
          cases last.symm.trans stands
          exact Option.not_isSome_iff_eq_none.1 fun owned => starts ⟨owned, same⟩
      refine .bind (fun outcome stage => outcome = .ok () ∧
        Fetches below home depth (.ok (some (top.template, instruction))) stage) ?_ ?_ ?_
      · refine .update _ start.origins ?_ ⟨rfl, ?_⟩
        · rw [placed]
          exact leads
        · rw [placed]
          exact settles
      · rintro _ stage _ ⟨-, settles⟩
        exact .pure _ settles
      · rintro exception stage _ ⟨impossible, -⟩
        cases impossible

/-- The initial yield of a coroutine ends its run. -/
theorem steered_start
    (ready : start.Ready env.watch)
    (starts : Starts below home depth start top) :
    Steered below home depth start
      ((do return .exit (.started (<- suspend below.length)) : Exec σ Flow)
        env start.machine) := by
  have inRun : start.InRun env.watch below top depth :=
    ⟨ready, starts.running, starts.hosts⟩
  have lowest := lowest_of_owned inRun starts.found starts.owned
  rw [show (do return Flow.exit (.started (<- suspend below.length)) : Exec σ Flow) =
    suspend below.length >>= fun frame => return .exit (.started frame) from rfl]
  refine .bind (fun outcome stage => outcome = .ok top ∧ stage.Ended below top depth ∧
    stage.origins.frame top) ?_ ?_ ?_
  · rw [suspend_of_lowest starts.found lowest starts.owned]
    refine .bind _ (traced_takeFrame inRun starts.found lowest) ?_ ?_
    · rintro _ stage _ ⟨-, ended, known⟩
      exact .pure top ⟨rfl, ended, known⟩
    · rintro exception stage _ ⟨impossible, -⟩
      cases impossible
  · rintro frame stage _ ⟨same, ended, known⟩
    cases same
    refine .pure _ ⟨⟨ended.frames, ended.depth, starts.suspends.routine ▸ ended.manned⟩,
      ⟨known, Or.inr ⟨starts.suspends, ⟨_, starts.fetched.contains, rfl⟩, starts.undivided⟩⟩,
      nofun⟩
  · rintro exception stage _ ⟨impossible, -⟩
    cases impossible

/-- An initial yield of no coroutine goes nowhere. -/
theorem steered_startOutside
    (inRun : start.InRun env.watch below home depth)
    (executes : start.machine.Executes template .initialYield)
    (unowned : ∀ top, start.machine.top? = some top -> top.coroutine = none) :
    Steered below home depth start
      ((do return .exit (.started (<- suspend below.length)) : Exec σ Flow)
        env start.machine) := by
  obtain ⟨top, found, -⟩ := executes.innermost
  have free := unowned top found
  refine .bind (fun outcome stage => (∃ exception, outcome = .error exception) ∧
    stage.Running below home depth) ?_ ?_ ?_
  · unfold suspend
    rw [bind_of_ok _ (currentFrame_of_top found), ask_bind]
    dsimp only
    rw [if_pos (by simp [free])]
    exact .strayThen _ top
      (excused_of_executes inRun executes (Or.inl rfl) found (Or.inr free))
      ⟨⟨_, rfl⟩, inRun.running⟩
  · rintro frame stage _ ⟨⟨_, impossible⟩, -⟩
    cases impossible
  · rintro exception stage _ ⟨-, running⟩
    exact Or.inl running

/-- One step leaves the run as it should. -/
theorem steered_step (sound : env.Balanced) (inRun : start.InRun env.watch below home depth) :
    Steered below home depth start (step below.length env start.machine) := by
  refine .bind _ (traced_fetch inRun) ?_ ?_
  · rintro answer stage leads settles
    match answer with
    | none => exact steered_returnValue (inRun.later leads settles.1) settles.2 .undefined
    | some (template, instruction) =>
        obtain ⟨running, executes, unowned⟩ | ⟨rfl, top, starts⟩ := settles
        · have later : stage.InRun env.watch below home depth := inRun.later leads running
          by_cases initial : instruction = .initialYield
          · subst initial
            exact steered_startOutside later executes (unowned rfl)
          · exact steered_execute sound later executes initial
        · exact steered_start (inRun.ready.follow leads starts.running.manned) starts
  · rintro exception stage _ running
    exact Or.inl running

/-! ## Runs -/

/-- How the handling of a step leaves a run: it goes on, or its frames are gone. -/
def Advances
    (below : List Frame)
    (home : Frame)
    (depth : Nat) :
    Except Exception (Option FrameExit) -> Stage σ -> Prop
  | .ok none, stage => stage.Running below home depth
  | .ok (some exit), stage =>
      stage.Ended below home depth ∧ exit.Known stage.origins home ∧
        exit.Completes stage.machine home
  | .error _, stage => stage.Ended below home depth

/-- How a run ends. -/
def Ends
    (below : List Frame)
    (home : Frame)
    (depth : Nat) :
    Except Exception FrameExit -> Stage σ -> Prop
  | .ok exit, stage =>
      stage.Ended below home depth ∧ exit.Known stage.origins home ∧
        exit.Completes stage.machine home
  | .error _, stage => stage.Ended below home depth

/-- Handling an exception finds a handler among the frames of the run or ends the
run. -/
theorem traced_handle
    (coherent : start.Coherent)
    (leaves : start.Running below home depth ∨ start.Ended below home depth)
    (exception : Exception) :
    Traced start
      (fun outcome stage =>
        match outcome with
        | .ok () => stage.Running below home depth
        | .error _ => stage.Ended below home depth)
      (handle below.length exception env start.machine) := by
  have size : start.machine.frames.size =
      below.length + (start.machine.frames.size - below.length) := by
    have standing : ∃ run, start.machine.stack = below ++ run := by
      rcases leaves with running | ended
      · obtain ⟨run, -, standing⟩ := running.frames
        exact ⟨run, standing⟩
      · exact ⟨[], ended.frames.trans (List.append_nil below).symm⟩
    obtain ⟨run, standing⟩ := standing
    rw [← Machine.length_stack, standing, List.length_append]
    omega
  have unwound : Machine.Unwound below home depth start.origins start.machine
      (start.machine.unwind (start.machine.attachStack exception)
        (start.machine.frames.size - below.length)) :=
    Machine.unwound_unwind _ start.machine _ coherent size leaves
  unfold handle
  rw [ask_bind]
  refine .bind
    (fun outcome stage => ∃ handled, outcome = .ok handled ∧
      (handled = true -> stage.Running below home depth) ∧
      (handled = false -> stage.Ended below home depth)) ?_ ?_ ?_
  · exact .change _ start.origins unwound.leads
      ⟨_, rfl, unwound.handled, unwound.unhandled⟩
  · rintro handled stage _ ⟨_, same, caught, escaped⟩
    cases same
    cases handled with
    | true => exact .pure _ (caught rfl)
    | false => exact ⟨stage.origins, .refl, escaped rfl⟩
  · rintro exception stage _ ⟨_, impossible, _⟩
    cases impossible

/-- What follows a step either goes on with the run or ends it. -/
theorem traced_advance
    {next : Exec σ Flow}
    (coherent : start.Coherent)
    (steered : Steered below home depth start (next env start.machine)) :
    Traced start (Advances below home depth)
      (advance below.length next env start.machine) := by
  unfold advance
  refine .bind _ steered.attempt ?_ ?_
  · rintro outcome stage leads leaves
    match outcome with
    | .ok .continue => exact .pure _ leaves
    | .ok (.exit exit) => exact .pure _ leaves
    | .error exception =>
        refine .bind _ (traced_handle (leads.coherent coherent) leaves exception) ?_ ?_
        · rintro _ stage _ running
          exact .pure _ running
        · rintro exception stage _ ended
          exact ended
  · rintro exception stage _ impossible
    exact impossible.elim

/-- A run goes on until all of its frames are gone. -/
theorem traced_runFrames
    (sound : env.Balanced)
    (inRun : start.InRun env.watch below home depth) :
    Traced start (Ends below home depth) (runFrames below.length env start.machine) := by
  refine .iterate (fun _ stage => stage.InRun env.watch below home depth) ?_ () inRun
  intro _ stage inRun
  refine .bind (fun outcome later => outcome = .ok () ∧ later = stage)
    (.pause inRun.paused ⟨rfl, rfl⟩) ?_ ?_
  · rintro _ _ _ ⟨-, rfl⟩
    refine .bind _ (traced_advance inRun.coherent (steered_step sound inRun)) ?_ ?_
    · intro answer later leads advances
      match answer with
      | some exit => exact .pure _ advances
      | none => exact .pure _ (inRun.later leads advances)
    · intro exception later _ ended
      exact ended
  · rintro exception later _ ⟨impossible, -⟩
    cases impossible

/-- So does a run that begins with a given step. -/
theorem traced_runFrom
    {first : Exec σ Flow}
    (sound : env.Balanced)
    (inRun : start.InRun env.watch below home depth)
    (steered : Steered below home depth start (first env start.machine)) :
    Traced start (Ends below home depth) (runFrom below.length first env start.machine) := by
  unfold runFrom
  refine .bind _ (traced_advance inRun.coherent steered) ?_ ?_
  · intro answer stage leads advances
    match answer with
    | some exit => exact .pure _ advances
    | none => exact traced_runFrames sound (inRun.later leads advances)
  · intro exception stage _ ended
    exact ended

/-! ## Frames that are run -/

/-- Pushing a frame that came up before begins a run. If the frame is one of a coroutine,
that coroutine runs already. -/
theorem traced_pushRun
    (coherent : start.Coherent)
    (watched : start.Watched env.watch)
    (manned : start.Manned frame.routine?)
    (known : start.origins.frame frame)
    (due : start.origins.lax ∨ frame.Due)
    (room : start.machine.frames.size < start.machine.config.maxCallDepth) :
    Traced start
      (fun outcome stage => outcome = .ok () ∧
        stage.InRun env.watch start.machine.stack frame start.machine.nativeDepth)
      ((update fun machine => machine.pushFrame frame : Exec σ Unit)
        env start.machine) := by
  have pushed : start.Leads ⟨start.origins, start.machine.pushFrame frame⟩ :=
    .single (.push start.origins start.machine frame known room)
  have entered : Stage.Manned none ⟨start.origins, start.machine.pushFrame frame⟩ :=
    manned.imp id fun manned => manned.join (Machine.stack_pushFrame _ frame) rfl
  refine .update _ start.origins pushed
    ⟨rfl, ⟨pushed.coherent coherent, watched, entered⟩, ?_, ⟨frame, known, rfl⟩, due⟩
  exact ⟨⟨[frame], .singleton frame (.refl frame), Machine.stack_pushFrame _ frame⟩, rfl,
    entered⟩

/-- A frame of no coroutine that leaves its run otherwise than with a return has an excuse. -/
theorem excused_of_suspends
    {origins : Origins}
    {frame suspended : Frame}
    (due : frame.Due)
    (free : frame.coroutine = none)
    (leaves : origins.lax ∨ frame.Suspends suspended ∧
      (suspended.template.Yields ∨ suspended.template.Awaits)) :
    origins.lax ∨ suspended.Excused .outsideCoroutine := by
  refine leaves.imp id fun ⟨suspends, contains⟩ => ?_
  have unowned : suspended.coroutine = none := by
    rw [← Frame.routine?_eq_none, suspends.routine, Frame.routine?_eq_none]
    exact free
  exact excused_of_unowned (suspends.due due) unowned contains (Or.inr rfl)

/-- A frame of no coroutine that came up before runs within the calls under way, unless it is
one of a function that suspends, and what it returns is completed by the rules for
constructors. -/
theorem completes_runBoundaryFrame
    (sound : env.Balanced)
    (ready : start.Ready env.watch)
    (known : start.origins.frame frame)
    (free : frame.coroutine = none)
    (due : frame.Due) :
    Traced start
      (fun outcome stage => start.SameCalls stage ∧ ∀ value, outcome = .ok value ->
        ∃ returned, stage.machine.constructResult frame returned = .ok value)
      (runBoundaryFrame frame env start.machine) := by
  refine (Traced.withNativeDepth
    (fun outcome stage => stage.Manned none ∧ ∀ value, outcome = .ok value ->
      ∃ returned, stage.machine.constructResult frame returned = .ok value)
    (fun _ _ _ depth settled => ⟨settled.1.deeper depth, settled.2⟩)
    ⟨ready.manned, fun _ impossible => by cases impossible⟩ ?_).mono
    fun _ _ _ settled => ⟨⟨settled.1, fun _ => settled.2.1⟩, settled.2.2⟩
  rintro deeper rfl
  have entered := ready.deeper (start.machine.nativeDepth + 1)
  have thrown {stage : Stage σ} {exception : Exception} : ∀ value,
      (.error exception : Except Exception Value) = .ok value ->
        ∃ returned, stage.machine.constructResult frame returned = .ok value :=
    fun _ impossible => by cases impossible
  refine .checkCallDepth _ ⟨.refl _, entered.manned, thrown⟩ fun room => ?_
  rw [ask_bind]
  have unowned : frame.routine? = none := Frame.routine?_eq_none.2 free
  refine .bind _ (traced_pushRun entered.coherent entered.watched (unowned ▸ entered.manned)
    known (Or.inr due) room) ?_ ?_
  · rintro _ stage _ ⟨-, inRun⟩
    refine .bind _ (traced_runFrames sound inRun) ?_ ?_
    · rintro exit stage _ ⟨ended, known, completes⟩
      have settled : Stage.Manned none stage := unowned ▸ ended.manned
      have keeps := ended.sameCalls
      cases exit with
      | returned value =>
          refine .pure value ⟨keeps, settled, ?_⟩
          rintro _ ⟨⟩
          exact completes value rfl
      | yielded value suspended delegated =>
          exact .stray _ suspended (excused_of_suspends due free
            (known.2.imp id fun left => ⟨left.1, Or.inl left.2.1⟩)) ⟨keeps, settled, thrown⟩
      | awaiting value suspended =>
          exact .stray _ suspended (excused_of_suspends due free
            (known.2.imp id fun left => ⟨left.1, Or.inr left.2.1⟩)) ⟨keeps, settled, thrown⟩
      | started suspended =>
          exact .stray _ suspended (excused_of_suspends due free
            (known.2.imp id fun left => ⟨left.1, Or.inl left.2.1⟩)) ⟨keeps, settled, thrown⟩
    · intro exception stage _ ended
      exact ⟨Stage.Ended.sameCalls ended, unowned ▸ Stage.Ended.manned ended, thrown⟩
  · rintro exception stage _ ⟨impossible, -⟩
    cases impossible

/-- Running a frame of no coroutine that came up before is balanced, unless it is one of a
function that suspends. -/
theorem traced_runBoundaryFrame
    (sound : env.Balanced)
    (ready : start.Ready env.watch)
    (known : start.origins.frame frame)
    (free : frame.coroutine = none)
    (due : frame.Due) :
    Traced start (fun _ stage => start.SameCalls stage)
      (runBoundaryFrame frame env start.machine) :=
  (completes_runBoundaryFrame sound ready known free due).mono fun _ _ _ settled => settled.1

end Exec
end ScriptVM

import ScriptVM.Proofs.Instructions

/-!
# Dispatch

Executing instructions keeps a run going until its lowest frame returns, suspends or
throws, and then all frames of the run are gone. So a run on a boundary frame is
balanced.
-/

namespace ScriptVM

variable {σ α β : Type} {returnTo : ReturnTo}

/-! ## Where results are expected -/

theorem Machine.Expects.same
    {before after : Machine σ}
    (expects : before.Expects returnTo)
    (same : before.SameCalls after) :
    after.Expects returnTo := by
  cases expects with
  | caller top instruction destination found contains among =>
      exact .caller top instruction destination
        ((Machine.top?_of_sameCalls same).trans found) contains among
  | tailReturn => exact .tailReturn

theorem Machine.Expects.inner
    {machine : Machine σ}
    (expects : machine.Expects returnTo) :
    returnTo ≠ .boundary := by
  cases expects <;> exact ReturnTo.noConfusion

namespace Exec

variable {callee : Value} {closure : ObjectId × Closure} {frame : Frame} {template : Template}
variable {count : Nat}

variable {env : Env σ} {below : List Frame} {home : Frame} {depth : Nat}
  {start : Stage σ} {machine : Machine σ} {top : Frame}

/-! ## Calls in place -/

theorem currentFrame_of_top (found : machine.top? = some top) :
    currentFrame env machine = .ok top machine := by
  unfold currentFrame
  rw [ask_bind, found]
  rfl

/-- A change that nobody watches is made. -/
theorem change_of_unwatched
    (unwatched : ∀ seen, env.watch seen = false)
    (operation : Machine σ -> α × Machine σ)
    (machine : Machine σ) :
    change operation env machine = .ok (operation machine).1 (operation machine).2 := by
  unfold change
  dsimp only
  rw [unwatched]
  rfl

/-- What follows a check of the call depth happens with room for a frame. -/
theorem Traced.checkCallDepth
    {after : Except Exception α -> Stage σ -> Prop}
    (next : Unit -> Exec σ α)
    (refused : after (.error .stackOverflow) start)
    (room : start.machine.frames.size < start.machine.config.maxCallDepth ->
      Traced start after (next () env start.machine)) :
    Traced start after ((Exec.checkCallDepth >>= next) env start.machine) := by
  unfold Exec.checkCallDepth
  rw [bind_assoc, ask_bind]
  split
  · exact ⟨start.origins, .refl, refused⟩
  · next allowed =>
      refine room (Nat.not_le.1 fun full => allowed (decide_eq_true full))

/-- Pushing a frame for a closure keeps a run going. The lowest frame calls none last while it
is opening. -/
theorem traced_pushCall
    (callee : ObjectId × Closure)
    (receiver : Value)
    (arguments : List Value)
    {returnTo : ReturnTo}
    (inRun : start.InRun env.watch below home depth)
    (vouched : start.origins.Vouches callee.2)
    (plain : callee.2.template.kind.suspends = false)
    (room : start.machine.frames.size < start.machine.config.maxCallDepth)
    (expects : start.machine.Expects returnTo)
    (last : returnTo = .tailReturn -> start.machine.frames.size = below.length + 1 ->
      ¬ home.Opening) :
    Traced start (fun _ stage => stage.Running below home depth)
      (pushCall callee receiver arguments returnTo env start.machine) := by
  have opened : Machine.Opened start.origins callee.2.template callee.1 callee.2.upvalues
      returnTo start.machine (start.machine.callFrame callee.1 callee.2 receiver arguments returnTo) :=
    Machine.opened_callFrame start.machine callee.1 callee.2 receiver arguments returnTo
  have placed := Machine.places_callFrame vouched start.machine callee.1 receiver arguments returnTo
  refine .update _ start.origins ?_ ?_ <;>
    generalize start.machine.callFrame callee.1 callee.2 receiver arguments returnTo =
      result at opened placed ⊢
  · refine opened.quiet.leads.tail (.call start.origins result.2 result.1 opened.fresh
      (opened.admits vouched placed) ?_ ?_)
    · have config : result.2.config = start.machine.config :=
        opened.quiet.leads.keeps.config
      rw [opened.quiet.same.frames, config]
      exact room
    · rw [opened.returnTo]
      exact expects.same opened.quiet.same
  · obtain ⟨run, frames, standing⟩ := inRun.running.frames
    have inner : result.1.returnTo ≠ .boundary := by
      rw [opened.returnTo]
      exact expects.inner
    have manned : Stage.Manned result.1.routine? ⟨start.origins, result.2⟩ := by
      rw [Frame.routine?_eq_none.2 opened.fresh.coroutine]
      exact opened.quiet.manned inRun.coherent inRun.running.manned
    have called : result.1.Inner := ⟨inner, opened.fresh.coroutine, opened.template ▸ plain⟩
    refine ⟨⟨run ++ [result.1], frames.concat called fun single passes => ?_, ?_⟩, ?_, ?_⟩
    · refine last (opened.returnTo.symm.trans passes) ?_
      rw [← Machine.length_stack, standing, List.length_append, single]
    · rw [← List.append_assoc, ← standing, ← opened.quiet.same.stack]
      exact Machine.stack_pushFrame result.2 result.1
    · exact opened.quiet.same.nativeDepth.trans inRun.running.depth
    · exact manned.imp id fun manned =>
        manned.join (Machine.stack_pushFrame result.2 result.1) rfl

/-! ## Super calls -/

theorem currentScope_of_top (found : machine.top? = some top) :
    currentScope env machine = .ok top.scope machine := by
  unfold currentScope
  rw [ask_bind, found]
  rfl

/-- What the super calls of a constructor construct. -/
def parentOf (active : ObjectId) : Exec σ Value := do
  match <- getPrototypeOf active with
  | some id => ask fun machine => machine.objectValue id
  | none => return .null

instance (active : ObjectId) : Balanced (parentOf active : Exec σ Value) := by
  unfold parentOf
  refine .bind inferInstance fun prototype => ?_
  split <;> infer_instance

/-- What a super call does with what it constructed. -/
def concludeSuper (scope : Scope) (active : ObjectId) (this : Value) : Exec σ Value := do
  let bound <- change fun machine =>
    ((machine.cells.bindThis scope this).1,
      { machine with cells := (machine.cells.bindThis scope this).2 })
  if !bound then
    raise (.referenceError "Super constructor may only be called once")
  runFieldInitializer active this
  return this

/-- A super call of a frame that runs a function. -/
theorem superCall_of_top
    {active : ObjectId}
    (found : machine.top? = some top)
    (running : top.scope.function = some active)
    (arguments : List Value) :
    superCall arguments env machine =
      (do
        let parent <- parentOf active
        if !(<- ask fun machine => machine.isConstructor parent) then
          typeError fun machine =>
            "Super constructor " ++ machine.display parent ++
              " of anonymous class is not a constructor"
        let this <- perform (.construct parent arguments top.scope.newTarget)
        concludeSuper top.scope active this : Exec σ Value) env machine := by
  unfold superCall parentOf
  rw [bind_of_ok _ (currentScope_of_top found), running, bind_assoc]
  exact congrArg (fun next => (getPrototypeOf active >>= next) env machine)
    (funext fun prototype => by cases prototype <;> rfl)

/-- Wherever this frame is the innermost one, the computation leaves the same calls under
way. -/
structure Serves
    (frame : Frame)
    (computation : Exec σ α) : Prop where
  serves : ∀ {env : Env σ} {start : Stage σ}, env.Balanced -> start.Ready env.watch ->
    start.machine.top? = some frame ->
    Traced start (fun _ stage => start.SameCalls stage) (computation env start.machine)

theorem Serves.bindBalanced
    {first : Exec σ α}
    {next : α -> Exec σ β}
    [balanced : Balanced first]
    (later : ∀ answer, Serves frame (next answer)) :
    Serves frame (first >>= next) where
  serves sound ready found := by
    refine .bind _ (balanced.balancedIn _ sound _ ready) ?_ ?_
    · intro answer stage leads same
      refine ((later answer).serves sound (ready.later leads same)
        ((Machine.top?_of_sameCalls same.calls).trans found)).mono ?_
      intro _ _ _ further
      exact same.trans further
    · intro exception stage _ same
      exact same

theorem Heeds.of_serves
    {instruction : Instruction}
    {computation : Exec σ α}
    (serves : ∀ frame : Frame, frame.HasFetched instruction -> Serves frame computation) :
    Heeds template instruction computation where
  heeds sound ready executes := by
    obtain ⟨frame, found, -, fetched⟩ := executes.innermost
    exact (serves frame fetched).serves sound ready found

/-- A super call only binds the `this` of the frame that makes it. -/
theorem serves_concludeSuper
    {destination first : Register}
    (fetched : frame.HasFetched (.superCall destination first count))
    (active : ObjectId)
    (this : Value) :
    Serves frame (concludeSuper frame.scope active this : Exec σ Value) where
  serves {env start} sound ready found := by
    have bound : start.Leads ⟨start.origins, { start.machine with
        cells := (start.machine.cells.bindThis frame.scope this).2 }⟩ :=
      .single (.bindThis _ _ frame destination first count this found fetched)
    refine .bind (fun _ stage => start.SameCalls stage)
      (.change _ start.origins bound (.beside rfl rfl rfl)) ?_ fun _ _ _ same => same
    intro answer stage leads same
    have concluded : Balanced (do
        if !answer then
          raise (.referenceError "Super constructor may only be called once")
        runFieldInitializer active this
        return this : Exec σ Value) := inferInstance
    exact (concluded.balancedIn env sound stage (ready.later leads same)).mono
      fun _ _ _ further => same.trans further

theorem heeds_superCall
    {destination first : Register}
    (arguments : List Value) :
    Heeds template (.superCall destination first count) (superCall arguments : Exec σ Value) := by
  refine .of_serves fun frame fetched => ⟨fun {env start} sound ready found => ?_⟩
  cases running : frame.scope.function with
  | none =>
      have refused : superCall arguments env start.machine =
          (raise superUnexpected : Exec σ Value) env start.machine := by
        unfold superCall
        rw [bind_of_ok _ (currentScope_of_top found), running]
      rw [refused]
      exact .raise _ (.refl start)
  | some active =>
      rw [superCall_of_top found running]
      have constructs : ∀ parent, Serves frame (do
          let this <- perform (.construct parent arguments frame.scope.newTarget)
          concludeSuper frame.scope active this : Exec σ Value) := fun parent =>
        .bindBalanced fun this => serves_concludeSuper fetched active this
      have serves : Serves frame (do
          let parent <- parentOf active
          if !(<- ask fun machine => machine.isConstructor parent) then
            typeError fun machine =>
              "Super constructor " ++ machine.display parent ++
                " of anonymous class is not a constructor"
          let this <- perform (.construct parent arguments frame.scope.newTarget)
          concludeSuper frame.scope active this : Exec σ Value) := by
        refine .bindBalanced fun parent => .bindBalanced fun allowed => ?_
        split
        · exact .bindBalanced fun _ => constructs parent
        · exact constructs parent
      exact serves.serves sound ready found

section

variable {template : Template} {instruction : Instruction}

/-- Calling a function keeps the run going, with a new frame or with the result. -/
theorem carries_callInto
    {destination : Register}
    (callee receiver : Value)
    (arguments : List Value)
    (among : (destination, 1) ∈ instruction.registers) :
    Carries template instruction
      (callInto destination callee receiver arguments : Exec σ Unit) := by
  refine ⟨fun {env below home depth start} sound inRun executes => ?_⟩
  unfold callInto
  rw [ask_bind]
  cases found : start.machine.inlineCallee? callee with
  | some closure =>
      refine .checkCallDepth _ inRun.running fun room => ?_
      have contains := executes.contains
      obtain ⟨top, standing, code, -⟩ := executes.innermost
      obtain ⟨stands, plain⟩ := Machine.kind?_of_inlineCallee? found
      subst code
      refine traced_pushCall closure receiver arguments inRun
        (inRun.coherent.objects _ _ stands) plain room
        (.caller top instruction destination standing contains among) fun impossible => ?_
      cases impossible
  | none =>
      have writes : Heeds template instruction
          (call callee receiver arguments >>= fun answer =>
            write destination answer : Exec σ Unit) :=
        .bind inferInstance fun answer => heeds_write answer among
      exact writes.stays.carries.carries sound inRun executes

theorem Heeds.carries
    {computation : Exec σ α}
    (heeds : Heeds template instruction computation) :
    Carries template instruction computation :=
  heeds.stays.carries

theorem carries_jumpIf
    {condition : Register}
    {target : Nat}
    (decides : Value -> Bool)
    (among : (condition, 1) ∈ instruction.registers)
    (reached : target ∈ instruction.targets) :
    Carries template instruction
      (do if decides (<- read condition) then jump target : Exec σ Unit) := by
  refine Heeds.bindCarries (heeds_read among) fun value => ?_
  split
  · exact carries_jump target reached
  · exact Heeds.carries inferInstance

/-- Acting on an instruction of the innermost frame keeps the run going. Every register
that is read or written on the way is among the blocks that the instruction names. -/
theorem carries_act (template : Template) (instruction : Instruction) :
    Carries template instruction (act template instruction : Exec σ Unit) := by
  cases instruction with
  | nop | «return» _ | tailCall _ _ _ _ | endFinally | initialYield | yield _ _
  | yieldStar _ _ | await _ _ =>
      exact Heeds.carries (heeds_balanced (pure ()))
  | loadConst d index =>
      refine Heeds.carries (.bind (heeds_constantOperand ⟨d, rfl⟩) fun value => ?_)
      exact heeds_write value (.head _)
  | loadInt | loadUndefined | loadNull | loadBool | loadHole =>
      exact Heeds.carries (heeds_write _ (.head _))
  | move d source =>
      refine Heeds.carries (.bind (heeds_read (.tail _ (.head _))) fun value => ?_)
      exact heeds_write value (.head _)
  | unary operator d source =>
      refine Heeds.carries (.bind (heeds_read (.tail _ (.head _))) fun value => ?_)
      exact .bind inferInstance fun result => heeds_write result (.head _)
  | binary operator d left right =>
      refine Heeds.carries (.bind (heeds_read (.tail _ (.head _))) fun leftValue => ?_)
      refine .bind (heeds_read (.tail _ (.tail _ (.head _)))) fun rightValue => ?_
      exact .bind inferInstance fun result => heeds_write result (.head _)
  | jump target => exact carries_jump target (.head _)
  | jumpIfTrue condition target =>
      exact carries_jumpIf Value.isTruthy (.head _) (.head _)
  | jumpIfFalse condition target =>
      exact carries_jumpIf (fun value => !value.isTruthy) (.head _) (.head _)
  | jumpIfNullish condition target =>
      exact carries_jumpIf Value.isNullish (.head _) (.head _)
  | jumpIfUndefined condition target =>
      exact carries_jumpIf Value.isUndefined (.head _) (.head _)
  | jumpIfNotUndefined condition target =>
      exact carries_jumpIf (fun value => !value.isUndefined) (.head _) (.head _)
  | jumpIfDone result target =>
      refine Heeds.bindCarries (heeds_read (.head _)) fun value => ?_
      refine Heeds.bindCarries inferInstance fun done => ?_
      split
      · exact carries_jump target (.head _)
      · exact Heeds.carries inferInstance
  | getGlobal d index =>
      refine Heeds.carries (heeds_nameOperand (.head _) fun name _ => ?_)
      refine .bind inferInstance fun present => ?_
      have reads : Heeds template (.getGlobal d index) (do
          write d (<- readGlobal name) : Exec σ Unit) :=
        .bind inferInstance fun value => heeds_write value (.head _)
      dsimp only
      split
      · exact heeds_balanced (raise _)
      · exact reads
  | getGlobalOrUndefined d name =>
      refine Heeds.carries (heeds_nameOperand (.head _) fun name _ => ?_)
      exact .bind inferInstance fun value => heeds_write value (.head _)
  | setGlobal name source =>
      refine Heeds.carries (heeds_nameOperand (.head _) fun name _ => ?_)
      exact heeds_assignGlobal name template.isStrict (.head _)
  | defineGlobal name source =>
      refine Heeds.carries (heeds_nameOperand (.head _) fun name _ => ?_)
      exact .bind (heeds_read (.head _)) fun value => inferInstance
  | getUpvalue d index =>
      refine Heeds.carries (.bind inferInstance fun id => ?_)
      exact .bind inferInstance fun value => heeds_write value (.head _)
  | setUpvalue index source =>
      refine Heeds.carries (.bind (heeds_read (.head _)) fun value => ?_)
      infer_instance
  | closeUpvalues first => exact (stays_detachFrom first).carries
  | checkHole source name =>
      refine Heeds.carries (.bind (heeds_read (.head _)) fun value => ?_)
      split
      · exact heeds_nameOperand (.head _) fun name _ => heeds_balanced (raise _)
      · infer_instance
  | «throwError» kind message =>
      refine Heeds.carries (heeds_nameOperand (.head _) fun name _ => ?_)
      exact heeds_balanced (raise _)
  | createObject d =>
      exact Heeds.carries (.bind inferInstance fun id => heeds_write _ (.head _))
  | createArray d start count =>
      refine Heeds.carries (.bind (heeds_readRange fun _ member => .tail _ member)
        fun values => ?_)
      exact .bind inferInstance fun array => heeds_write array (.head _)
  | arrayPush array value =>
      refine Heeds.carries (.bind (heeds_readObject (.head _)) fun id => ?_)
      exact .bind (heeds_read (.tail _ (.head _))) fun value => inferInstance
  | spreadIntoArray array iterable =>
      refine Heeds.carries (.bind (heeds_readObject (.head _)) fun id => ?_)
      exact .bind (heeds_read (.tail _ (.head _))) fun iterable => inferInstance
  | getNamed d object name slot =>
      refine Heeds.carries (heeds_nameOperand (.head _) fun text constant => ?_)
      refine .bind (heeds_use (Or.inl ⟨d, object, name, rfl⟩)) fun _ => ?_
      refine .bind (heeds_read (.tail _ (.head _))) fun target => ?_
      refine .bind (.of_contains fun contains => ?_) fun value => heeds_write value (.head _)
      exact heeds_getNamed target text slot ⟨name, constant, Or.inl ⟨d, object, contains⟩⟩
  | setNamed object name value slot =>
      refine Heeds.carries (heeds_nameOperand (.head _) fun text constant => ?_)
      refine .bind (heeds_use (Or.inr ⟨object, name, value, rfl⟩)) fun _ => ?_
      refine .bind (heeds_read (.head _)) fun target => ?_
      refine .bind (heeds_read (.tail _ (.head _))) fun written => ?_
      refine .of_contains fun contains => ?_
      exact heeds_setNamed target text written slot
        ⟨name, constant, Or.inr ⟨object, value, contains⟩⟩
  | getIndexed d object key =>
      refine Heeds.carries (.bind (heeds_read (.tail _ (.head _))) fun target => ?_)
      refine .bind (heeds_read (.tail _ (.tail _ (.head _)))) fun key => ?_
      exact .bind inferInstance fun value => heeds_write value (.head _)
  | setIndexed object key value =>
      refine Heeds.carries (.bind (heeds_read (.head _)) fun target => ?_)
      refine .bind (heeds_read (.tail _ (.head _))) fun key => ?_
      exact heeds_setIndexed target key template.isStrict (.tail _ (.tail _ (.head _)))
  | deleteNamed d object name =>
      refine Heeds.carries (heeds_nameOperand (.head _) fun name _ => ?_)
      refine .bind (heeds_read (.tail _ (.head _))) fun target => ?_
      exact .bind inferInstance fun deleted => heeds_write _ (.head _)
  | deleteIndexed d object key =>
      refine Heeds.carries (.bind (heeds_read (.tail _ (.head _))) fun target => ?_)
      refine .bind (heeds_readKey (.tail _ (.tail _ (.head _)))) fun key => ?_
      exact .bind inferInstance fun deleted => heeds_write _ (.head _)
  | defineField object key value =>
      refine Heeds.carries (.bind (heeds_readObject (.head _)) fun id => ?_)
      refine .bind (heeds_readKey (.tail _ (.head _))) fun key => ?_
      exact .bind (heeds_read (.tail _ (.tail _ (.head _)))) fun value => inferInstance
  | defineAccessor object key getter setter =>
      refine Heeds.carries (.bind (heeds_readObject (.head _)) fun id => ?_)
      refine .bind (heeds_readKey (.tail _ (.head _))) fun key => ?_
      refine .bind (heeds_read (.tail _ (.tail _ (.head _)))) fun getter => ?_
      exact .bind (heeds_read (.tail _ (.tail _ (.tail _ (.head _))))) fun setter =>
        inferInstance
  | copyDataProperties d source =>
      refine Heeds.carries (.bind (heeds_readObject (.head _)) fun id => ?_)
      exact .bind (heeds_read (.tail _ (.head _))) fun source => inferInstance
  | enumerateKeys d object =>
      refine Heeds.carries (.bind (heeds_read (.tail _ (.head _))) fun target => ?_)
      refine .bind inferInstance fun keys => ?_
      exact .bind inferInstance fun array => heeds_write array (.head _)
  | createClosure d function =>
      refine Stays.carries (Stays.bindHeeds (stays_createClosure ⟨d, rfl⟩) fun closure => ?_)
      exact heeds_write closure (.head _)
  | call d callee receiver arguments count =>
      refine Heeds.bindCarries (heeds_read (.tail _ (.head _))) fun callee => ?_
      refine Heeds.bindCarries (heeds_read (.tail _ (.tail _ (.head _)))) fun receiver => ?_
      refine Heeds.bindCarries
        (heeds_readRange fun _ member => .tail _ (.tail _ (.tail _ member)))
        fun arguments => ?_
      exact carries_callInto callee receiver arguments (.head _)
  | callSpread d callee receiver arguments =>
      refine Heeds.bindCarries (heeds_read (.tail _ (.head _))) fun callee => ?_
      refine Heeds.bindCarries (heeds_read (.tail _ (.tail _ (.head _)))) fun receiver => ?_
      refine Heeds.bindCarries (heeds_read (.tail _ (.tail _ (.tail _ (.head _)))))
        fun array => ?_
      refine Heeds.bindCarries inferInstance fun arguments => ?_
      exact carries_callInto callee receiver arguments (.head _)
  | construct d callee arguments count =>
      refine Heeds.carries (.bind (heeds_read (.tail _ (.head _))) fun callee => ?_)
      refine .bind (heeds_readRange fun _ member => .tail _ (.tail _ member))
        fun arguments => ?_
      exact .bind inferInstance fun value => heeds_write value (.head _)
  | constructSpread d callee arguments =>
      refine Heeds.carries (.bind (heeds_read (.tail _ (.head _))) fun callee => ?_)
      refine .bind (heeds_read (.tail _ (.tail _ (.head _)))) fun array => ?_
      refine .bind inferInstance fun arguments => ?_
      exact .bind inferInstance fun value => heeds_write value (.head _)
  | loadThis d =>
      exact Heeds.carries (.bind inferInstance fun this => heeds_write this (.head _))
  | loadArguments d =>
      refine Stays.carries (Stays.bindHeeds stays_argumentsObject fun value => ?_)
      exact heeds_write value (.head _)
  | loadNewTarget d =>
      exact Heeds.carries (.bind inferInstance fun scope => heeds_write _ (.head _))
  | loadCallee d =>
      refine Heeds.carries (.bind inferInstance fun frame => ?_)
      split
      · exact heeds_write _ (.head _)
      · exact heeds_write _ (.head _)
  | createClass constructor heritage =>
      have parent : Heeds template (.createClass constructor heritage)
          (heritage.mapM fun register => read register : Exec σ (Option Value)) := by
        cases heritage with
        | none => exact heeds_balanced (pure none)
        | some register =>
            rw [Option.mapM_some, map_eq_pure_bind]
            exact .bind (heeds_read (.tail _ (.head _))) fun value => inferInstance
      refine Heeds.carries (parent.bind fun heritage => ?_)
      exact .bind (heeds_read (.head _)) fun value => inferInstance
  | defineMethod target key method kind =>
      refine Heeds.carries (.bind (heeds_readObject (.head _)) fun id => ?_)
      refine .bind (heeds_readKey (.tail _ (.head _))) fun key => ?_
      exact .bind (heeds_read (.tail _ (.tail _ (.head _)))) fun method => inferInstance
  | setFieldInitializer constructor initializer =>
      refine Heeds.carries (.bind (heeds_readObject (.head _)) fun id => ?_)
      exact .bind (heeds_readObject (.tail _ (.head _))) fun initializer => inferInstance
  | superCall d arguments count =>
      refine Heeds.carries (.bind (heeds_readRange fun _ member => .tail _ member)
        fun arguments => ?_)
      exact .bind (heeds_superCall arguments) fun value => heeds_write value (.head _)
  | superGet d key =>
      refine Heeds.carries (.bind (heeds_readKey (.tail _ (.head _))) fun key => ?_)
      exact .bind inferInstance fun value => heeds_write value (.head _)
  | throw value =>
      exact Heeds.carries (.bind (heeds_read (.head _)) fun value => inferInstance)
  | enterTry catchTarget finallyTarget =>
      exact carries_turn _ fun frame fetched => .enterTry frame catchTarget finallyTarget fetched
  | exitTry => exact carries_turn _ fun frame _ => .exitTry frame
  | getException d =>
      exact Heeds.carries (.bind inferInstance fun frame => heeds_write _ (.head _))
  | gotoFinally target =>
      exact carries_turn _ fun frame fetched => .gotoFinally frame target fetched
  | leave target depth =>
      exact carries_turn _ fun frame fetched => .leave frame target depth fetched
  | getIterator d iterable =>
      refine Heeds.carries (.bind (heeds_read (.tail _ (.head _))) fun iterable => ?_)
      exact .bind inferInstance fun iterator => heeds_write iterator (.head _)
  | iteratorNext d iterator =>
      refine Heeds.carries (.bind (heeds_read (.tail _ (.head _))) fun iterator => ?_)
      exact .bind inferInstance fun result => heeds_write result (.head _)
  | iteratorValue d result =>
      refine Heeds.carries (.bind (heeds_read (.tail _ (.head _))) fun result => ?_)
      exact .bind inferInstance fun value => heeds_write value (.head _)
  | iteratorClose iterator =>
      exact Heeds.carries (.bind (heeds_read (.head _)) fun iterator => inferInstance)

end

end Exec
end ScriptVM

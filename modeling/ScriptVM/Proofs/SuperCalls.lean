import ScriptVM.Proofs.FinallyBodies
import ScriptVM.Proofs.ThisScopes

/-!
# Super calls

A derived constructor and the arrow functions in it share a scope. Each super call in that scope
constructs the parent with the `new.target` of the scope and then binds `this`. The first one
that gets so far succeeds, and before it gives its answer the field initializer of the class runs
on the new object. Whatever comes later finds `this` bound.
-/

namespace ScriptVM

variable {σ α : Type}

/-! ## Runs -/

/-- Each `this` that is known where a run begins is the same wherever the run shows the machine,
and however it ends. -/
def Machine.KeepsEachThis (machine : Machine σ) :
    EStateM.Result (Stop σ) (Machine σ) α -> Prop
  | .ok _ after | .error (.thrown _) after => machine.cells.KeepsThis after.cells
  | .error (.interrupted sight) _ => machine.cells.KeepsThis sight.machine.cells
  | .error .outOfFuel _ => True

theorem Exec.Traced.keepsEachThis
    {machine : Machine σ}
    {after : Except Exception α -> Stage σ -> Prop}
    {result : EStateM.Result (Stop σ) (Machine σ) α}
    (traced : Traced ⟨Origins.all, machine⟩ after result) :
    machine.KeepsEachThis result := by
  cases result with
  | ok answer later =>
      obtain ⟨origins, leads, _⟩ := traced
      exact leads.keepsThis
  | error stop later =>
      cases stop with
      | thrown exception =>
          obtain ⟨origins, leads, _⟩ := traced
          exact leads.keepsThis
      | outOfFuel => trivial
      | interrupted sight =>
          obtain ⟨_, shows⟩ := traced
          cases shows with
          | reached origins leads => exact leads.keepsThis
          | freed id impossible => exact impossible.elim

theorem Exec.Balanced.keepsEachThis
    (computation : Exec σ α)
    [Balanced computation]
    {env : Env σ}
    (sound : env.Balanced)
    (machine : Machine σ) :
    machine.KeepsEachThis (computation env machine) :=
  Traced.keepsEachThis (Balanced.traced computation sound (machine.ready_all env.watch))

/-! ## Histories -/

/-- A frame or an arrow function of the machine refers to the scope. -/
inductive Scope.InUse (scope : Scope) (machine : Machine σ) : Prop
  | frame (frame : Frame) :
      machine.Holds frame -> frame.scope = scope -> InUse scope machine
  | arrow (id : ObjectId) (closure : Closure) :
      machine.kind? id = some (.function closure) -> closure.lexicalScope = some scope ->
      InUse scope machine

/-- What the machines of a trail, the latest first, know of the `this` of a scope: nothing at
all, or from one super call on always the same. -/
inductive Scope.BoundOnce (scope : Scope) (machines : List (Machine σ)) : Prop
  | never :
      (∀ machine ∈ machines, machine.cells.this? scope = none) -> BoundOnce scope machines
  | once (cell : ThisCellId) (this : Value) (later earlier : List (Machine σ))
      (before after : Machine σ) :
      scope.this = .pending cell -> machines = later ++ after :: before :: earlier ->
      before.BindsThis cell this after ->
      (∀ machine ∈ later ++ [after], machine.cells.this? scope = some this) ->
      (∀ machine ∈ before :: earlier, machine.cells.this? scope = none) ->
      BoundOnce scope machines

namespace Stage

variable {stage : Stage σ} {machines : List (Machine σ)} {scope : Scope}

theorem Coherent.places (coherent : stage.Coherent) (inUse : scope.InUse stage.machine) :
    stage.origins.Places scope := by
  cases inUse with
  | frame frame held same => exact same ▸ (coherent.admits_held held).placed
  | arrow id closure present kept => exact (coherent.objects id _ present).lexical scope kept

namespace Trail

/-- The scopes that were in use on the way came up. -/
theorem places
    (trail : stage.Trail machines)
    {seen : Machine σ}
    (member : seen ∈ machines)
    (inUse : scope.InUse seen) :
    stage.origins.Places scope := by
  induction trail with
  | start intrinsics config world =>
      rw [List.mem_singleton.1 member] at inUse
      exact (blank_coherent intrinsics config world).places inUse
  | step earlier transition came =>
      rcases List.mem_cons.1 member with rfl | old
      · exact (transition.coherent earlier.coherent).places inUse
      · exact transition.keeps.origins.places (came old)

theorem cellsApart (trail : stage.Trail machines) : stage.CellsApart := by
  induction trail with
  | start intrinsics config world => exact cellsApart_blank intrinsics config world
  | step _ transition apart => exact apart.rebinds transition.rebinds

/-- A scope that began without a `this` gets it once. -/
theorem boundOnce
    (trail : stage.Trail machines)
    {cell : ThisCellId}
    (pending : scope.this = .pending cell) :
    scope.BoundOnce machines := by
  induction trail with
  | start =>
      refine .never fun machine member => ?_
      rw [List.mem_singleton.1 member, Cells.this?_of_pending pending]
      rfl
  | @step before after machines earlier transition bound =>
      obtain ⟨old, rfl⟩ := earlier.exists_cons
      have rebinds := transition.rebinds
      cases bound with
      | never unbound =>
          cases known : after.machine.cells.this? scope with
          | none =>
              refine .never fun machine member => ?_
              rcases List.mem_cons.1 member with rfl | member
              · exact known
              · exact unbound machine member
          | some this =>
              refine .once cell this [] old _ _ pending rfl
                (rebinds.bindsThis pending (unbound _ (.head _)) known) ?_ unbound
              intro machine member
              rw [List.mem_singleton.1 member]
              exact known
      | once place this later past first second refers split binds known unbound =>
          have head : before.machine.cells.this? scope = some this := by
            refine known _ ?_
            cases later with
            | nil => exact (List.cons.inj split).1 ▸ .head _
            | cons latest rest => exact (List.cons.inj split).1 ▸ .head _
          refine .once place this (after.machine :: later) past first second refers
            (congrArg (after.machine :: ·) split) binds (fun machine member => ?_) unbound
          rcases List.mem_cons.1 member with rfl | member
          · exact rebinds.keepsThis.this? head
          · exact known machine member

end Trail
end Stage

/-! ## Super calls -/

/-- What a constructor that is to construct its parent gets from it. -/
def Exec.ConstructsParent
    (env : Env σ)
    (scope : Scope)
    (active : ObjectId)
    (arguments : List Value)
    (machine : Machine σ)
    (result : EStateM.Result (Stop σ) (Machine σ) Value) : Prop :=
  ∃ parent before, parentOf active env machine = .ok parent before ∧
    before.isConstructor parent = true ∧
    perform (.construct parent arguments scope.newTarget) env before = result

/-- What becomes of a super call that has bound `this`: the field initializer of the class, if
there is one, is called once on the new object, and only then the super call gives its answer. -/
inductive Exec.Initializes
    (env : Env σ)
    (scope : Scope)
    (active : ObjectId)
    (this : Value)
    (bound : Machine σ) : EStateM.Result (Stop σ) (Machine σ) Value -> Prop
  | plain :
      (bound.closure? active).bind Closure.fieldInitializer = none ->
      Initializes env scope active this bound (.ok this bound)
  | initialized (initializer : ObjectId) (answer : Value) (after : Machine σ) :
      (bound.closure? active).bind Closure.fieldInitializer = some initializer ->
      perform (.call (.function initializer) this []) env bound = .ok answer after ->
      after.cells.this? scope = some this ->
      Initializes env scope active this bound (.ok this after)
  | stopped (initializer : ObjectId) (stop : Stop σ) (after : Machine σ) :
      (bound.closure? active).bind Closure.fieldInitializer = some initializer ->
      perform (.call (.function initializer) this []) env bound = .error stop after ->
      Initializes env scope active this bound (.error stop after)

/-- How a super call ends in the scope of a constructor. -/
inductive Exec.SuperEnds
    (env : Env σ)
    (scope : Scope)
    (active : ObjectId)
    (arguments : List Value)
    (machine : Machine σ) : EStateM.Result (Stop σ) (Machine σ) Value -> Prop
  /-- The parent cannot be told. -/
  | orphan (stop : Stop σ) (before : Machine σ) :
      parentOf active env machine = .error stop before ->
      SuperEnds env scope active arguments machine (.error stop before)
  /-- The parent is no constructor. -/
  | refused (parent : Value) (before : Machine σ) :
      parentOf active env machine = .ok parent before -> before.isConstructor parent = false ->
      SuperEnds env scope active arguments machine
        (.error (.thrown (.typeError ("Super constructor " ++ before.display parent ++
          " of anonymous class is not a constructor"))) before)
  /-- The parent gives no object. -/
  | failed (stop : Stop σ) (after : Machine σ) :
      ConstructsParent env scope active arguments machine (.error stop after) ->
      SuperEnds env scope active arguments machine (.error stop after)
  /-- The parent gives an object, but `this` is bound. -/
  | again (this known : Value) (constructed : Machine σ) :
      ConstructsParent env scope active arguments machine (.ok this constructed) ->
      constructed.cells.this? scope = some known ->
      SuperEnds env scope active arguments machine
        (.error (.thrown (.referenceError "Super constructor may only be called once"))
          constructed)
  /-- The parent gives the object that becomes `this`. -/
  | binds (this : Value) (constructed : Machine σ)
      (result : EStateM.Result (Stop σ) (Machine σ) Value) :
      ConstructsParent env scope active arguments machine (.ok this constructed) ->
      constructed.cells.this? scope = none ->
      (constructed.cells.bindThis scope this).2.this? scope = some this ->
      Initializes env scope active this
        { constructed with cells := (constructed.cells.bindThis scope this).2 } result ->
      SuperEnds env scope active arguments machine result

namespace Exec

variable {env : Env σ} {machine : Machine σ} {frame : Frame} {scope : Scope} {active : ObjectId}
variable {this : Value}

/-- Binding `this` leads to the field initializer, which keeps it. -/
theorem initializes_runFieldInitializer
    (sound : env.Balanced)
    (bound : machine.cells.this? scope = some this) :
    Initializes env scope active this machine
      ((do
        runFieldInitializer active this
        return this : Exec σ Value) env machine) := by
  unfold runFieldInitializer
  rw [bind_assoc, ask_bind]
  cases found : (machine.closure? active).bind Closure.fieldInitializer with
  | none => exact .plain found
  | some initializer =>
      dsimp only
      have keeps := Balanced.keepsEachThis
        (call (.function initializer) this [] : Exec σ Value) sound machine
      cases ran : (call (.function initializer) this [] : Exec σ Value) env machine with
      | ok answer after =>
          rw [bind_assoc, bind_of_ok _ ran]
          rw [ran] at keeps
          exact .initialized initializer answer after found ran (keeps.this? bound)
      | error stop after =>
          rw [bind_assoc, bind_of_error _ ran]
          exact .stopped initializer stop after found ran

/-- What a super call does with what it constructed depends on whether `this` is known. -/
theorem superEnds_concludeSuper
    (unwatched : ∀ seen, env.watch seen = false)
    (sound : env.Balanced)
    {arguments : List Value}
    {constructed : Machine σ}
    (placed : ∀ cell, scope.this = .pending cell ->
      cell.index < constructed.cells.thisCells.size)
    (constructs : ConstructsParent env scope active arguments machine (.ok this constructed)) :
    SuperEnds env scope active arguments machine
      (concludeSuper scope active this env constructed) := by
  have changed := change_of_unwatched unwatched (fun machine : Machine σ =>
    ((machine.cells.bindThis scope this).1,
      { machine with cells := (machine.cells.bindThis scope this).2 })) constructed
  unfold concludeSuper
  cases known : constructed.cells.this? scope with
  | some value =>
      dsimp only at changed
      rw [Cells.bindThis_of_known known] at changed
      rw [bind_of_ok _ changed]
      exact .again this value constructed constructs known
  | none =>
      obtain ⟨taken, bound⟩ := Cells.this?_bindThis known placed this
      dsimp only at changed
      rw [taken] at changed
      rw [bind_of_ok _ changed]
      exact .binds this constructed _ constructs known bound
        (initializes_runFieldInitializer sound bound)

/-- How a super call of the innermost frame ends. -/
theorem superEnds_superCall
    (unwatched : ∀ seen, env.watch seen = false)
    (sound : env.Balanced)
    (found : machine.top? = some frame)
    (running : frame.scope.function = some active)
    (placed : ∀ cell, frame.scope.this = .pending cell ->
      cell.index < machine.cells.thisCells.size)
    (arguments : List Value) :
    SuperEnds env frame.scope active arguments machine (superCall arguments env machine) := by
  rw [superCall_of_top found running]
  have keeps := Balanced.keepsEachThis (parentOf active : Exec σ Value) sound machine
  cases first : parentOf active env machine with
  | error stop before =>
      rw [bind_of_error _ first]
      exact .orphan stop before first
  | ok parent before =>
      rw [bind_of_ok _ first, ask_bind]
      rw [first] at keeps
      cases constructs : before.isConstructor parent with
      | false => exact .refused parent before first constructs
      | true =>
          have further := Balanced.keepsEachThis
            (perform (.construct parent arguments frame.scope.newTarget) : Exec σ Value)
            sound before
          show SuperEnds env frame.scope active arguments machine
            ((perform (.construct parent arguments frame.scope.newTarget) >>= fun this =>
              concludeSuper frame.scope active this : Exec σ Value) env before)
          cases second : perform (.construct parent arguments frame.scope.newTarget) env before with
          | error stop after =>
              rw [bind_of_error _ second]
              exact .failed stop after ⟨parent, before, first, constructs, second⟩
          | ok this constructed =>
              rw [bind_of_ok _ second]
              rw [second] at further
              refine superEnds_concludeSuper unwatched sound (fun cell pending => ?_)
                ⟨parent, before, first, constructs, second⟩
              exact Nat.lt_of_lt_of_le (placed cell pending)
                (Nat.le_trans keeps.size further.size)

/-! ## Reading `this` -/

/-- Neither `this` nor a property of the parent is read before `this` is known. -/
theorem currentThis_of_unbound
    (found : machine.top? = some frame)
    (unbound : machine.cells.this? frame.scope = none) :
    currentThis env machine = .error (.thrown .thisBeforeSuper) machine := by
  unfold currentThis
  rw [bind_of_ok _ (currentScope_of_top found), ask_bind, unbound]
  rfl

theorem superGet_of_unbound
    (found : machine.top? = some frame)
    (unbound : machine.cells.this? frame.scope = none)
    (key : PropertyKey) :
    superGet key env machine = .error (.thrown
      (if frame.scope.homeObject.isSome then .thisBeforeSuper else superUnexpected)) machine := by
  unfold superGet
  rw [bind_of_ok _ (currentScope_of_top found)]
  cases frame.scope.homeObject with
  | none => rfl
  | some home => exact bind_of_error _ (currentThis_of_unbound found unbound)

/-- Converting the key may call a function that binds `this`, but reading the property needs
it. -/
theorem known_of_superGet
    (sound : env.Balanced)
    (found : machine.top? = some frame)
    {template : Template}
    {destination key : Register}
    (executes : machine.Executes template (.superGet destination key))
    {after : Machine σ}
    (ended : act template (.superGet destination key) env machine = .ok () after) :
    ∃ this, after.cells.this? frame.scope = some this := by
  have converts : Heeds template (.superGet destination key) (readKey key : Exec σ PropertyKey) :=
    heeds_readKey (.tail _ (.head _))
  have same := converts.heeds sound (machine.ready_all env.watch) executes
  dsimp only at same
  replace ended : (readKey key >>= fun name => superGet name >>= fun value =>
    write destination value : Exec σ Unit) env machine = .ok () after := ended
  cases read : readKey key env machine with
  | error stop converted =>
      rw [bind_of_error _ read] at ended
      cases ended
  | ok name converted =>
      rw [bind_of_ok _ read] at ended
      rw [read] at same
      obtain ⟨_, _, same⟩ := same
      have standing : converted.top? = some frame :=
        (Machine.top?_of_sameCalls same.calls).trans found
      have reads : Heeds template (.superGet destination key)
          (superGet name >>= fun value => write destination value : Exec σ Unit) :=
        .bind inferInstance fun value => heeds_write value (.head _)
      have keeps := Traced.keepsEachThis
        (reads.heeds sound (converted.ready_all env.watch) (executes.same same.calls))
      dsimp only at keeps
      rw [ended] at keeps
      cases known : converted.cells.this? frame.scope with
      | some this => exact ⟨this, keeps.this? known⟩
      | none =>
          rw [bind_of_error _ (superGet_of_unbound standing known name)] at ended
          cases ended

end Exec

/-! ## Results of constructors -/

/-- How the value that a derived constructor returns is completed. -/
inductive Cells.CompletesDerived (cells : Cells) (scope : Scope) :
    Value -> Except Exception Value -> Prop
  | object (value : Value) :
      value.isObject = true -> CompletesDerived cells scope value (.ok value)
  | this (this : Value) :
      cells.this? scope = some this -> CompletesDerived cells scope .undefined (.ok this)
  | primitive (value : Value) :
      value.isObject = false -> value ≠ .undefined ->
      CompletesDerived cells scope value
        (.error (.typeError "Derived constructors may only return object or undefined"))
  | unbound :
      cells.this? scope = none ->
      CompletesDerived cells scope .undefined (.error .thisBeforeSuper)

namespace Machine

variable {machine : Machine σ} {frame : Frame}

theorem completesDerived_constructResult
    (machine : Machine σ)
    (derived : frame.construct = .derived)
    (value : Value) :
    machine.cells.CompletesDerived frame.scope value (machine.constructResult frame value) := by
  unfold constructResult
  rw [derived]
  dsimp only
  split
  · next object => exact .object value object
  · next primitive =>
      split
      · next known =>
          refine .primitive value (Bool.not_eq_true _ ▸ primitive) ?_
          rintro rfl
          cases known
      · next unknown =>
          obtain rfl : value = .undefined := by
            cases value <;> first | rfl | exact absurd rfl unknown
          cases known : machine.cells.this? frame.scope with
          | none => exact .unbound known
          | some this => exact .this this known

theorem constructResult_popFrame (machine : Machine σ) (frame : Frame) (value : Value) :
    machine.popFrame.constructResult frame value = machine.constructResult frame value := by
  unfold constructResult
  rw [Cells.this?_congr machine.recaptures_popFrame.thisCells]

/-- A derived constructor begins with a `this` of its own that is not known. -/
theorem this?_openDerived
    (machine : Machine σ)
    (id : ObjectId)
    (closure : Closure)
    (arguments : List Value)
    (newTarget : Value) :
    (machine.openDerived id closure arguments newTarget).2.cells.this?
      (machine.derivedScope id closure newTarget) = none := by
  rw [Cells.this?_of_pending rfl]
  unfold openDerived
  rw [thisCells_openFrame]
  show ((machine.cells.thisCells.push none)[machine.cells.thisCells.size]?).join = none
  rw [Array.getElem?_push_size]
  rfl

end Machine

namespace Exec

variable {env : Env σ} {machine : Machine σ} {frame : Frame}

/-- A value that no finally body is on the way of leaves a derived constructor and ends its
run. -/
theorem advance_returnValue_of_derived
    (unwatched : ∀ seen, env.watch seen = false)
    (found : machine.top? = some frame)
    (derived : frame.construct = .derived)
    {base : Nat}
    (lowest : machine.frames.size = base + 1)
    {value : Value}
    (leaves : (frame.routeReturn value).1 = false) :
    ∃ result, machine.cells.CompletesDerived frame.scope value result ∧
      advance base (returnValue base value) env machine =
        match result with
        | .ok answer => .ok (some (.returned answer)) machine.popFrame
        | .error exception =>
            .error (.thrown (machine.popFrame.attachStack exception)) machine.popFrame := by
  have size : machine.popFrame.frames.size = base := by
    rw [Machine.size_popFrame, lowest]
    rfl
  refine ⟨_, machine.completesDerived_constructResult derived value, ?_⟩
  refine (advance_complete unwatched (.return value) machine).trans ?_
  unfold Machine.complete
  dsimp only
  rw [lowest, Machine.returnFrom_of_routed found]
  generalize frame.routeReturn value = routed at leaves ⊢
  obtain ⟨taken, left⟩ := routed
  subst leaves
  dsimp only
  rw [Machine.constructResult_popFrame]
  cases machine.constructResult frame value with
  | ok answer =>
      dsimp only
      rw [if_pos (Nat.le_of_eq size)]
      rfl
  | error exception =>
      unfold Machine.settle
      dsimp only
      rw [size, Nat.sub_self]
      rfl

/-- Constructing with a derived constructor runs a frame in a scope of its own, which passes on
the `new.target` and in which `this` is not known. If that gives an answer it is the completed
value that the frame returned. -/
structure ConstructsDerived
    (env : Env σ)
    (machine : Machine σ)
    (id : ObjectId)
    (closure : Closure)
    (arguments : List Value)
    (newTarget : Value)
    (opened : Frame × Machine σ)
    (result : EStateM.Result (Stop σ) (Machine σ) Value) : Prop where
  runs : result = runBoundaryFrame { opened.1 with construct := .derived } env opened.2
  newTarget : opened.1.scope.newTarget = newTarget
  function : opened.1.scope.function = some id
  unbound : opened.2.cells.this? opened.1.scope = none
  own : ∀ scope : Scope, scope.InUse machine -> scope.this ≠ opened.1.scope.this
  completes : ∀ answer after, result = .ok answer after ->
    ∃ returned, after.cells.CompletesDerived opened.1.scope returned (.ok answer)

theorem constructsDerived_constructValue
    (unwatched : ∀ seen, env.watch seen = false)
    (sound : env.Balanced)
    (reached : machine.Reached)
    {id : ObjectId}
    {closure : Closure}
    {callee : Value}
    (present : machine.kind? id = some (.function closure))
    (derived : closure.template.kind = .derivedConstructor)
    (refers : callee.objectId? = some id)
    (arguments : List Value)
    (newTarget : Value) :
    ConstructsDerived env machine id closure arguments newTarget
      (machine.openDerived id closure arguments newTarget)
      (constructValue callee arguments newTarget env machine) := by
  let opened := machine.openDerived id closure arguments newTarget
  have scope : opened.1.scope = machine.derivedScope id closure newTarget :=
    Machine.scope_openFrame ..
  have runs : constructValue callee arguments newTarget env machine =
      runBoundaryFrame { opened.1 with construct := .derived } env opened.2 := by
    unfold constructValue
    rw [refers]
    dsimp only
    rw [ask_bind, present]
    dsimp only
    rw [derived]
    exact bind_of_ok _ (change_of_unwatched unwatched
      (fun machine : Machine σ => machine.openDerived id closure arguments newTarget) machine)
  refine ⟨runs, congrArg Scope.newTarget scope, congrArg Scope.function scope, ?_, ?_, ?_⟩
  · rw [scope]
    exact machine.this?_openDerived id closure arguments newTarget
  · intro other inUse same
    obtain ⟨machines, origins, trail⟩ := reached.exists_trail
    have pending : other.this = .pending machine.cells.addThisCell.1 :=
      same.trans (congrArg Scope.this scope)
    have came := trail.coherent.places inUse _ pending
    obtain ⟨cell, place, within⟩ := trail.cellsApart.placed other came
    cases place.symm.trans pending
    exact Nat.lt_irrefl _ within
  · intro answer after ended
    have made : Machine.Opened Origins.all closure.template id closure.upvalues .boundary
        { machine with cells := machine.cells.addThisCell.2 } opened :=
      Machine.opened_openFrame _ id closure _ arguments .boundary
    have due : ({ opened.1 with construct := .derived } : Frame).Due := by
      intro _ _
      show opened.1.template.kind.suspends = false
      rw [made.template, derived]
      rfl
    have known : Origins.all.frame { opened.1 with construct := .derived } := trivial
    have settled := completes_runBoundaryFrame sound (opened.2.ready_all env.watch) known
      made.fresh.coroutine due
    dsimp only at settled
    rw [← runs, ended] at settled
    obtain ⟨_, _, _, completed⟩ := settled
    obtain ⟨returned, completed⟩ := completed answer rfl
    have derives : ({ opened.1 with construct := .derived } : Frame).construct = .derived := rfl
    have result := after.completesDerived_constructResult derives returned
    exact ⟨returned, completed ▸ result⟩

end Exec

/-- The `this` of a derived constructor is bound at most once, in all that an embedder can come
across. On the way there each scope that began without a `this` got it from one super call and
kept it, and so it does in whatever runs next. All frames and arrow functions that refer to it
share its `new.target`. A super call constructs the parent with that, and then fails if `this` is
known by now, or else binds it and calls the field initializer before it gives an answer. Neither
`this` nor a property of the parent can be read before. A derived constructor begins with a scope
of its own, and the value that it returns in the end is completed by the rules for such
constructors. -/
theorem this_bound_once
    {sight : Sight σ}
    (visible : sight.Visible) :
    ((∃ machines, sight.machine.Trail machines) ∧
      ∀ machines, sight.machine.Trail machines ->
        (∀ (scope : Scope) (cell : ThisCellId), scope.this = .pending cell ->
          scope.BoundOnce machines) ∧
        ∀ first ∈ machines, ∀ second ∈ machines, ∀ (scope other : Scope) (cell : ThisCellId),
          scope.InUse first -> other.InUse second -> scope.this = .pending cell ->
          other.this = .pending cell -> scope = other) ∧
    (∀ (fuel : Nat) (watch : Sight σ -> Bool),
      (∀ invocation : Invocation, sight.machine.KeepsEachThis
        (Exec.perform invocation (Env.watched fuel watch) sight.machine)) ∧
      ∀ program : HostProgram σ, sight.machine.KeepsEachThis
        (Exec.runProgram program (Env.watched fuel watch) sight.machine)) ∧
    (∀ frame, sight.machine.top? = some frame -> ∀ fuel : Nat,
      (∀ (active : ObjectId) (arguments : List Value), frame.scope.function = some active ->
        Exec.SuperEnds (Env.ofFuel fuel) frame.scope active arguments sight.machine
          (Exec.superCall arguments (Env.ofFuel fuel) sight.machine)) ∧
      (sight.machine.cells.this? frame.scope = none ->
        (∀ template destination,
          Exec.act template (.loadThis destination) (Env.ofFuel fuel) sight.machine =
            .error (.thrown .thisBeforeSuper) sight.machine) ∧
        ∀ key, Exec.superGet key (Env.ofFuel fuel) sight.machine = .error (.thrown
          (if frame.scope.homeObject.isSome then .thisBeforeSuper else Exec.superUnexpected))
            sight.machine) ∧
      (∀ template destination key after,
        sight.machine.Executes template (.superGet destination key) ->
        Exec.act template (.superGet destination key) (Env.ofFuel fuel) sight.machine =
          .ok () after -> ∃ this, after.cells.this? frame.scope = some this) ∧
      (frame.construct = .derived -> ∀ (base : Nat) (value : Value),
        sight.machine.frames.size = base + 1 -> (frame.routeReturn value).1 = false ->
        ∃ result, sight.machine.cells.CompletesDerived frame.scope value result ∧
          Exec.advance base (Exec.returnValue base value) (Env.ofFuel fuel) sight.machine =
            match result with
            | .ok answer => .ok (some (.returned answer)) sight.machine.popFrame
            | .error exception =>
                .error (.thrown (sight.machine.popFrame.attachStack exception))
                  sight.machine.popFrame)) ∧
    (∀ (id : ObjectId) (closure : Closure) (callee : Value),
      sight.machine.kind? id = some (.function closure) ->
      closure.template.kind = .derivedConstructor -> callee.objectId? = some id ->
      ∀ (arguments : List Value) (newTarget : Value) (fuel : Nat),
        Exec.ConstructsDerived (Env.ofFuel fuel) sight.machine id closure arguments newTarget
          (sight.machine.openDerived id closure arguments newTarget)
          (Exec.constructValue callee arguments newTarget (Env.ofFuel fuel) sight.machine)) := by
  have reached := visible.reached.2
  have unwatched (fuel : Nat) (seen : Sight σ) : (Env.ofFuel fuel).watch seen = false := rfl
  have sound (fuel : Nat) : (Env.ofFuel fuel : Env σ).Balanced := Env.balanced_watched fuel _
  refine ⟨⟨reached.exists_trail, ?_⟩, ?_, ?_, ?_⟩
  · rintro machines ⟨origins, trail⟩
    refine ⟨fun scope cell pending => trail.boundOnce pending, ?_⟩
    intro first came second also scope other cell inUse used pending refers
    exact trail.cellsApart.distinct scope other (trail.places came inUse cell pending)
      (trail.places also used cell refers) (pending.trans refers.symm)
  · intro fuel watch
    exact ⟨fun invocation => Exec.Traced.keepsEachThis
        (Env.balanced_watched fuel watch invocation _ (sight.machine.ready_all watch)),
      fun program => Exec.Balanced.keepsEachThis (Exec.runProgram program)
        (Env.balanced_watched fuel watch) sight.machine⟩
  · intro frame found fuel
    refine ⟨fun active arguments running => ?_, fun unbound => ⟨fun template destination => ?_, ?_⟩,
      fun template destination key after executes ended => ?_,
      fun derived base value lowest leaves => ?_⟩
    · refine Exec.superEnds_superCall (unwatched fuel) (sound fuel) found running ?_ arguments
      intro cell pending
      obtain ⟨machines, origins, trail⟩ := reached.exists_trail
      have inUse : frame.scope.InUse sight.machine :=
        .frame frame (Machine.holds_top found) rfl
      obtain ⟨place, refers, within⟩ :=
        trail.cellsApart.placed _ (trail.coherent.places inUse cell pending)
      cases pending.symm.trans refers
      exact within
    · exact Exec.bind_of_error _ (Exec.currentThis_of_unbound found unbound)
    · exact Exec.superGet_of_unbound found unbound
    · exact Exec.known_of_superGet (sound fuel) found executes ended
    · exact Exec.advance_returnValue_of_derived (unwatched fuel) found derived lowest leaves
  · intro id closure callee present derived refers arguments newTarget fuel
    exact Exec.constructsDerived_constructValue (unwatched fuel) (sound fuel) reached present
      derived refers arguments newTarget

/-- A script that constructs with a class whose constructor calls that of its parent. -/
def derivedScript : Chunk where
  info := { name := "main", kind := .script }
  code := #[⟨.createClosure 0 0, none⟩, ⟨.createClass 0 none, none⟩, ⟨.createClosure 1 1, none⟩,
    ⟨.createClass 1 (some 0), none⟩, ⟨.createClosure 2 2, none⟩,
    ⟨.setFieldInitializer 1 2, none⟩, ⟨.construct 3 1 0 0, none⟩, ⟨.return 3, none⟩]
  registerCount := 4
  functions := [{
      info := { name := "Parent", kind := .classConstructor }
      code := #[⟨.loadUndefined 0, none⟩, ⟨.return 0, none⟩]
      registerCount := 1 }, {
      info := { name := "Child", kind := .derivedConstructor }
      code := #[⟨.superCall 0 0 0, none⟩, ⟨.loadUndefined 0, none⟩, ⟨.return 0, none⟩]
      registerCount := 1 }, {
      info := { name := "fields", kind := .method }
      code := #[⟨.loadUndefined 0, none⟩, ⟨.return 0, none⟩]
      registerCount := 1 }]

/-- The run of the script up to the super call. -/
def derivedRun : EStateM.Result (Stop Unit) (Machine Unit) Value :=
  Exec.runProgram (.request (.execute derivedScript) fun _ => .finish (.ok .undefined))
    (Env.watched 20 fun sight =>
      sight.machine.top?.any fun frame => frame.construct == .derived && frame.next == 1)
    (Builtins.newMachine {} ())

/-- Before the super call of the script `this` cannot be read. The call constructs the parent,
which leaves `this` unbound, and binds it before the field initializer runs. -/
theorem this_bound_once_derivedRun :
    ∃ sight ∈ Sight.ofRun? derivedRun, ∃ frame ∈ sight.machine.top?, ∃ active : ObjectId,
      frame.construct = .derived ∧ frame.scope.function = some active ∧
      Exec.act frame.template (.loadThis 0) (Env.ofFuel 10) sight.machine =
        .error (.thrown .thisBeforeSuper) sight.machine ∧
      ∃ this constructed after,
        Exec.superCall [] (Env.ofFuel 10) sight.machine = .ok this after ∧
        Exec.ConstructsParent (Env.ofFuel 10) frame.scope active [] sight.machine
          (.ok this constructed) ∧
        constructed.cells.this? frame.scope = none ∧
        Exec.Initializes (Env.ofFuel 10) frame.scope active this
          { constructed with cells := (constructed.cells.bindThis frame.scope this).2 }
          (.ok this after) := by
  have seen : ∃ sight ∈ Sight.ofRun? derivedRun, ∃ frame ∈ sight.machine.top?,
      ∃ active ∈ frame.scope.function, frame.construct = .derived ∧
        sight.machine.cells.this? frame.scope = none ∧
        (Exec.ended? (Exec.superCall [] (Env.ofFuel 10) sight.machine)).isSome = true := by
    decide +kernel
  obtain ⟨sight, interrupted, frame, standing, active, running, derived, unbound, ends⟩ := seen
  obtain ⟨⟨this, after⟩, ended⟩ := Option.isSome_iff_exists.1 ends
  have called := Exec.eq_of_ended? ended
  obtain ⟨_, _, rules, _⟩ := this_bound_once (Sight.visible_of_ofRun? interrupted)
  obtain ⟨supers, reads, _⟩ := rules frame standing 10
  have conducts := supers active [] running
  rw [called] at conducts
  refine ⟨sight, interrupted, frame, standing, active, derived, running,
    (reads unbound).1 frame.template 0, ?_⟩
  cases conducts with
  | binds object constructed _ constructs unknown bound initializes =>
      obtain rfl : object = this := by
        cases initializes <;> rfl
      exact ⟨object, constructed, after, called, constructs, unknown, initializes⟩

end ScriptVM

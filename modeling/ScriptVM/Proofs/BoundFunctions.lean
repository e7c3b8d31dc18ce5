import Mathlib.Data.Fintype.Card
import ScriptVM.Proofs.DepthBlindness.Runs
import ScriptVM.Proofs.Reachable

/-!
# Bound functions

A function can be bound again and again. What a chain of bound functions does in the end is
what the function at its origin does: with the receiver that was bound first, and with all
leading arguments in the order in which they were bound.

On the way there is one native call for each link. So the two runs go on at different native
depths, which makes no difference unless the limit is reached.
-/

namespace ScriptVM

variable {σ α β : Type} {before after : Machine σ} {env : Env σ} {answer : β} {fuel : Nat}
variable {watch : Sight σ -> Bool}

/-! ## Chains -/

namespace Machine

/-- A function was made by binding another one. -/
def IsBinding
    (machine : Machine σ)
    (bound target receiver : Value)
    (leading : List Value) : Prop :=
  ∃ id, bound = .function id ∧ machine.kind? id = some (.bound target receiver leading)

/-- Functions of which each one was made by binding the next one, and the last one by binding
the origin. The receiver is the one that was bound first; the arguments are all leading ones
in the order in which they were bound. -/
inductive Binds (machine : Machine σ) (origin receiver : Value) :
    List Value -> List Value -> Prop
  | once {bound : Value} {leading : List Value} :
      machine.IsBinding bound origin receiver leading ->
      Binds machine origin receiver [bound] leading
  | again {bound target ignored : Value} {leading rest arguments : List Value} :
      machine.IsBinding bound target ignored leading ->
      Binds machine origin receiver (target :: rest) arguments ->
      Binds machine origin receiver (bound :: target :: rest) (arguments ++ leading)

instance decidableIsBinding
    (machine : Machine σ)
    (bound target receiver : Value)
    (leading : List Value) :
    Decidable (machine.IsBinding bound target receiver leading) :=
  decidable_of_iff
    (bound.isCallable = true ∧ (machine.kindOf? bound).any fun kind =>
      match kind with
      | .bound inner first others =>
          decide (inner = target ∧ first = receiver ∧ others = leading)
      | _ => false) <| by
    constructor
    · rintro ⟨callable, present⟩
      obtain ⟨kind, found, same⟩ := (Option.any_eq_true ..).1 present
      cases bound with
      | function id =>
          cases kind with
          | bound =>
              obtain ⟨rfl, rfl, rfl⟩ := of_decide_eq_true same
              exact ⟨id, rfl, found⟩
          | _ => cases same
      | _ => cases callable
    · rintro ⟨id, rfl, present⟩
      exact ⟨rfl, (Option.any_eq_true ..).2 ⟨_, present, decide_eq_true ⟨rfl, rfl, rfl⟩⟩⟩

end Machine

/-! ## Binding -/

/-- A sequence that answers has its parts answer. -/
theorem Exec.exists_of_bind
    {first : Exec σ α}
    {next : α -> Exec σ β}
    (ran : (first >>= next) env before = .ok answer after) :
    ∃ intermediate between, first env before = .ok intermediate between ∧
      next intermediate env between = .ok answer after := by
  cases began : first env before with
  | error stop between =>
      rw [bind_of_error next began] at ran
      cases ran
  | ok intermediate between =>
      rw [bind_of_ok next began] at ran
      exact ⟨intermediate, between, rfl, ran⟩

/-- Between the parts of a run from a machine that is reached there is such a machine again. -/
theorem Machine.Reached.exists_between
    {first : Exec σ α}
    {next : α -> Exec σ β}
    [Exec.Balanced first]
    (reached : before.Reached)
    (manned : before.Manned none)
    (ran : (first >>= next) (Env.watched fuel watch) before = .ok answer after) :
    ∃ intermediate between, between.Reached ∧ between.Manned none ∧
      next intermediate (Env.watched fuel watch) between = .ok answer after := by
  have traced := reached.traced manned first fuel watch
  obtain ⟨intermediate, between, began, ran⟩ := Exec.exists_of_bind ran
  rw [began] at traced
  exact ⟨intermediate, between, traced.1, traced.2, ran⟩

/-- An allocation gives out a bound function if that is what is allocated. -/
theorem Machine.isBinding_allocate
    {machine : Machine σ}
    (tidy : machine.heap.Tidy)
    (prototype : Option ObjectId)
    (target receiver : Value)
    (leading : List Value) :
    (machine.allocate prototype (.bound target receiver leading)).2.IsBinding
      (.function (machine.allocate prototype (.bound target receiver leading)).1)
      target receiver leading :=
  ⟨_, rfl, congrArg (Option.map HeapObject.payload) (tidy.allocated_live prototype _)⟩

theorem Machine.IsBinding.defined
    {bound target receiver : Value}
    {leading : List Value}
    {id : ObjectId}
    {key : PropertyKey}
    {property : Property}
    {answer : Unit}
    (binding : before.IsBinding bound target receiver leading)
    (ran : Exec.defineRaw id key property env before = .ok answer after) :
    after.IsBinding bound target receiver leading := by
  have changed : Exec.change (fun machine => ((), machine.defineRaw id key property)) env before =
      .ok answer after := ran
  cases Exec.eq_of_change changed
  obtain ⟨function, rfl, present⟩ := binding
  exact ⟨function, rfl, (Heap.payload?_define ..).trans present⟩

/-- What `bind` answers is bound to the receiver and the leading arguments. -/
theorem Builtins.isBinding_of_bindMethod
    {target bound : Value}
    {arguments : List Value}
    (reached : before.Reached)
    (manned : before.Manned none)
    (ran : bindMethod target arguments (Env.watched fuel watch) before = .ok bound after) :
    after.IsBinding bound target (argument arguments 0) (arguments.drop 1) := by
  unfold bindMethod at ran
  obtain ⟨_, _, reached, manned, ran⟩ := reached.exists_between manned ran
  cases named : target.objectId? with
  | none =>
      rw [named] at ran
      cases ran
  | some id =>
      rw [named] at ran
      dsimp only at ran
      obtain ⟨prototype, _, reached, manned, ran⟩ := reached.exists_between manned ran
      obtain ⟨length, _, reached, manned, ran⟩ := reached.exists_between manned ran
      obtain ⟨name, between, reached, _, ran⟩ := reached.exists_between manned ran
      obtain ⟨function, _, allocated, ran⟩ := Exec.exists_of_bind ran
      obtain ⟨_, _, measured, ran⟩ := Exec.exists_of_bind ran
      obtain ⟨_, _, called, ran⟩ := Exec.exists_of_bind ran
      have changed : Exec.change (fun machine => machine.allocate prototype
          (.bound target (argument arguments 0) (arguments.drop 1))) (Env.watched fuel watch)
            between = .ok function _ := allocated
      have made := between.isBinding_allocate reached.tidy prototype target
        (argument arguments 0) (arguments.drop 1)
      rw [Exec.eq_of_change changed] at made
      cases ran
      exact (made.defined measured).defined called

/-! ## Constructors -/

/-- What a bound function or a proxy stands for. -/
def ObjectKind.standsFor? : ObjectKind -> Option Value
  | bound target _ _ | proxy target _ => some target
  | _ => none

/-- A function that can be the target of `new` by itself. -/
def ObjectKind.constructs : ObjectKind -> Bool
  | function closure => closure.template.kind.isConstructor
  | native implementation => implementation.construct.isSome
  | _ => false

namespace Machine

variable {machine : Machine σ} {origin receiver bound target value : Value}
  {leading rest arguments : List Value}

theorem isConstructorWithin_succ (machine : Machine σ) (fuel : Nat) (value : Value) :
    machine.isConstructorWithin (fuel + 1) value =
      ((machine.kindOf? value).any fun kind =>
        kind.standsFor?.elim kind.constructs (machine.isConstructorWithin fuel)) := by
  rw [isConstructorWithin]
  cases machine.kindOf? value with
  | none => rfl
  | some kind => cases kind <;> rfl

/-- An object leads to a constructor through a number of bound functions and proxies. -/
inductive Constructs (machine : Machine σ) : Nat -> ObjectId -> Prop
  | itself {id : ObjectId} {kind : ObjectKind} :
      machine.kind? id = some kind -> kind.standsFor? = none -> kind.constructs = true ->
      Constructs machine 0 id
  | through {layers : Nat} {id next : ObjectId} {kind : ObjectKind} {target : Value} :
      machine.kind? id = some kind -> kind.standsFor? = some target ->
      target.objectId? = some next -> Constructs machine layers next ->
      Constructs machine (layers + 1) id

namespace Constructs

variable {layers : Nat} {id : ObjectId}

/-- How far a constructor is away is determined. -/
theorem unique
    {other : Nat}
    (constructs : machine.Constructs layers id)
    (again : machine.Constructs other id) :
    layers = other := by
  induction constructs generalizing other with
  | itself present last _ =>
      cases again with
      | itself _ _ _ => rfl
      | through same onward _ _ =>
          cases present.symm.trans same
          cases last.symm.trans onward
  | through present onward named _ step =>
      cases again with
      | itself same last _ =>
          cases present.symm.trans same
          cases last.symm.trans onward
      | through same further called deeper =>
          cases present.symm.trans same
          cases onward.symm.trans further
          cases named.symm.trans called
          rw [step deeper]

theorem lives (constructs : machine.Constructs layers id) :
    id.index < machine.heap.objects.size := by
  have present : ∃ kind, machine.kind? id = some kind := by
    cases constructs with
    | itself present _ _ => exact ⟨_, present⟩
    | through present _ _ _ => exact ⟨_, present⟩
  obtain ⟨kind, present⟩ := present
  obtain ⟨object, live, _⟩ := Option.map_eq_some_iff.1 present
  exact Heap.index_lt_of_get? live

/-- On the way to a constructor there is an object at every distance from it. -/
theorem exists_at
    (constructs : machine.Constructs layers id)
    {distance : Nat}
    (within : distance <= layers) :
    ∃ object, machine.Constructs distance object := by
  induction constructs with
  | @itself id kind present last constructs =>
      cases Nat.le_zero.1 within
      exact ⟨id, .itself present last constructs⟩
  | @through layers id next kind target present onward named deeper step =>
      rcases Nat.le_succ_iff.1 within with closer | rfl
      · exact step closer
      · exact ⟨id, .through present onward named deeper⟩

/-- There are fewer objects on the way to a constructor than in the heap. -/
theorem layers_lt (constructs : machine.Constructs layers id) :
    layers < machine.heap.objects.size := by
  choose object leads using
    fun distance : Fin (layers + 1) => constructs.exists_at (Nat.le_of_lt_succ distance.isLt)
  have injective : Function.Injective fun distance =>
      (⟨(object distance).index, (leads distance).lives⟩ : Fin machine.heap.objects.size) := by
    intro left right same
    have objects : object left = object right := by
      have index := congrArg Fin.val same
      dsimp only at index
      cases first : object left
      cases second : object right
      simpa [first, second] using index
    exact Fin.ext ((leads left).unique (objects ▸ leads right))
  exact Nat.lt_of_succ_le (by simpa using Fintype.card_le_of_injective _ injective)

theorem isConstructorWithin_iff {fuel : Nat} :
    machine.isConstructorWithin fuel value = true ↔
      ∃ id layers, value.objectId? = some id ∧ layers < fuel ∧ machine.Constructs layers id := by
  induction fuel generalizing value with
  | zero =>
      refine ⟨nofun, ?_⟩
      rintro ⟨_, _, _, within, _⟩
      cases within
  | succ fuel step =>
      rw [isConstructorWithin_succ, Option.any_eq_true]
      constructor
      · rintro ⟨kind, present, leads⟩
        obtain ⟨id, named, present⟩ := Option.bind_eq_some_iff.1 present
        cases onward : kind.standsFor? with
        | none =>
            rw [onward] at leads
            exact ⟨id, 0, named, Nat.zero_lt_succ _, .itself present onward leads⟩
        | some target =>
            rw [onward] at leads
            obtain ⟨next, layers, called, within, deeper⟩ := step.1 leads
            exact ⟨id, layers + 1, named, Nat.succ_lt_succ within,
              .through present onward called deeper⟩
      · rintro ⟨id, layers, named, within, constructs⟩
        have kindOf : ∀ kind, machine.kind? id = some kind ->
            machine.kindOf? value = some kind := fun kind present => by
          unfold kindOf?
          rw [named]
          exact present
        cases constructs with
        | itself present last constructs =>
            exact ⟨_, kindOf _ present, by rw [last]; exact constructs⟩
        | through present onward called deeper =>
            refine ⟨_, kindOf _ present, ?_⟩
            rw [onward]
            exact step.2 ⟨_, _, called, Nat.lt_of_succ_lt_succ within, deeper⟩

end Constructs

/-- The machine looks far enough to find every constructor. -/
theorem isConstructor_iff :
    machine.isConstructor value = true ↔
      ∃ id layers, value.objectId? = some id ∧ machine.Constructs layers id := by
  unfold isConstructor
  rw [Constructs.isConstructorWithin_iff]
  constructor
  · rintro ⟨id, layers, named, _, constructs⟩
    exact ⟨id, layers, named, constructs⟩
  · rintro ⟨id, layers, named, constructs⟩
    exact ⟨id, layers, named, Nat.lt_succ_of_lt constructs.layers_lt, constructs⟩

/-- A bound function is a constructor if its target is one. -/
theorem IsBinding.isConstructor_eq (binding : machine.IsBinding bound target receiver leading) :
    machine.isConstructor bound = machine.isConstructor target := by
  obtain ⟨id, rfl, present⟩ := binding
  rw [Bool.eq_iff_iff, isConstructor_iff, isConstructor_iff]
  constructor
  · rintro ⟨_, layers, ⟨⟩, constructs⟩
    cases constructs with
    | itself same last _ =>
        cases present.symm.trans same
        cases last
    | through same onward named deeper =>
        cases present.symm.trans same
        cases onward
        exact ⟨_, _, named, deeper⟩
  · rintro ⟨next, layers, named, constructs⟩
    exact ⟨id, layers + 1, rfl, .through present rfl named constructs⟩

theorem Binds.isConstructor_eq (binds : machine.Binds origin receiver (bound :: rest) arguments) :
    machine.isConstructor bound = machine.isConstructor origin := by
  generalize chain : bound :: rest = functions at binds
  induction binds generalizing bound rest with
  | once binding =>
      cases chain
      exact binding.isConstructor_eq
  | again binding _ step =>
      cases chain
      rw [binding.isConstructor_eq]
      exact step rfl

end Machine

/-! ## Runs that end alike -/

/-- The watch picks the sights at which the limit of native calls is reached. -/
def Sight.atLimit (sight : Sight σ) : Bool :=
  decide (sight.machine.config.maxNativeDepth <= sight.machine.nativeDepth)

/-- An invocation is performed without reaching the limit of native calls. -/
structure Machine.StaysBelow
    (machine : Machine σ)
    (fuel : Nat)
    (invocation : Invocation) : Prop where
  starts : machine.nativeDepth < machine.config.maxNativeDepth
  goesOn : ∀ sight after,
    performWithin Sight.atLimit fuel invocation machine ≠ .error (.interrupted sight) after

instance Machine.decidableStaysBelow
    (machine : Machine σ)
    (fuel : Nat)
    (invocation : Invocation) :
    Decidable (machine.StaysBelow fuel invocation) :=
  decidable_of_iff
    (machine.nativeDepth < machine.config.maxNativeDepth ∧
      (match performWithin Sight.atLimit fuel invocation machine with
        | .error (.interrupted _) _ => false
        | _ => true) = true) <| by
    constructor
    · rintro ⟨starts, settles⟩
      refine ⟨starts, fun sight after ran => ?_⟩
      rw [ran] at settles
      cases settles
    · rintro ⟨starts, goesOn⟩
      refine ⟨starts, ?_⟩
      split
      · next ran => exact absurd ran (goesOn _ _)
      · rfl

/-- Two runs end alike: they answer the same, or throw the same, and leave the same machine.
If one of them ends neither way then so does the other. -/
structure EndAlike (first second : EStateM.Result (Stop σ) (Machine σ) α) : Prop where
  answers : ∀ answer after, first = .ok answer after ↔ second = .ok answer after
  throws : ∀ exception after,
    first = .error (.thrown exception) after ↔ second = .error (.thrown exception) after

namespace EndAlike

variable {first second third : EStateM.Result (Stop σ) (Machine σ) α}

theorem refl (result : EStateM.Result (Stop σ) (Machine σ) α) : EndAlike result result :=
  ⟨fun _ _ => .rfl, fun _ _ => .rfl⟩

theorem symm (alike : EndAlike first second) : EndAlike second first :=
  ⟨fun answer after => (alike.answers answer after).symm,
    fun exception after => (alike.throws exception after).symm⟩

theorem trans (alike : EndAlike first second) (also : EndAlike second third) :
    EndAlike first third :=
  ⟨fun answer after => (alike.answers answer after).trans (also.answers answer after),
    fun exception after => (alike.throws exception after).trans (also.throws exception after)⟩

theorem of_agrees
    {depths : Depths}
    (level : depths.deep = depths.shallow)
    (goesOn : ∀ sight after, first ≠ .error (.interrupted sight) after)
    (agrees : Exec.Agrees depths first second) :
    EndAlike first second := by
  have same : ∀ machine : Machine σ, depths.outer machine = depths.inner machine := by
    intro machine
    unfold Depths.outer Depths.inner
    rw [level]
  cases agrees with
  | interrupted sight after => exact absurd rfl (goesOn sight after)
  | settled answer machine =>
      rw [same]
      exact .refl _
  | thrown exception machine =>
      rw [same]
      exact .refl _
  | spent =>
      constructor <;>
      · intro _ _
        constructor <;>
        · intro equal
          cases equal

end EndAlike

namespace Machine

variable {invocation : Invocation} {others : List Value}
variable {result : EStateM.Result (Stop σ) (Machine σ) Value} {newTarget : Value}

variable {machine : Machine σ} {origin receiver bound target : Value}
  {leading rest arguments : List Value} {fuel : Nat} {depths : Depths}

theorem heeds_atLimit
    (sight : Sight σ)
    (full : sight.machine.config.maxNativeDepth <= sight.machine.nativeDepth) :
    sight.atLimit = true :=
  decide_eq_true full

/-- Nobody watches. -/
abbrev unwatched : Sight σ -> Bool := fun _ => false

/-- The two depths of a run that is compared with another one from the same machine. -/
def level
    (machine : Machine σ)
    (starts : machine.nativeDepth < machine.config.maxNativeDepth) : Depths where
  limit := machine.config.maxNativeDepth
  deep := machine.nativeDepth
  shallow := machine.nativeDepth
  le := Nat.le_refl _
  lt := starts

/-- What drains no queue is performed alike at every depth below the limit. -/
theorem agrees_perform
    (drains : ¬ invocation.Drains)
    (fuel : Nat)
    (depths : Depths)
    (machine : Machine σ) :
    Exec.Agrees depths (performWithin Sight.atLimit fuel invocation (depths.outer machine))
      (performWithin unwatched fuel invocation (depths.inner machine)) :=
  (Env.matches_watched heeds_atLimit fuel).performs depths invocation
    (fun drain => absurd drain drains) machine

/-- A run that stays below the limit ends like every run that agrees with it while it is
watched. -/
theorem StaysBelow.endAlike
    (stays : machine.StaysBelow fuel invocation)
    (drains : ¬ invocation.Drains)
    {result : EStateM.Result (Stop σ) (Machine σ) invocation.Answer}
    (agrees : Exec.Agrees (machine.level stays.starts)
      (performWithin Sight.atLimit fuel invocation machine) result) :
    EndAlike (performWithin unwatched fuel invocation machine) result :=
  (EndAlike.of_agrees rfl stays.goesOn
    (agrees_perform drains fuel (machine.level stays.starts) machine)).symm.trans
      (.of_agrees rfl stays.goesOn agrees)

theorem not_drains_call (callee receiver : Value) (arguments : List Value) :
    ¬ (Invocation.call callee receiver arguments).Drains := by
  rintro (equal | equal) <;> cases equal

theorem not_drains_construct (callee newTarget : Value) (arguments : List Value) :
    ¬ (Invocation.construct callee arguments newTarget).Drains := by
  rintro (equal | equal) <;> cases equal

theorem not_drains_instanceOf (value target : Value) :
    ¬ (Invocation.instanceOf value target).Drains := by
  rintro (equal | equal) <;> cases equal

/-! ## Calls -/

/-- Calling a bound function agrees with what calling its target agrees with one native call
deeper. -/
theorem IsBinding.agrees_call
    (binding : machine.IsBinding bound target receiver leading)
    (ignored : Value)
    (agrees : ∀ lt, Exec.Agrees (depths.below lt)
      (performWithin Sight.atLimit fuel (.call target receiver (leading ++ others))
        ((depths.below lt).outer machine)) result) :
    Exec.Agrees depths
      (performWithin Sight.atLimit (fuel + 1) (.call bound ignored others)
        (depths.outer machine)) result := by
  obtain ⟨id, rfl, present⟩ := binding
  have descends : Exec.callValue (.function id) ignored others
      (Env.watched fuel Sight.atLimit) (depths.outer machine) =
        Exec.withNativeDepth (Exec.call target receiver (leading ++ others))
          (Env.watched fuel Sight.atLimit) (depths.outer machine) := by
    unfold Exec.callValue
    dsimp only
    rw [Exec.ask_bind, show (depths.outer machine).kind? id = _ from present]
  show Exec.Agrees depths (Exec.callValue (.function id) ignored others
    (Env.watched fuel Sight.atLimit) (depths.outer machine)) result
  rw [descends]
  exact .below heeds_atLimit agrees

/-- Calling a chain of bound functions, with a native call for each link, agrees with calling
its origin. -/
theorem Binds.agrees_call
    (binds : machine.Binds origin receiver (bound :: rest) arguments)
    (fuel : Nat)
    (depths : Depths)
    (ignored : Value)
    (others : List Value) :
    Exec.Agrees depths
      (performWithin Sight.atLimit (fuel + (bound :: rest).length)
        (.call bound ignored others) (depths.outer machine))
      (performWithin unwatched fuel (.call origin receiver (arguments ++ others))
        (depths.inner machine)) := by
  generalize chain : bound :: rest = functions at binds
  induction binds generalizing bound rest depths ignored others with
  | @once bound leading binding =>
      cases chain
      exact binding.agrees_call ignored fun lt =>
        agrees_perform (not_drains_call _ _ _) fuel (depths.below lt) machine
  | @again bound target other leading rest arguments binding earlier step =>
      cases chain
      refine binding.agrees_call ignored fun lt => ?_
      rw [List.append_assoc]
      exact step (depths.below lt) other (leading ++ others) rfl

/-! ## Constructions -/

/-- The target of `new` as the target of a bound function gets to see it. -/
theorem IsBinding.agrees_construct
    (binding : machine.IsBinding bound target receiver leading)
    (agrees : ∀ lt, Exec.Agrees (depths.below lt)
      (performWithin Sight.atLimit fuel (.construct target (leading ++ others)
        (if newTarget.strictlyEquals bound then target else newTarget))
        ((depths.below lt).outer machine)) result) :
    Exec.Agrees depths
      (performWithin Sight.atLimit (fuel + 1) (.construct bound others newTarget)
        (depths.outer machine)) result := by
  obtain ⟨id, rfl, present⟩ := binding
  have descends : Exec.constructValue (.function id) others newTarget
      (Env.watched fuel Sight.atLimit) (depths.outer machine) =
        Exec.withNativeDepth (Exec.perform (.construct target (leading ++ others)
            (if newTarget.strictlyEquals (.function id) then target else newTarget)))
          (Env.watched fuel Sight.atLimit) (depths.outer machine) := by
    unfold Exec.constructValue Value.objectId?
    dsimp only
    rw [Exec.ask_bind, show (depths.outer machine).kind? id = _ from present]
  show Exec.Agrees depths (Exec.constructValue (.function id) others newTarget
    (Env.watched fuel Sight.atLimit) (depths.outer machine)) result
  rw [descends]
  exact .below heeds_atLimit agrees

/-- What is constructed is the target of `new` unless something else is. -/
theorem Binds.agrees_constructDefault
    (binds : machine.Binds origin receiver (bound :: rest) arguments)
    (fuel : Nat)
    (depths : Depths)
    (others : List Value) :
    Exec.Agrees depths
      (performWithin Sight.atLimit (fuel + (bound :: rest).length)
        (.construct bound others bound) (depths.outer machine))
      (performWithin unwatched fuel (.construct origin (arguments ++ others) origin)
        (depths.inner machine)) := by
  have replaced : ∀ {bound target receiver : Value} {leading : List Value},
      machine.IsBinding bound target receiver leading ->
      (if bound.strictlyEquals bound then target else bound) = target := by
    rintro _ _ _ _ ⟨id, rfl, _⟩
    exact if_pos (beq_self_eq_true id)
  generalize chain : bound :: rest = functions at binds
  induction binds generalizing bound rest depths others with
  | @once bound leading binding =>
      cases chain
      refine binding.agrees_construct fun lt => ?_
      rw [replaced binding]
      exact agrees_perform (not_drains_construct _ _ _) fuel (depths.below lt) machine
  | @again bound target other leading rest arguments binding earlier step =>
      cases chain
      refine binding.agrees_construct fun lt => ?_
      rw [replaced binding, List.append_assoc]
      exact step (depths.below lt) (leading ++ others) rfl

/-- A target of `new` that is no link of the chain is passed on as it is. -/
theorem Binds.agrees_constructFor
    (binds : machine.Binds origin receiver (bound :: rest) arguments)
    (outside : ∀ link ∈ bound :: rest, newTarget.strictlyEquals link = false)
    (fuel : Nat)
    (depths : Depths)
    (others : List Value) :
    Exec.Agrees depths
      (performWithin Sight.atLimit (fuel + (bound :: rest).length)
        (.construct bound others newTarget) (depths.outer machine))
      (performWithin unwatched fuel (.construct origin (arguments ++ others) newTarget)
        (depths.inner machine)) := by
  have kept : ∀ {link target : Value}, newTarget.strictlyEquals link = false ->
      (if newTarget.strictlyEquals link then target else newTarget) = newTarget := by
    intro link target differs
    rw [differs]
    rfl
  generalize chain : bound :: rest = functions at binds outside
  induction binds generalizing bound rest depths others with
  | @once bound leading binding =>
      cases chain
      refine binding.agrees_construct fun lt => ?_
      rw [kept (outside bound (.head _))]
      exact agrees_perform (not_drains_construct _ _ _) fuel (depths.below lt) machine
  | @again bound target other leading rest arguments binding earlier step =>
      cases chain
      refine binding.agrees_construct fun lt => ?_
      rw [kept (outside bound (.head _)), List.append_assoc]
      exact step (depths.below lt) (leading ++ others) rfl
        fun link member => outside link (.tail _ member)

/-! ## Instances -/

/-- The native function that is asked whether a value is an instance of a function. -/
def instanceCheck? (machine : Machine σ) (id : ObjectId) : Option NativeBehavior :=
  match machine.lookup (.symbol .hasInstance) machine.config.maxPrototypeChain id with
  | .found property =>
      match property.slot with
      | .data (.function checker) _ =>
          match machine.kind? checker with
          | some (.native native) => some native.behavior
          | _ => none
      | _ => none
  | _ => none

/-- What are the instances of a function is left to the built-in method. -/
def ChecksByDefault (machine : Machine σ) (function : Value) : Prop :=
  function.isCallable = true ∧
    function.objectId?.bind machine.instanceCheck? = some (.builtin .hasInstance)

instance decidableChecksByDefault (machine : Machine σ) (function : Value) :
    Decidable (machine.ChecksByDefault function) :=
  inferInstanceAs (Decidable (_ ∧ _))

/-- The built-in method is found and called. -/
theorem ChecksByDefault.instanceOf_eq
    {function : Value}
    (checks : machine.ChecksByDefault function)
    (value : Value)
    (depths : Depths)
    (env : Env σ) :
    ∃ checker native, machine.kind? checker = some (.native native) ∧
      native.behavior = .builtin .hasInstance ∧
      Exec.instanceOf value function env (depths.outer machine) =
        (Value.isTruthy <$> Exec.call (.function checker) function [value]) env
          (depths.outer machine) := by
  obtain ⟨id, rfl, check⟩ : ∃ id, function = .function id ∧
      machine.instanceCheck? id = some (.builtin .hasInstance) := by
    obtain ⟨callable, check⟩ := checks
    cases function with
    | function id => exact ⟨id, rfl, check⟩
    | _ => cases callable
  unfold instanceCheck? at check
  split at check
  case h_2 => cases check
  rename_i property found
  split at check
  case h_2 => cases check
  rename_i checker writable slot
  split at check
  case h_2 => cases check
  rename_i native present
  refine ⟨checker, native, present, Option.some.inj check, ?_⟩
  have reads : Exec.getProperty (.function id) (.symbol .hasInstance) env (depths.outer machine) =
      .ok (.function checker) (depths.outer machine) := by
    show Exec.getWithReceiver id (.symbol .hasInstance) (.function id) env
      (depths.outer machine) = _
    unfold Exec.getWithReceiver
    rw [Exec.ask_bind]
    have same : (depths.outer machine).lookup (.symbol .hasInstance)
        (depths.outer machine).config.maxPrototypeChain id = .found property :=
      (lookup_atDepth ..).trans found
    rw [same]
    unfold Exec.propertyValue
    dsimp only
    rw [slot]
    rfl
  have same : Exec.instanceOf value (.function id) env (depths.outer machine) =
      (Exec.getProperty (.function id) (.symbol .hasInstance) >>= fun checker => do
        if !checker.isNullish then
          return (<- Exec.call checker (.function id) [value]).isTruthy
        if !(Value.function id).isCallable then
          Exec.raise (.typeError "Right-hand side of 'instanceof' is not callable")
        Exec.ordinaryHasInstance (.function id) value : Exec σ Bool) env
          (depths.outer machine) := rfl
  rw [same, Exec.bind_of_ok _ reads, map_eq_pure_bind]
  rfl

/-- Asking for instances of a bound function agrees with what asking for those of its target
agrees with one native call deeper. -/
theorem IsBinding.agrees_instanceOf
    (binding : machine.IsBinding bound target receiver leading)
    (checks : machine.ChecksByDefault bound)
    {value : Value}
    {result : EStateM.Result (Stop σ) (Machine σ) Bool}
    (agrees : ∀ lt, Exec.Agrees (depths.below lt)
      (performWithin Sight.atLimit fuel (.instanceOf value target)
        ((depths.below lt).outer machine)) result) :
    Exec.Agrees depths
      (performWithin Sight.atLimit (fuel + 2) (.instanceOf value bound)
        (depths.outer machine)) result := by
  obtain ⟨checker, native, present, method, called⟩ := checks.instanceOf_eq value
    depths (Env.watched (fuel + 1) Sight.atLimit)
  have inner : ∀ lt, Exec.Agrees (depths.below lt)
      (Exec.runNative native.behavior bound [value] (Env.watched fuel Sight.atLimit)
        ((depths.below lt).outer machine)) (Exec.mapAnswer Value.boolean result) := by
    intro lt
    obtain ⟨id, rfl, bound⟩ := binding
    have asks : Exec.ordinaryHasInstance (.function id) value (Env.watched fuel Sight.atLimit)
        ((depths.below lt).outer machine) =
          performWithin Sight.atLimit fuel (.instanceOf value target)
            ((depths.below lt).outer machine) := by
      unfold Exec.ordinaryHasInstance
      rw [Exec.ask_bind,
        show ((depths.below lt).outer machine).kindOf? (.function id) = _ from bound]
      rfl
    rw [method]
    refine .map ?_ Value.boolean
    show Exec.Agrees _ (Exec.ordinaryHasInstance (.function id) value _ _) _
    rw [asks]
    exact agrees lt
  have descends : Exec.callValue (.function checker) bound [value]
      (Env.watched fuel Sight.atLimit) (depths.outer machine) =
        Exec.withNativeDepth (Exec.runNative native.behavior bound [value])
          (Env.watched fuel Sight.atLimit) (depths.outer machine) := by
    unfold Exec.callValue
    dsimp only
    rw [Exec.ask_bind, show (depths.outer machine).kind? checker = _ from present]
  have asked : Exec.Agrees depths
      (Exec.call (.function checker) bound [value] (Env.watched (fuel + 1) Sight.atLimit)
        (depths.outer machine)) (Exec.mapAnswer Value.boolean result) := by
    show Exec.Agrees depths (Exec.callValue (.function checker) bound [value]
      (Env.watched fuel Sight.atLimit) (depths.outer machine)) _
    rw [descends]
    exact .below heeds_atLimit inner
  have same : Exec.mapAnswer Value.isTruthy (Exec.mapAnswer Value.boolean result) = result := by
    cases result <;> rfl
  rw [← same]
  show Exec.Agrees depths (Exec.instanceOf value bound (Env.watched (fuel + 1) Sight.atLimit)
    (depths.outer machine)) _
  rw [called]
  exact asked.map Value.isTruthy

/-- Asking a chain of bound functions for instances, with a call of the built-in method for each
link, agrees with asking its origin. -/
theorem Binds.agrees_instanceOf
    (binds : machine.Binds origin receiver (bound :: rest) arguments)
    (checks : ∀ link ∈ bound :: rest, machine.ChecksByDefault link)
    (fuel : Nat)
    (depths : Depths)
    (value : Value) :
    Exec.Agrees depths
      (performWithin Sight.atLimit (fuel + 2 * (bound :: rest).length)
        (.instanceOf value bound) (depths.outer machine))
      (performWithin unwatched fuel (.instanceOf value origin) (depths.inner machine)) := by
  generalize chain : bound :: rest = functions at binds checks
  induction binds generalizing bound rest depths with
  | @once bound leading binding =>
      cases chain
      exact binding.agrees_instanceOf (checks bound (.head _)) fun lt =>
        agrees_perform (not_drains_instanceOf _ _) fuel (depths.below lt) machine
  | @again bound target other leading rest arguments binding earlier step =>
      cases chain
      exact binding.agrees_instanceOf (checks bound (.head _)) fun lt =>
        step (depths.below lt) rfl fun link member => checks link (.tail _ member)

/-! ## Composition -/

/-- Bound functions compose. What `bind` answers is a link, and as long as the limit of native
calls is not reached a chain of links is called, constructed and asked for instances like its
origin is: with the receiver that was bound first, and with all leading arguments before the
others. It is a constructor if its origin is one. The target of `new` becomes the origin if it
is the chain itself, and stays what it is if it is no link of the chain. -/
theorem bound_functions_compose (binds : machine.Binds origin receiver (bound :: rest) arguments) :
    (∀ (before after : Machine σ) (fuel : Nat) (watch : Sight σ -> Bool) (first last : Value)
        (links supplied inOrder : List Value),
      before.Reached -> before.Manned none ->
      Builtins.bindMethod first supplied (Env.watched fuel watch) before = .ok last after ->
      after.IsBinding last first (Builtins.argument supplied 0) (supplied.drop 1) ∧
        (after.Binds origin receiver (first :: links) inOrder ->
          after.Binds origin receiver (last :: first :: links) (inOrder ++ supplied.drop 1))) ∧
    (∀ (fuel : Nat) (ignored : Value) (others : List Value),
      machine.StaysBelow (fuel + (bound :: rest).length) (.call bound ignored others) ->
      EndAlike
        (performWithin unwatched (fuel + (bound :: rest).length)
          (.call bound ignored others) machine)
        (performWithin unwatched fuel (.call origin receiver (arguments ++ others)) machine)) ∧
    machine.isConstructor bound = machine.isConstructor origin ∧
    (∀ (fuel : Nat) (others : List Value),
      machine.StaysBelow (fuel + (bound :: rest).length) (.construct bound others bound) ->
      EndAlike
        (performWithin unwatched (fuel + (bound :: rest).length)
          (.construct bound others bound) machine)
        (performWithin unwatched fuel (.construct origin (arguments ++ others) origin)
          machine)) ∧
    (∀ (fuel : Nat) (others : List Value) (newTarget : Value),
      (∀ link ∈ bound :: rest, newTarget.strictlyEquals link = false) ->
      machine.StaysBelow (fuel + (bound :: rest).length) (.construct bound others newTarget) ->
      EndAlike
        (performWithin unwatched (fuel + (bound :: rest).length)
          (.construct bound others newTarget) machine)
        (performWithin unwatched fuel (.construct origin (arguments ++ others) newTarget)
          machine)) ∧
    ∀ (fuel : Nat) (value : Value),
      (∀ link ∈ bound :: rest, machine.ChecksByDefault link) ->
      machine.StaysBelow (fuel + 2 * (bound :: rest).length) (.instanceOf value bound) ->
      EndAlike
        (performWithin unwatched (fuel + 2 * (bound :: rest).length)
          (.instanceOf value bound) machine)
        (performWithin unwatched fuel (.instanceOf value origin) machine) := by
  refine ⟨?bind, ?call, binds.isConstructor_eq, ?construct, ?constructFor, ?instances⟩
  case bind =>
    intro before after fuel watch first last links supplied inOrder reached manned ran
    have binding := Builtins.isBinding_of_bindMethod reached manned ran
    exact ⟨binding, fun earlier => .again binding earlier⟩
  case call =>
    intro fuel ignored others stays
    exact stays.endAlike (not_drains_call _ _ _)
      (binds.agrees_call fuel (machine.level stays.starts) ignored others)
  case construct =>
    intro fuel others stays
    exact stays.endAlike (not_drains_construct _ _ _)
      (binds.agrees_constructDefault fuel (machine.level stays.starts) others)
  case constructFor =>
    intro fuel others newTarget outside stays
    exact stays.endAlike (not_drains_construct _ _ _)
      (binds.agrees_constructFor outside fuel (machine.level stays.starts) others)
  case instances =>
    intro fuel value checks stays
    exact stays.endAlike (not_drains_instanceOf _ _)
      (binds.agrees_instanceOf checks fuel (machine.level stays.starts) value)

/-- A machine with a function, what is bound to it, and what is bound to that. -/
structure TwiceBound where
  machine : Machine Unit
  origin : Value
  once : Value
  twice : Value

/-- A new machine with a function that constructs objects, which is bound twice. -/
def twiceBound : TwiceBound :=
  let start := Builtins.newMachine {} ()
  let prototype := some start.intrinsics.functionPrototype
  let (origin, machine) := start.allocate prototype
    (.native { name := "", behavior := .builtin .objectCall, construct := some .object })
  let (once, machine) :=
    machine.allocate prototype (.bound (.function origin) .null [.boolean true])
  let (twice, machine) :=
    machine.allocate prototype (.bound (.function once) .undefined [.boolean false])
  { machine, origin := .function origin, once := .function once, twice := .function twice }

theorem twiceBound_bound :
    twiceBound.machine.IsBinding twiceBound.once twiceBound.origin .null [.boolean true] ∧
    twiceBound.machine.IsBinding twiceBound.twice twiceBound.once .undefined [.boolean false] ∧
    twiceBound.machine.isConstructor twiceBound.origin = true ∧
    ∀ link ∈ [twiceBound.twice, twiceBound.once],
      twiceBound.origin.strictlyEquals link = false ∧
        twiceBound.machine.ChecksByDefault link := by
  decide +kernel

theorem twiceBound_staysBelow :
    twiceBound.machine.StaysBelow 5 (.call twiceBound.twice .undefined [.null]) ∧
    twiceBound.machine.StaysBelow 5 (.construct twiceBound.twice [.null] twiceBound.twice) ∧
    twiceBound.machine.StaysBelow 5 (.construct twiceBound.twice [.null] twiceBound.origin) ∧
    twiceBound.machine.StaysBelow 9 (.instanceOf .null twiceBound.twice) := by
  decide +kernel

/-- In this machine the second bound function is called, constructed and asked for instances
like the function at the origin. -/
theorem bound_functions_compose_twiceBound :
    twiceBound.machine.isConstructor twiceBound.twice = true ∧
    EndAlike
      (performWithin unwatched 5 (.call twiceBound.twice .undefined [.null]) twiceBound.machine)
      (performWithin unwatched 3
        (.call twiceBound.origin .null [.boolean true, .boolean false, .null])
        twiceBound.machine) ∧
    EndAlike
      (performWithin unwatched 5 (.construct twiceBound.twice [.null] twiceBound.twice)
        twiceBound.machine)
      (performWithin unwatched 3
        (.construct twiceBound.origin [.boolean true, .boolean false, .null] twiceBound.origin)
        twiceBound.machine) ∧
    EndAlike
      (performWithin unwatched 5 (.construct twiceBound.twice [.null] twiceBound.origin)
        twiceBound.machine)
      (performWithin unwatched 3
        (.construct twiceBound.origin [.boolean true, .boolean false, .null] twiceBound.origin)
        twiceBound.machine) ∧
    EndAlike
      (performWithin unwatched 9 (.instanceOf .null twiceBound.twice) twiceBound.machine)
      (performWithin unwatched 5 (.instanceOf .null twiceBound.origin) twiceBound.machine) := by
  obtain ⟨once, twice, constructs, links⟩ := twiceBound_bound
  obtain ⟨calls, creates, createsFor, asks⟩ := twiceBound_staysBelow
  obtain ⟨-, call, constructor, construct, constructFor, instances⟩ :=
    bound_functions_compose (.again twice (.once once))
  exact ⟨constructor.trans constructs,
    call 3 .undefined [.null] calls,
    construct 3 [.null] creates,
    constructFor 3 [.null] twiceBound.origin (fun link member => (links link member).1) createsFor,
    instances 5 .null (fun link member => (links link member).2) asks⟩

end Machine
end ScriptVM

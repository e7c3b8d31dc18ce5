import ScriptVM.Machine.Run
import ScriptVM.Proofs.Balance
import ScriptVM.Proofs.Discipline

/-!
# Computations that are blind to the native depth

A machine counts the native calls that are under way, and refuses one more at a limit. Nothing
else depends on the count, except that no garbage is collected during a native call. So two runs
that begin at different depths of the same machine go on alike, as long as the deeper one does
not come to the limit.

The deeper run is watched: it is interrupted where it comes to the limit. That a computation is
blind is inferred from its parts.
-/

namespace ScriptVM

variable {σ α β : Type}
variable (computation : Exec σ α) (receiver callee : Value) (id : ObjectId) (key : PropertyKey)
  (arguments : List Value)

/-! ## Machines at a depth -/

namespace Machine

/-- The machine with another limit of native calls and another number of them under way. -/
def atDepth (machine : Machine σ) (limit depth : Nat) : Machine σ :=
  { machine with
    nativeDepth := depth
    config := { machine.config with maxNativeDepth := limit } }

/-- A query does not depend on the native depth. -/
class Unaware (query : Machine σ -> α) : Prop where
  same : ∀ (limit first second : Nat) (machine : Machine σ),
    query (machine.atDepth limit first) = query (machine.atDepth limit second)

/-- A change does not depend on the native depth and leaves it as it is. -/
def CarriesDepth (operation : Machine σ -> α × Machine σ) : Prop :=
  ∀ (limit depth : Nat) (machine : Machine σ), operation (machine.atDepth limit depth) =
    ((operation machine).1, (operation machine).2.atDepth limit depth)

/-- A change without an answer does not depend on the native depth and leaves it as it is. -/
def Moves (operation : Machine σ -> Machine σ) : Prop :=
  ∀ (limit depth : Nat) (machine : Machine σ),
    operation (machine.atDepth limit depth) = (operation machine).atDepth limit depth

end Machine

/-- The native depths of two runs. The first one is the deeper one, if anything, and still below
the limit. -/
structure Depths where
  limit : Nat
  deep : Nat
  shallow : Nat
  le : shallow <= deep
  lt : deep < limit

namespace Depths

/-- Both runs one native call deeper, where this does not take the first one to the limit. -/
def succ (depths : Depths) (lt : depths.deep + 1 < depths.limit) : Depths where
  limit := depths.limit
  deep := depths.deep + 1
  shallow := depths.shallow + 1
  le := Nat.succ_le_succ depths.le
  lt

/-- The first run one native call deeper, where this does not take it to the limit. -/
def below (depths : Depths) (lt : depths.deep + 1 < depths.limit) : Depths where
  limit := depths.limit
  deep := depths.deep + 1
  shallow := depths.shallow
  le := Nat.le_succ_of_le depths.le
  lt

/-- The machine in the deeper run. -/
def outer (depths : Depths) (machine : Machine σ) : Machine σ :=
  machine.atDepth depths.limit depths.deep

/-- The machine in the other run. -/
def inner (depths : Depths) (machine : Machine σ) : Machine σ :=
  machine.atDepth depths.limit depths.shallow

end Depths

/-! ## Runs at different depths -/

namespace Exec

/-- Results of two runs are the same apart from the native depth, unless the first run was
interrupted. Machines in which fuel ran out are not compared. -/
inductive Agrees (depths : Depths) :
    EStateM.Result (Stop σ) (Machine σ) α -> EStateM.Result (Stop σ) (Machine σ) α -> Prop
  | interrupted (sight : Sight σ) (after : Machine σ)
      (result : EStateM.Result (Stop σ) (Machine σ) α) :
      Agrees depths (.error (.interrupted sight) after) result
  | settled (answer : α) (machine : Machine σ) :
      Agrees depths (.ok answer (depths.outer machine)) (.ok answer (depths.inner machine))
  | thrown (exception : Exception) (machine : Machine σ) :
      Agrees depths (.error (.thrown exception) (depths.outer machine))
        (.error (.thrown exception) (depths.inner machine))
  | spent (first second : Machine σ) :
      Agrees depths (.error .outOfFuel first) (.error .outOfFuel second)

end Exec

/-- An invocation that drains queues. Garbage may be collected on the way. -/
def Invocation.Drains (invocation : Invocation) : Prop :=
  invocation = .checkpoint ∨ invocation = .untilIdle

/-- Two environments perform invocations alike. The first one watches for the limit of native
calls and the second one for nothing. -/
structure Env.Matches (first second : Env σ) : Prop where
  fuel : first.fuel = second.fuel
  heeds : ∀ sight : Sight σ, sight.machine.config.maxNativeDepth <= sight.machine.nativeDepth ->
    first.watch sight = true
  unwatched : ∀ sight, second.watch sight = false
  performs : ∀ (depths : Depths) (invocation : Invocation),
    (invocation.Drains -> 0 < depths.shallow) -> ∀ machine,
      Exec.Agrees depths (first.perform invocation (depths.outer machine))
        (second.perform invocation (depths.inner machine))

/-- A computation goes on alike at different native depths, as long as the limit is not reached.
Some computations are only considered inside a native call. -/
class Exec.DepthBlind (inside : Bool) (computation : Exec σ α) : Prop where
  agrees : ∀ {first second : Env σ}, first.Matches second -> ∀ depths : Depths,
    (inside = true -> 0 < depths.shallow) -> ∀ machine,
      Agrees depths (computation first (depths.outer machine))
        (computation second (depths.inner machine))

namespace Exec

variable {invocation : Invocation}

variable {inside : Bool} {depths : Depths} {computation : Exec σ α} {first second : Env σ}
  {outer inner : Machine σ} {env : Env σ} {machine : Machine σ} {operation : Machine σ -> Machine σ}

/-! ## Results that agree -/

/-- What goes on from results that agree. -/
theorem Agrees.bind
    {next : α -> Exec σ β}
    (agrees : Agrees depths (computation first outer) (computation second inner))
    (later : ∀ answer machine, Agrees depths (next answer first (depths.outer machine))
      (next answer second (depths.inner machine))) :
    Agrees depths ((computation >>= next) first outer)
      ((computation >>= next) second inner) := by
  generalize ran : computation first outer = left at agrees
  generalize also : computation second inner = right at agrees
  cases agrees with
  | interrupted sight after =>
      rw [bind_of_error next ran]
      exact .interrupted ..
  | settled answer machine =>
      rw [bind_of_ok next ran, bind_of_ok next also]
      exact later answer machine
  | thrown exception machine =>
      rw [bind_of_error next ran, bind_of_error next also]
      exact .thrown ..
  | spent =>
      rw [bind_of_error next ran, bind_of_error next also]
      exact .spent ..

/-- A result with another answer. -/
def mapAnswer (transform : α -> β) :
    EStateM.Result (Stop σ) (Machine σ) α -> EStateM.Result (Stop σ) (Machine σ) β
  | .ok answer machine => .ok (transform answer) machine
  | .error stop machine => .error stop machine

theorem Agrees.map
    {result : EStateM.Result (Stop σ) (Machine σ) α}
    (agrees : Agrees depths (computation env machine) result)
    (transform : α -> β) :
    Agrees depths ((transform <$> computation) env machine) (mapAnswer transform result) := by
  rw [map_eq_pure_bind]
  generalize ran : computation env machine = left at agrees
  cases agrees with
  | interrupted sight after =>
      rw [bind_of_error _ ran]
      exact .interrupted ..
  | settled answer after =>
      rw [bind_of_ok _ ran]
      exact .settled (transform answer) after
  | thrown exception after =>
      rw [bind_of_error _ ran]
      exact .thrown exception after
  | spent =>
      rw [bind_of_error _ ran]
      exact .spent ..

/-- An attempt gives what was answered or thrown, and stops where the computation stops. -/
theorem attempt_of_ran {result : EStateM.Result (Stop σ) (Machine σ) α} :
    computation env machine = result -> attempt computation env machine =
      match result with
      | .ok answer after => .ok (.ok answer) after
      | .error (.thrown exception) after => .ok (.error exception) after
      | .error stop after => .error stop after := by
  rintro rfl
  rfl

theorem update_of_picked
    {machine after : Machine σ}
    (moved : operation machine = after)
    (picked : env.watch { machine := after } = true) :
    update operation env machine = .error (.interrupted { machine := after }) after := by
  subst after
  exact if_pos picked

theorem update_of_unpicked
    {machine after : Machine σ}
    (moved : operation machine = after)
    (unpicked : env.watch { machine := after } = false) :
    update operation env machine = .ok () after := by
  subst after
  exact if_neg (by rw [unpicked]; exact Bool.false_ne_true)

/-- What goes on from results that agree at one depth, whether or not something was thrown, may
agree at another. -/
theorem Agrees.attemptThen
    {deeper : Depths}
    {next : Except Exception α -> Exec σ β}
    (agrees : Agrees deeper (computation first outer) (computation second inner))
    (later : ∀ outcome machine, Agrees depths (next outcome first (deeper.outer machine))
      (next outcome second (deeper.inner machine))) :
    Agrees depths ((attempt computation >>= next) first outer)
      ((attempt computation >>= next) second inner) := by
  generalize ran : computation first outer = left at agrees
  generalize also : computation second inner = right at agrees
  cases agrees with
  | interrupted sight after =>
      rw [bind_of_error next (attempt_of_ran ran)]
      exact .interrupted ..
  | settled answer machine =>
      rw [bind_of_ok next (attempt_of_ran ran), bind_of_ok next (attempt_of_ran also)]
      exact later (.ok answer) machine
  | thrown exception machine =>
      rw [bind_of_ok next (attempt_of_ran ran), bind_of_ok next (attempt_of_ran also)]
      exact later (.error exception) machine
  | spent =>
      rw [bind_of_error next (attempt_of_ran ran), bind_of_error next (attempt_of_ran also)]
      exact .spent ..

/-! ## Parts of computations -/

instance blind_pure (answer : α) : DepthBlind inside (pure answer : Exec σ α) :=
  ⟨fun _ _ _ machine => .settled answer machine⟩

instance blind_raise (exception : Exception) : DepthBlind inside (raise exception : Exec σ α) :=
  ⟨fun _ _ _ machine => .thrown exception machine⟩

theorem DepthBlind.bind
    {next : α -> Exec σ β}
    (earlier : DepthBlind inside computation)
    (later : ∀ answer, DepthBlind inside (next answer)) :
    DepthBlind inside (computation >>= next) :=
  ⟨fun matching depths deep machine => (earlier.agrees matching depths deep machine).bind
    fun answer machine => (later answer).agrees matching depths deep machine⟩

instance (next : α -> Exec σ β) [earlier : DepthBlind inside computation]
    [later : ∀ answer, DepthBlind inside (next answer)] :
    DepthBlind inside (computation >>= next) :=
  .bind earlier later

instance (transform : α -> β) [blind : DepthBlind inside computation] :
    DepthBlind inside (transform <$> computation) := by
  rw [map_eq_pure_bind]
  infer_instance

instance (condition : Prop) [Decidable condition] (other : Exec σ α)
    [holds : DepthBlind inside computation] [fails : DepthBlind inside other] :
    DepthBlind inside (if condition then computation else other) := by
  split
  · exact holds
  · exact fails

instance (outcome : Except Exception α) : DepthBlind inside (ofExcept outcome : Exec σ α) := by
  cases outcome with
  | ok answer => exact blind_pure answer
  | error exception => exact blind_raise exception

instance [blind : DepthBlind inside computation] : DepthBlind inside (attempt computation) := by
  rw [← bind_pure (attempt computation)]
  exact ⟨fun matching depths deep machine =>
    (blind.agrees matching depths deep machine).attemptThen .settled⟩

instance blind_ask
    (query : Machine σ -> α)
    [unaware : Machine.Unaware query] :
    DepthBlind inside (ask query) := by
  refine ⟨fun _ depths _ machine => ?_⟩
  unfold ask
  rw [show query (depths.outer machine) = query (depths.inner machine) from
    unaware.same depths.limit depths.deep depths.shallow machine]
  exact .settled _ machine

theorem DepthBlind.ask
    {query : Machine σ -> α}
    (same : ∀ (limit first second : Nat) (machine : Machine σ),
      query (machine.atDepth limit first) = query (machine.atDepth limit second)) :
    DepthBlind inside (Exec.ask query) :=
  have : Machine.Unaware query := ⟨same⟩
  inferInstance

instance (message : Machine σ -> String) [unaware : Machine.Unaware message] :
    DepthBlind inside (typeError message : Exec σ α) :=
  .bind (blind_ask message) fun _ => inferInstance

theorem DepthBlind.change
    {operation : Machine σ -> α × Machine σ}
    (carries : Machine.CarriesDepth operation) :
    DepthBlind inside (change operation) := by
  refine ⟨fun {first second} matching depths _ machine => ?_⟩
  unfold Exec.change
  rw [show operation (depths.outer machine) = _ from carries depths.limit depths.deep machine,
    show operation (depths.inner machine) = _ from carries depths.limit depths.shallow machine]
  dsimp only
  rw [matching.unwatched, if_neg Bool.false_ne_true]
  split
  · exact .interrupted ..
  · exact .settled _ (operation machine).2

theorem DepthBlind.update (moves : Machine.Moves operation) :
    DepthBlind inside (update operation) :=
  .change fun limit depth machine => Prod.ext rfl (moves limit depth machine)

instance : DepthBlind inside (observe : Exec σ Unit) :=
  .update fun _ _ _ => rfl

instance (event : PromiseEvent σ) : DepthBlind inside (note event) :=
  .update fun _ _ _ => rfl

/-! ## Sights -/

instance (referent : Referent) : DepthBlind inside (use referent : Exec σ Unit) := by
  refine ⟨fun {first second} matching depths _ machine => ?_⟩
  unfold use
  dsimp only
  rw [matching.unwatched, if_neg Bool.false_ne_true]
  split
  · exact .interrupted ..
  · exact .settled () machine

instance : DepthBlind inside (pause : Exec σ Unit) := by
  refine ⟨fun {first second} matching depths _ machine => ?_⟩
  unfold pause
  dsimp only
  rw [matching.unwatched, if_neg Bool.false_ne_true]
  split
  · exact .interrupted ..
  · exact .settled () machine

instance (misstep : Misstep) (frame : Frame) :
    DepthBlind inside (stray misstep frame : Exec σ α) := by
  refine ⟨fun {first second} matching depths _ machine => ?_⟩
  unfold stray
  dsimp only
  rw [matching.unwatched, if_neg Bool.false_ne_true]
  split
  · exact .interrupted ..
  · exact .thrown _ machine

/-! ## Invocations -/

theorem DepthBlind.perform
    (drains : invocation.Drains -> inside = true) :
    DepthBlind inside (perform invocation : Exec σ invocation.Answer) :=
  ⟨fun matching depths deep machine =>
    matching.performs depths invocation (fun drain => deep (drains drain)) machine⟩

/-- Most invocations drain no queue. -/
theorem DepthBlind.perform_of_ne
    (checkpoint : invocation ≠ .checkpoint)
    (idle : invocation ≠ .untilIdle) :
    DepthBlind inside (Exec.perform invocation : Exec σ invocation.Answer) :=
  .perform fun drains => (drains.elim checkpoint idle).elim

instance : DepthBlind inside (perform (.call callee receiver arguments) : Exec σ Value) :=
  .perform_of_ne nofun nofun

instance (newTarget : Value) :
    DepthBlind inside (perform (.construct callee arguments newTarget) : Exec σ Value) :=
  .perform_of_ne nofun nofun

instance : DepthBlind inside (perform (.get id key receiver) : Exec σ Value) :=
  .perform_of_ne nofun nofun

instance (value : Value) : DepthBlind inside (perform (.set id key value receiver) : Exec σ Bool) :=
  .perform_of_ne nofun nofun

instance : DepthBlind inside (perform (.has id key) : Exec σ Bool) :=
  .perform_of_ne nofun nofun

instance (target : Value) : DepthBlind inside (perform (.delete target key) : Exec σ Bool) :=
  .perform_of_ne nofun nofun

instance : DepthBlind inside (perform (.prototypeOf id) : Exec σ (Option ObjectId)) :=
  .perform_of_ne nofun nofun

instance (value target : Value) :
    DepthBlind inside (perform (.instanceOf value target) : Exec σ Bool) :=
  .perform_of_ne nofun nofun

instance : DepthBlind true (perform .checkpoint : Exec σ Nat) :=
  .perform fun _ => rfl

instance : DepthBlind true (perform .untilIdle : Exec σ LoopStats) :=
  .perform fun _ => rfl

instance : DepthBlind inside (call callee receiver arguments : Exec σ Value) := by
  unfold call
  infer_instance

/-! ## Loops -/

/-- A loop whose body goes on alike, however often it goes round. -/
instance {γ : Type} (step : γ -> Exec σ (γ ⊕ α)) (state : γ)
    [once : ∀ state, DepthBlind inside (step state)] :
    DepthBlind inside (iterate step state) := by
  refine ⟨fun {first second} matching depths deep machine => ?_⟩
  unfold iterate
  rw [matching.fuel]
  generalize second.fuel = rounds
  induction rounds generalizing state machine with
  | zero => exact .spent ..
  | succ rounds more =>
      have agrees := (once state).agrees matching depths deep machine
      unfold iterateFrom
      generalize step state first (depths.outer machine) = left at agrees
      generalize step state second (depths.inner machine) = right at agrees
      cases agrees with
      | interrupted => exact .interrupted ..
      | thrown => exact .thrown ..
      | spent => exact .spent ..
      | settled answer machine =>
          cases answer with
          | inl state => exact more state machine
          | inr answer => exact .settled answer machine

instance (values : List β) (body : β -> Exec σ PUnit)
    [blind : ∀ value, DepthBlind inside (body value)] :
    DepthBlind inside (values.forM body) := by
  induction values with
  | nil => exact blind_pure PUnit.unit
  | cons value rest step =>
      show DepthBlind inside (body value >>= fun _ => rest.forM body)
      infer_instance

instance {γ : Type} (values : List γ) (body : γ -> Exec σ β)
    [blind : ∀ value, DepthBlind inside (body value)] :
    DepthBlind inside (values.mapM body) := by
  induction values with
  | nil =>
      rw [List.mapM_nil]
      infer_instance
  | cons value rest step =>
      rw [List.mapM_cons]
      infer_instance

instance {γ : Type} (value : Option γ) (body : γ -> Exec σ β)
    [blind : ∀ value, DepthBlind inside (body value)] :
    DepthBlind inside (value.mapM body) := by
  cases value with
  | none =>
      rw [Option.mapM_none]
      infer_instance
  | some value =>
      rw [Option.mapM_some]
      infer_instance

/-! ## Native calls -/

/-- What follows a change goes on from where the watch let it pass. -/
theorem Agrees.updateThen
    (matching : first.Matches second)
    {next : Unit -> Exec σ β}
    (later : first.watch { machine := operation outer } = false ->
      Agrees depths (next () first (operation outer)) (next () second (operation inner))) :
    Agrees depths ((update operation >>= next) first outer)
      ((update operation >>= next) second inner) := by
  rw [bind_of_ok next (update_of_unpicked rfl (matching.unwatched _))]
  cases picked : first.watch { machine := operation outer } with
  | true =>
      rw [bind_of_error next (update_of_picked rfl picked)]
      exact .interrupted ..
  | false =>
      rw [bind_of_ok next (update_of_unpicked rfl picked)]
      exact later picked

/-- A native call goes on one level deeper, where the watch sees whether that is the limit. -/
instance [blind : DepthBlind true computation] :
    DepthBlind inside (withNativeDepth computation) := by
  refine ⟨fun {first second} matching depths _ machine => ?_⟩
  have outer : (depths.outer machine).nativeDepth < (depths.outer machine).config.maxNativeDepth :=
    depths.lt
  have inner : (depths.inner machine).nativeDepth < (depths.inner machine).config.maxNativeDepth :=
    Nat.lt_of_le_of_lt depths.le depths.lt
  rw [withNativeDepth_of_room computation first outer,
    withNativeDepth_of_room computation second inner]
  refine .updateThen matching fun passed => ?_
  have lt : depths.deep + 1 < depths.limit := by
    refine Nat.lt_of_not_le fun full => ?_
    cases passed.symm.trans (matching.heeds _ full)
  refine (blind.agrees matching (depths.succ lt) (fun _ => Nat.succ_pos _)
    machine).attemptThen fun outcome machine => ?_
  refine .updateThen matching fun _ => ?_
  cases outcome with
  | ok answer => exact .settled answer machine
  | error exception => exact .thrown exception machine

/-- A native call that only the first run makes. -/
theorem Agrees.below
    {first : Env σ}
    (heeds : ∀ sight : Sight σ,
      sight.machine.config.maxNativeDepth <= sight.machine.nativeDepth ->
        first.watch sight = true)
    {result : EStateM.Result (Stop σ) (Machine σ) α}
    (agrees : ∀ lt : depths.deep + 1 < depths.limit,
      Agrees (depths.below lt) (computation first ((depths.below lt).outer machine)) result) :
    Agrees depths (withNativeDepth computation first (depths.outer machine)) result := by
  have room : (depths.outer machine).nativeDepth < (depths.outer machine).config.maxNativeDepth :=
    depths.lt
  let enter := fun machine : Machine σ => { machine with nativeDepth := machine.nativeDepth + 1 }
  let leave := fun machine : Machine σ => { machine with nativeDepth := machine.nativeDepth - 1 }
  have leaves : ∀ (lt : depths.deep + 1 < depths.limit) (after : Machine σ)
      (outcome : Except Exception α),
      Agrees depths (ofExcept outcome first (depths.outer after)) result ->
        Agrees depths ((update leave >>= fun _ => ofExcept outcome) first
          ((depths.below lt).outer after)) result := by
    intro lt after outcome ends
    have left : leave ((depths.below lt).outer after) = depths.outer after := rfl
    cases picked : first.watch { machine := depths.outer after } with
    | true =>
        rw [bind_of_error _ (update_of_picked left picked)]
        exact .interrupted ..
    | false =>
        rw [bind_of_ok _ (update_of_unpicked left picked)]
        exact ends
  rw [withNativeDepth_of_room computation first room]
  show Agrees depths ((update enter >>= fun _ => attempt computation >>= fun outcome =>
    update leave >>= fun _ => ofExcept outcome) first (depths.outer machine)) result
  cases picked : first.watch { machine := enter (depths.outer machine) } with
  | true =>
      rw [bind_of_error _ (update_of_picked rfl picked)]
      exact .interrupted ..
  | false =>
      have lt : depths.deep + 1 < depths.limit := by
        refine Nat.lt_of_not_le fun full => ?_
        cases picked.symm.trans (heeds _ full)
      have entered : enter (depths.outer machine) = (depths.below lt).outer machine := rfl
      have agrees := agrees lt
      rw [bind_of_ok _ (update_of_unpicked rfl picked), entered]
      generalize ran : computation first ((depths.below lt).outer machine) = left at agrees
      cases agrees with
      | interrupted sight after =>
          rw [bind_of_error _ (attempt_of_ran ran)]
          exact .interrupted ..
      | spent =>
          rw [bind_of_error _ (attempt_of_ran ran)]
          exact .spent ..
      | settled answer after =>
          rw [bind_of_ok _ (attempt_of_ran ran)]
          exact leaves lt after (.ok answer) (.settled answer after)
      | thrown exception after =>
          rw [bind_of_ok _ (attempt_of_ran ran)]
          exact leaves lt after (.error exception) (.thrown exception after)

end Exec
end ScriptVM

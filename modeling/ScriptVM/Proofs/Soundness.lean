import ScriptVM.Proofs.Discipline
import ScriptVM.Proofs.Sustaining.Links
import ScriptVM.Proofs.Sustaining.Parking

/-!
# Sound computations

A computation is sound from a consistent machine if it leaves a consistent one, which vouches
for its answer or its exception and for all that the earlier machine vouched for. Only jobs
that collect garbage may leave less. An interrupted run shows a consistent machine.

A watch that heeds cycles picks every machine with a cycle of prototypes. Under such a watch
no run that ends has made one, and a run that is interrupted in front of one was about to
finish a class definition.
-/

namespace ScriptVM

variable {σ α β : Type}

/-- The watch picks every machine with a cycle of prototypes. -/
def Heeds (watch : Sight σ -> Bool) : Prop :=
  ∀ sight, ¬ sight.machine.Acyclic -> watch sight = true

/-! ## What invocations hold -/

namespace Invocation

instance : Carrier Invocation where
  items
    | .call _ receiver arguments => items receiver ++ items arguments
    | .construct callee arguments newTarget =>
        items callee ++ items arguments ++ items newTarget
    | .get _ _ receiver => items receiver
    | .set _ _ value receiver => items value ++ items receiver
    | .has _ _ | .delete _ _ | .prototypeOf _ | .checkpoint | .untilIdle => []
    | .instanceOf value target => items value ++ items target

instance carrier : (invocation : Invocation) -> Carrier invocation.Answer
  | .call .. | .construct .. | .get .. => inferInstanceAs (Carrier Value)
  | .set .. | .has .. | .delete .. | .instanceOf .. => inferInstanceAs (Carrier Bool)
  | .prototypeOf _ => inferInstanceAs (Carrier (Option ObjectId))
  | .checkpoint => inferInstanceAs (Carrier Nat)
  | .untilIdle => inferInstanceAs (Carrier LoopStats)

/-- What the machine vouches for before the invocation, it vouches for afterwards. Jobs may
collect garbage, but not while a native call is under way. -/
def Carries (collects : Bool) (machine : Machine σ) : Invocation -> Prop
  | checkpoint | untilIdle => collects = false ∨ 0 < machine.nativeDepth
  | _ => True

end Invocation

/-! ## Results -/

/-- How a machine comes from an earlier one. -/
structure Machine.Follows (collects : Bool) (watch : Sight σ -> Bool) (carries : Prop)
    (before after : Machine σ) : Prop where
  consistent : after.Consistent collects
  later : carries -> Later before after
  acyclic : Heeds watch -> before.Acyclic -> after.Acyclic

/-- What an interrupted run shows. -/
structure Machine.Shows (collects : Bool) (watch : Sight σ -> Bool) (before : Machine σ)
    (sight : Sight σ) : Prop where
  consistent : sight.machine.Consistent collects
  acyclic : Heeds watch -> before.Acyclic ->
    sight.machine.Acyclic ∨ sight.machine.ClosedByClass

/-- The result leaves a consistent machine where something holds of the answer. -/
def Machine.Keeps (collects : Bool) (watch : Sight σ -> Bool) (carries : Prop)
    (before : Machine σ) (holds : Machine σ -> α -> Prop) :
    EStateM.Result (Stop σ) (Machine σ) α -> Prop
  | .ok answer after => before.Follows collects watch carries after ∧ holds after answer
  | .error (.thrown exception) after =>
      before.Follows collects watch carries after ∧ after.Vouches exception
  | .error .outOfFuel _ => True
  | .error (.interrupted sight) _ => before.Shows collects watch sight

open Machine

/-- All invocations that the environment performs leave consistent machines. -/
structure Env.Sound (collects : Bool) (env : Env σ) : Prop where
  performs : ∀ (invocation : Invocation) (machine : Machine σ),
    machine.Consistent collects -> machine.Vouches invocation ->
    machine.Keeps collects env.watch (invocation.Carries collects machine)
      (fun after answer => after.Vouches answer) (env.perform invocation machine)

namespace Machine

variable {collects : Bool} {watch : Sight σ -> Bool} {carries : Prop}
  {before middle after : Machine σ}

namespace Follows

theorem refl (machine : Machine σ) [consistent : machine.Consistent collects] :
    machine.Follows collects watch carries machine where
  consistent := consistent
  later _ := .refl machine
  acyclic _ acyclic := acyclic

theorem trans
    (first : before.Follows collects watch carries middle)
    (second : middle.Follows collects watch carries after) :
    before.Follows collects watch carries after where
  consistent := second.consistent
  later carried := (first.later carried).trans (second.later carried)
  acyclic heeds acyclic := second.acyclic heeds (first.acyclic heeds acyclic)

theorem of_sustains (sustains : before.Sustains collects after) :
    before.Follows collects watch carries after where
  consistent := sustains.consistent
  later _ := sustains.later
  acyclic _ := sustains.acyclic

theorem weaken
    {less : Prop}
    (follows : before.Follows collects watch carries after)
    (fewer : less -> carries) :
    before.Follows collects watch less after :=
  ⟨follows.consistent, fun less => follows.later (fewer less), follows.acyclic⟩

end Follows

namespace Shows

variable (follows : before.Follows collects watch carries middle)
include follows

theorem since
    {sight : Sight σ}
    (shows : middle.Shows collects watch sight) :
    before.Shows collects watch sight where
  consistent := shows.consistent
  acyclic heeds acyclic := shows.acyclic heeds (follows.acyclic heeds acyclic)

theorem of_follows
    {used : Option Referent}
    {between : Bool}
    {misstep : Option (Misstep × Frame)} :
    before.Shows collects watch { machine := middle, used, between, misstep } where
  consistent := follows.consistent
  acyclic heeds acyclic := Or.inl (follows.acyclic heeds acyclic)

end Shows

namespace Keeps

variable {holds : Machine σ -> α -> Prop} {wants : Machine σ -> β -> Prop}
variable {result : EStateM.Result (Stop σ) (Machine σ) α}

/-- A result is kept from the earlier machine, too. -/
theorem since
    (follows : before.Follows collects watch carries middle)
    (keeps : middle.Keeps collects watch carries holds result) :
    before.Keeps collects watch carries holds result := by
  match result, keeps with
  | .ok _ _, ⟨later, held⟩ => exact ⟨follows.trans later, held⟩
  | .error (.thrown _) _, ⟨later, vouched⟩ => exact ⟨follows.trans later, vouched⟩
  | .error .outOfFuel _, _ => trivial
  | .error (.interrupted _) _, shows => exact Shows.since follows shows

/-- An error says the same whatever the answer would have been. -/
theorem error
    {stop : Stop σ}
    (keeps : before.Keeps collects watch carries holds (.error stop after)) :
    before.Keeps collects watch carries wants (.error stop after) := by
  cases stop with
  | thrown exception => exact keeps
  | outOfFuel => trivial
  | interrupted sight => exact keeps

theorem weaken
    {less : Prop}
    {also : Machine σ -> α -> Prop}
    (keeps : before.Keeps collects watch carries holds result)
    (fewer : less -> carries)
    (implies : ∀ after answer, before.Follows collects watch carries after ->
      holds after answer -> also after answer) :
    before.Keeps collects watch less also result := by
  match result, keeps with
  | .ok answer after, ⟨follows, held⟩ =>
      exact ⟨follows.weaken fewer, implies after answer follows held⟩
  | .error (.thrown _) _, ⟨follows, vouched⟩ => exact ⟨follows.weaken fewer, vouched⟩
  | .error .outOfFuel _, _ => trivial
  | .error (.interrupted _) _, shows => exact shows

end Keeps
end Machine

/-! ## Computations -/

namespace Exec

variable {env : Env σ} {operation : Machine σ -> α × Machine σ} {machine : Machine σ}

/-- The watch picks what a change leads to. -/
theorem change_of_picked
    (picked : env.watch { machine := (operation machine).2 } = true) :
    change operation env machine =
      .error (.interrupted { machine := (operation machine).2 }) (operation machine).2 :=
  if_pos picked

theorem change_of_unpicked
    (unpicked : env.watch { machine := (operation machine).2 } = false) :
    change operation env machine = .ok (operation machine).1 (operation machine).2 :=
  if_neg (Bool.eq_false_iff.1 unpicked)

/-- What comes after a change, unless the watch picks what that leads to. -/
theorem keeps_updateThen
    {collects : Bool}
    {carries : Prop}
    {before middle : Machine σ}
    {holds : Machine σ -> β -> Prop}
    (operation : Machine σ -> Machine σ)
    {next : Unit -> Exec σ β}
    (shown : before.Shows collects env.watch { machine := operation middle })
    (later : before.Keeps collects env.watch carries holds (next () env (operation middle))) :
    before.Keeps collects env.watch carries holds ((update operation >>= next) env middle) := by
  cases picked : env.watch { machine := operation middle } with
  | true =>
      have stops : update operation env middle = _ := change_of_picked picked
      rw [bind_of_error next stops]
      exact shown
  | false =>
      have settles : update operation env middle = _ := change_of_unpicked picked
      rw [bind_of_ok next settles]
      exact later

/-- In every sound environment the computation leaves a consistent machine where something
holds of the answer. -/
def Ensures (collects : Bool) (carries : Prop) (machine : Machine σ) (computation : Exec σ α)
    (holds : Machine σ -> α -> Prop) : Prop :=
  ∀ env, env.Sound collects ->
    machine.Keeps collects env.watch carries holds (computation env machine)

/-- The machine vouches in the end for what it did before, and for the answer. -/
class Sound (collects : outParam Bool) (machine : Machine σ) [Carrier α]
    (computation : Exec σ α) : Prop where
  ensures : Ensures collects True machine computation fun after answer => after.Vouches answer

/-- The answer names an object that cannot be called. -/
class Names (collects : outParam Bool) (machine : Machine σ) (computation : Exec σ ObjectId) :
    Prop where
  ensures : Ensures collects True machine computation fun after id =>
    after.Vouches (Value.object id)

/-- The answer names a promise. -/
class Promises (collects : outParam Bool) (machine : Machine σ) (computation : Exec σ ObjectId) :
    Prop where
  ensures : Ensures collects True machine computation fun after id =>
    after.Vouches (PromiseHandle.mk id)

namespace Ensures

variable {also : Machine σ -> α -> Prop}

variable {collects : Bool} {carries : Prop} {machine : Machine σ}
  {holds : Machine σ -> α -> Prop} {wants : Machine σ -> β -> Prop} {computation : Exec σ α}

/-- Go on from the answer of a computation. -/
theorem bind
    {first : Exec σ α}
    {next : α -> Exec σ β}
    (earlier : Ensures collects carries machine first holds)
    (later : ∀ answer after, after.Consistent collects -> (carries -> Later machine after) ->
      holds after answer -> Ensures collects carries after (next answer) wants) :
    Ensures collects carries machine (first >>= next) wants := by
  intro env sound
  have kept := earlier env sound
  cases ran : first env machine with
  | ok answer middle =>
      rw [Exec.bind_of_ok next ran]
      rw [ran] at kept
      obtain ⟨follows, held⟩ := kept
      exact .since follows (later answer middle follows.consistent follows.later held env sound)
  | error stop middle =>
      rw [Exec.bind_of_error next ran]
      rw [ran] at kept
      exact kept.error

/-- Go on from the answer of a sound computation. -/
theorem after
    [Carrier α]
    {first : Exec σ α}
    {next : α -> Exec σ β}
    (earlier : Sound collects machine first)
    (later : ∀ answer after, after.Consistent collects -> Later machine after ->
      after.Vouches answer -> Ensures collects True after (next answer) wants) :
    Ensures collects True machine (first >>= next) wants :=
  .bind earlier.ensures fun answer after consistent goes vouched =>
    later answer after consistent (goes trivial) vouched

theorem weaken
    {less : Prop}
    (ensures : Ensures collects carries machine computation holds)
    (fewer : less -> carries)
    (implies : ∀ after answer, after.Consistent collects -> (carries -> Later machine after) ->
      holds after answer -> also after answer) :
    Ensures collects less machine computation also :=
  fun env sound => (ensures env sound).weaken fewer fun after answer follows =>
    implies after answer follows.consistent follows.later

/-- More is known of the answer. -/
theorem imp
    (ensures : Ensures collects carries machine computation holds)
    (implies : ∀ after answer, holds after answer -> also after answer) :
    Ensures collects carries machine computation also :=
  ensures.weaken id fun after answer _ _ => implies after answer

/-- What an exception becomes when it is caught is vouched for. -/
theorem attempt (ensures : Ensures collects carries machine computation holds) :
    Ensures collects carries machine computation.attempt fun after outcome =>
      match outcome with
      | .ok answer => holds after answer
      | .error exception => after.Vouches exception := by
  intro env sound
  have kept := ensures env sound
  unfold Exec.attempt
  cases ran : computation env machine with
  | ok answer middle =>
      rw [ran] at kept
      exact kept
  | error stop middle =>
      rw [ran] at kept
      cases stop with
      | thrown exception => exact kept
      | outOfFuel => trivial
      | interrupted sight => exact kept

section

variable [consistent : machine.Consistent collects] {γ : Type}

theorem pure (answer : α) (held : holds machine answer) :
    Ensures collects carries machine (Pure.pure answer) holds :=
  fun _ _ => ⟨.refl machine, held⟩

theorem raise (exception : Exception) [vouched : machine.Vouches exception] :
    Ensures collects carries machine (Exec.raise exception) holds :=
  fun _ _ => ⟨.refl machine, vouched⟩

/-- A frame suspends out of place. -/
theorem stray (misstep : Misstep) (frame : Frame) :
    Ensures collects carries machine (Exec.stray misstep frame) holds := by
  intro env _
  have follows : machine.Follows collects env.watch carries machine := .refl machine
  unfold Exec.stray
  dsimp only
  split
  · exact .of_follows follows
  · exact ⟨follows, inferInstance⟩

/-- Nothing comes after that. -/
theorem strayBind (misstep : Misstep) (frame : Frame) (next : α -> Exec σ β) :
    Ensures collects carries machine (Exec.stray misstep frame >>= next) wants :=
  have strays : Ensures collects carries machine (Exec.stray misstep frame) fun _ _ => False :=
    .stray misstep frame
  .bind strays fun _ _ _ _ impossible => impossible.elim

theorem ofExcept
    (outcome : Except Exception α)
    (held : ∀ answer, outcome = .ok answer -> holds machine answer)
    (vouched : ∀ exception, outcome = .error exception -> machine.Vouches exception) :
    Ensures collects carries machine (Exec.ofExcept outcome) holds := by
  cases outcome with
  | ok answer => exact .pure answer (held answer rfl)
  | error exception =>
      have := vouched exception rfl
      exact .raise exception

omit consistent in
theorem change
    (operation : Machine σ -> α × Machine σ)
    (sustains : machine.Sustains collects (operation machine).2)
    (held : holds (operation machine).2 (operation machine).1) :
    Ensures collects carries machine (Exec.change operation) holds := by
  intro env _
  have follows : machine.Follows collects env.watch carries (operation machine).2 :=
    .of_sustains sustains
  cases picked : env.watch { machine := (operation machine).2 } with
  | true =>
      rw [change_of_picked picked]
      exact Shows.of_follows follows
  | false =>
      rw [change_of_unpicked picked]
      exact ⟨follows, held⟩

omit consistent in
theorem update
    (operation : Machine σ -> Machine σ)
    {holds : Machine σ -> Unit -> Prop}
    (sustains : machine.Sustains collects (operation machine))
    (held : holds (operation machine) ()) :
    Ensures collects carries machine (Exec.update operation) holds :=
  .change _ sustains held

/-- Use an operand. -/
theorem use (referent : Referent) :
    Ensures collects carries machine (Exec.use referent) fun _ _ => True := by
  intro env _
  have follows : machine.Follows collects env.watch carries machine := .refl machine
  unfold Exec.use
  dsimp only
  split
  · exact .of_follows follows
  · exact ⟨follows, trivial⟩

/-- Wait between two instructions. -/
theorem pause : Ensures collects carries machine Exec.pause fun _ _ => True := by
  intro env _
  have follows : machine.Follows collects env.watch carries machine := .refl machine
  unfold Exec.pause
  dsimp only
  split
  · exact .of_follows follows
  · exact ⟨follows, trivial⟩

omit consistent in
/-- What an answer is asked for, and what comes after it. -/
theorem ask
    {query : Machine σ -> β}
    {next : β -> Exec σ α}
    (ensures : Ensures collects carries machine (next (query machine)) holds) :
    Ensures collects carries machine (Exec.ask query >>= next) holds :=
  ensures

/-- Go round as long as something holds of the state. -/
theorem iterate
    {step : γ -> Exec σ (γ ⊕ α)}
    (stays : Machine σ -> γ -> Prop)
    (once : ∀ state after, after.Consistent collects -> (carries -> Later machine after) ->
      stays after state ->
        Ensures collects carries after (step state) fun after outcome =>
          match outcome with
          | .inl state => stays after state
          | .inr answer => holds after answer)
    (state : γ)
    (starts : stays machine state) :
    Ensures collects carries machine (Exec.iterate step state) holds := by
  intro env sound
  unfold Exec.iterate
  have rounds : ∀ rounds (after : Machine σ) state,
      machine.Follows collects env.watch carries after -> stays after state ->
      machine.Keeps collects env.watch carries holds
        (Exec.iterateFrom step env rounds state after) := by
    intro rounds
    induction rounds with
    | zero => exact fun _ _ _ _ => trivial
    | succ rounds more =>
        intro after state follows stands
        have kept := once state after follows.consistent follows.later stands env sound
        unfold Exec.iterateFrom
        cases ran : step state env after with
        | error stop middle =>
            rw [ran] at kept
            exact .since follows kept.error
        | ok answer middle =>
            rw [ran] at kept
            obtain ⟨goes, held⟩ := kept
            cases answer with
            | inr answer => exact ⟨follows.trans goes, held⟩
            | inl next => exact more middle next (follows.trans goes) held
  exact rounds env.fuel machine state (.refl machine) starts

/-- Do the same with all values of a list that stay vouched for. -/
theorem forM
    [Carrier β]
    {body : β -> Exec σ PUnit}
    (once : ∀ value after, after.Consistent collects -> Later machine after ->
      after.Vouches value -> Ensures collects True after (body value) fun _ _ => True)
    (values : List β)
    [vouched : machine.Vouches values] :
    Ensures collects True machine (values.forM body) fun _ _ => True := by
  have goes : ∀ values : List β, ∀ after, after.Consistent collects -> Later machine after ->
      after.Vouches values ->
        Ensures collects True after (values.forM body) fun _ _ => True := by
    intro values
    induction values with
    | nil => exact fun after consistent _ _ => .pure PUnit.unit trivial
    | cons value rest more =>
        intro after consistent later vouched
        obtain ⟨first, others⟩ := vouches_cons_iff.1 vouched
        refine .bind (once value after consistent later first) fun _ middle consistent further _ => ?_
        exact more middle consistent (later.trans (further trivial))
          ((further trivial).vouches others)
  exact goes values machine consistent (.refl machine) vouched

/-- Collect what the values of a list give. -/
theorem mapM
    [Carrier β]
    [Carrier γ]
    {body : β -> Exec σ γ}
    (once : ∀ value after, after.Consistent collects -> Later machine after ->
      after.Vouches value ->
        Ensures collects True after (body value) fun after answer => after.Vouches answer)
    (values : List β)
    [vouched : machine.Vouches values] :
    Ensures collects True machine (values.mapM body) fun after answers =>
      after.Vouches answers := by
  have goes : ∀ values : List β, ∀ after, after.Consistent collects -> Later machine after ->
      after.Vouches values ->
        Ensures collects True after (values.mapM body) fun after answers =>
          after.Vouches answers := by
    intro values
    induction values with
    | nil =>
        intro after consistent _ _
        rw [List.mapM_nil]
        exact .pure [] vouches_nil
    | cons value rest more =>
        intro after consistent later vouched
        obtain ⟨first, others⟩ := vouches_cons_iff.1 vouched
        rw [List.mapM_cons]
        refine .bind (once value after consistent later first)
          fun answer middle consistent further given => ?_
        refine .bind (more middle consistent (later.trans (further trivial))
          ((further trivial).vouches others)) fun answers last consistent final taken => ?_
        exact .pure _ (vouches_cons_iff.2 ⟨(final trivial).vouches given, taken⟩)
  exact goes values machine consistent (.refl machine) vouched

end
end Ensures
end Exec
end ScriptVM

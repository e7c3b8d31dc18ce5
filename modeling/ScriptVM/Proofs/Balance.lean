import ScriptVM.Proofs.Stages

/-!
# Balanced computations

A computation is traced when all that it shows of the machine, up to where it ends,
follows from where it began by transitions. It is balanced when, besides, it leaves
the frame stack and the native depth as it found them, however it ends.

Balance is inferred: each operation has an instance, and a sequence of balanced
computations is balanced.
-/

namespace ScriptVM

variable {σ α β : Type}

/-! ## Traces -/

namespace Exec

/-- All that a computation showed of the machine follows from where it began, what it
used are operands, and where it settled, with an answer or an exception, something
holds. -/
def Traced
    (start : Stage σ)
    (after : Except Exception α -> Stage σ -> Prop) :
    EStateM.Result (Stop σ) (Machine σ) α -> Prop
  | .ok answer machine =>
      ∃ origins, start.Leads ⟨origins, machine⟩ ∧ after (.ok answer) ⟨origins, machine⟩
  | .error (.thrown exception) machine =>
      ∃ origins, start.Leads ⟨origins, machine⟩ ∧
        after (.error exception) ⟨origins, machine⟩
  | .error (.interrupted sight) _ =>
      sight.Founded ∧ start.Shows sight
  | .error .outOfFuel _ => True

namespace Traced

variable {env : Env σ} {start stage : Stage σ} {after : Except Exception α -> Stage σ -> Prop}
variable {result : EStateM.Result (Stop σ) (Machine σ) α}

/-- What a trace from a later stage shows follows from an earlier one too. -/
theorem after_leads
    (leads : start.Leads stage)
    (traced : Traced stage after result) :
    Traced start after result := by
  cases result with
  | ok answer machine =>
      obtain ⟨origins, further, settled⟩ := traced
      exact ⟨origins, leads.trans further, settled⟩
  | error stop machine =>
      cases stop with
      | thrown exception =>
          obtain ⟨origins, further, settled⟩ := traced
          exact ⟨origins, leads.trans further, settled⟩
      | interrupted sight =>
          obtain ⟨founded, shows⟩ := traced
          exact ⟨founded, shows.after_leads leads⟩
      | outOfFuel => trivial

theorem mono
    {after weaker : Except Exception α -> Stage σ -> Prop}
    (traced : Traced start after result)
    (weaken : ∀ outcome stage, start.Leads stage -> after outcome stage ->
      weaker outcome stage) :
    Traced start weaker result := by
  cases result with
  | ok answer machine =>
      obtain ⟨origins, leads, settled⟩ := traced
      exact ⟨origins, leads, weaken _ _ leads settled⟩
  | error stop machine =>
      cases stop with
      | thrown exception =>
          obtain ⟨origins, leads, settled⟩ := traced
          exact ⟨origins, leads, weaken _ _ leads settled⟩
      | interrupted sight => exact traced
      | outOfFuel => trivial

/-- A sequence is traced if its first part is, and the second from wherever the first
one settles. -/
theorem bind
    {first : Exec σ α}
    {next : α -> Exec σ β}
    {after : Except Exception β -> Stage σ -> Prop}
    (middle : Except Exception α -> Stage σ -> Prop)
    (earlier : Traced start middle (first env start.machine))
    (later : ∀ answer stage, start.Leads stage -> middle (.ok answer) stage ->
      Traced stage after (next answer env stage.machine))
    (thrown : ∀ exception stage, start.Leads stage -> middle (.error exception) stage ->
      after (.error exception) stage) :
    Traced start after ((first >>= next) env start.machine) := by
  have sequence :
      (first >>= next) env start.machine =
        match first env start.machine with
        | .ok answer machine => next answer env machine
        | .error stop machine => .error stop machine := by
    show EStateM.bind (first env) (fun answer => next answer env) start.machine = _
    unfold EStateM.bind
    cases first env start.machine <;> rfl
  rw [sequence]
  cases ran : first env start.machine with
  | ok answer machine =>
      rw [ran] at earlier
      obtain ⟨origins, leads, settled⟩ := earlier
      exact after_leads leads (later answer ⟨origins, machine⟩ leads settled)
  | error stop machine =>
      rw [ran] at earlier
      cases stop with
      | thrown exception =>
          obtain ⟨origins, leads, settled⟩ := earlier
          exact ⟨origins, leads, thrown exception _ leads settled⟩
      | interrupted sight => exact earlier
      | outOfFuel => trivial

/-- A computation whose exception is given as a value settles in the same way. -/
theorem attempt
    {computation : Exec σ α}
    (traced : Traced start after (computation env start.machine)) :
    Traced start
      (fun outcome stage =>
        match outcome with
        | .ok answer => after answer stage
        | .error _ => False)
      (computation.attempt env start.machine) := by
  unfold Exec.attempt
  cases ran : computation env start.machine with
  | ok answer machine =>
      rw [ran] at traced
      exact traced
  | error stop machine =>
      rw [ran] at traced
      cases stop with
      | thrown exception => exact traced
      | interrupted sight => exact traced
      | outOfFuel => trivial

theorem pure (answer : α) (settled : after (.ok answer) start) :
    Traced start after ((Pure.pure answer : Exec σ α) env start.machine) :=
  ⟨start.origins, .refl, settled⟩

theorem raise (exception : Exception) (settled : after (.error exception) start) :
    Traced start after ((Exec.raise exception : Exec σ α) env start.machine) :=
  ⟨start.origins, .refl, settled⟩

/-- A frame may suspend out of place if it has an excuse. -/
theorem stray
    (misstep : Misstep)
    (frame : Frame)
    (excused : start.origins.lax ∨ frame.Excused misstep)
    (settled : after (.error (.internalError misstep.message)) start) :
    Traced start after ((Exec.stray misstep frame : Exec σ α) env start.machine) := by
  unfold Exec.stray
  dsimp only
  split
  · refine ⟨fun _ impossible => (by cases impossible),
      .reached start.origins .refl (fun impossible => by cases impossible) ?_⟩
    intro _ _ same
    cases same
    exact excused
  · exact ⟨start.origins, .refl, settled⟩

/-- Nothing follows. -/
theorem strayThen
    {next : α -> Exec σ β}
    {after : Except Exception β -> Stage σ -> Prop}
    (misstep : Misstep)
    (frame : Frame)
    (excused : start.origins.lax ∨ frame.Excused misstep)
    (settled : after (.error (.internalError misstep.message)) start) :
    Traced start after ((Exec.stray misstep frame >>= next) env start.machine) := by
  refine bind (fun outcome stage => outcome = .error (.internalError misstep.message) ∧
    stage = start) (stray misstep frame excused ⟨rfl, rfl⟩) ?_ ?_
  · rintro _ _ _ ⟨impossible, -⟩
    cases impossible
  · rintro exception stage _ ⟨same, rfl⟩
    cases same
    exact settled

theorem ofExcept (outcome : Except Exception α) (settled : after outcome start) :
    Traced start after ((Exec.ofExcept outcome : Exec σ α) env start.machine) := by
  cases outcome with
  | ok answer => exact ⟨start.origins, .refl, settled⟩
  | error exception => exact ⟨start.origins, .refl, settled⟩

/-- A change of the machine is traced if transitions lead to the new machine. -/
theorem change
    (operation : Machine σ -> α × Machine σ)
    (origins : Origins)
    (leads : start.Leads ⟨origins, (operation start.machine).2⟩)
    (settled : after (.ok (operation start.machine).1)
      ⟨origins, (operation start.machine).2⟩) :
    Traced start after (Exec.change operation env start.machine) := by
  unfold Exec.change
  dsimp only
  split
  · exact ⟨.machine _, .machine origins leads⟩
  · exact ⟨origins, leads, settled⟩

/-- Between two instructions the innermost frames are those of a run. -/
theorem pause
    {after : Except Exception Unit -> Stage σ -> Prop}
    (paused : start.Paused)
    (settled : after (.ok ()) start) :
    Traced start after (Exec.pause env start.machine) := by
  unfold Exec.pause
  dsimp only
  split
  · exact ⟨fun _ impossible => (by cases impossible),
      .reached start.origins .refl (fun _ => paused) fun _ _ impossible => by cases impossible⟩
  · exact ⟨start.origins, .refl, settled⟩

theorem update
    {after : Except Exception Unit -> Stage σ -> Prop}
    (operation : Machine σ -> Machine σ)
    (origins : Origins)
    (leads : start.Leads ⟨origins, operation start.machine⟩)
    (settled : after (.ok ()) ⟨origins, operation start.machine⟩) :
    Traced start after (Exec.update operation env start.machine) :=
  change _ origins leads settled

/-- A loop whose body keeps something until it answers. -/
theorem iterate
    {γ : Type}
    {step : γ -> Exec σ (γ ⊕ α)}
    (holds : γ -> Stage σ -> Prop)
    (once : ∀ state stage, holds state stage ->
      Traced stage
        (fun (outcome : Except Exception (γ ⊕ α)) later =>
          match outcome with
          | .ok (.inl next) => holds next later
          | .ok (.inr answer) => after (.ok answer) later
          | .error exception => after (.error exception) later)
        (step state env stage.machine))
    (state : γ)
    (begins : holds state start) :
    Traced start after (Exec.iterate step state env start.machine) := by
  unfold Exec.iterate
  generalize env.fuel = rounds
  induction rounds generalizing start state with
  | zero => trivial
  | succ rounds more =>
      have first := once state start begins
      unfold iterateFrom
      cases ran : step state env start.machine with
      | error stop machine =>
          rw [ran] at first
          cases stop with
          | thrown exception => exact first
          | interrupted sight => exact first
          | outOfFuel => trivial
      | ok answer machine =>
          rw [ran] at first
          obtain ⟨origins, leads, settled⟩ := first
          cases answer with
          | inr answer => exact ⟨origins, leads, settled⟩
          | inl next => exact after_leads leads (more next settled)

end Traced

/-! ## Balance -/

/-- From any stage that is ready the computation is traced and settles with the same calls
under way. -/
def BalancedIn
    (env : Env σ)
    (computation : Exec σ α) : Prop :=
  ∀ start : Stage σ, start.Ready env.watch ->
    Traced start (fun _ stage => start.SameCalls stage) (computation env start.machine)

end Exec

/-- All invocations that the environment performs are balanced. -/
def Env.Balanced (env : Env σ) : Prop :=
  ∀ invocation : Invocation, Exec.BalancedIn env (Exec.perform invocation)

namespace Exec

variable {machine : Machine σ} {computation : Exec σ α} {env : Env σ}

/-- The computation is balanced in every environment that performs invocations in a
balanced way. -/
class Balanced (computation : Exec σ α) : Prop where
  balancedIn : ∀ env : Env σ, env.Balanced -> BalancedIn env computation

namespace Balanced

theorem traced
    (computation : Exec σ α)
    [balanced : Balanced computation]
    {env : Env σ}
    (sound : env.Balanced)
    {start : Stage σ}
    (ready : start.Ready env.watch) :
    Traced start (fun _ stage => start.SameCalls stage) (computation env start.machine) :=
  balanced.balancedIn env sound start ready

/-- A sequence of balanced computations is balanced. -/
theorem bind
    {first : Exec σ α}
    {next : α -> Exec σ β}
    (earlier : Balanced first)
    (later : ∀ answer, Balanced (next answer)) :
    Balanced (first >>= next) where
  balancedIn env sound start ready := by
    refine .bind _ (earlier.balancedIn env sound start ready) ?_ ?_
    · intro answer stage leads same
      refine ((later answer).balancedIn env sound stage (ready.later leads same)).mono ?_
      intro outcome final _ further
      exact same.trans further
    · intro exception stage leads same
      exact same

end Balanced

instance (first : Exec σ α) (next : α -> Exec σ β) [earlier : Balanced first]
    [later : ∀ answer, Balanced (next answer)] :
    Balanced (first >>= next) :=
  earlier.bind later

instance (condition : Prop) [Decidable condition] (first second : Exec σ α) [holds : Balanced first]
    [fails : Balanced second] :
    Balanced (if condition then first else second) := by
  split
  · exact holds
  · exact fails

instance (computation : Exec σ α) [Balanced computation] :
    Balanced (attempt computation) where
  balancedIn _ sound _ ready := by
    refine (Balanced.traced computation sound ready).attempt.mono ?_
    intro outcome stage _ settled
    cases outcome with
    | ok answer => exact settled
    | error exception => exact settled.elim

/-! ## Changes of the machine -/

/-- Transitions lead from one machine to another without new origins, with the same calls
under way and with the coroutines left alone. -/
structure Quietly
    (origins : Origins)
    (before after : Machine σ) : Prop where
  leads : Stage.Leads ⟨origins, before⟩ ⟨origins, after⟩
  same : before.SameCalls after
  calm : before.heap.Tidy -> before.heap.Calm after.heap

namespace Quietly

variable {origins : Origins} {before after : Machine σ}

@[refl] theorem refl (machine : Machine σ) : Quietly origins machine machine :=
  ⟨.refl, .refl machine, fun _ => .refl machine.heap⟩

theorem trans
    {first second third : Machine σ}
    (earlier : Quietly origins first second)
    (later : Quietly origins second third) :
    Quietly origins first third :=
  ⟨earlier.leads.trans later.leads, earlier.same.trans later.same,
    fun tidy => (earlier.calm tidy).trans (later.calm (earlier.leads.tidy tidy))⟩

/-- The same coroutines have their frames on the stack. -/
theorem manned
    {loose : Option Routine}
    (quiet : Quietly origins before after)
    (coherent : Stage.Coherent ⟨origins, before⟩)
    (manned : Stage.Manned loose ⟨origins, before⟩) :
    Stage.Manned loose ⟨origins, after⟩ := by
  rcases coherent.orderly, manned with ⟨lax | orderly, lax | manned⟩
  · exact Or.inl lax
  · exact Or.inl lax
  · exact Or.inl lax
  · exact Or.inr (manned.same (quiet.calm orderly.tidy) quiet.same.frames)

theorem sameCalls
    (quiet : Quietly origins before after)
    (coherent : Stage.Coherent ⟨origins, before⟩) :
    Stage.SameCalls ⟨origins, before⟩ ⟨origins, after⟩ :=
  ⟨quiet.same, quiet.manned coherent⟩

theorem heap
    (machine : Machine σ)
    {heap : Heap ObjectKind}
    (change : HeapChange origins machine.heap heap)
    (calm : machine.heap.Tidy -> machine.heap.Calm heap) :
    Quietly origins machine { machine with heap } :=
  ⟨.single (.heap origins machine heap change (Or.inr fun tidy => (calm tidy).tends)),
    ⟨rfl, rfl⟩, calm⟩

theorem cells (machine : Machine σ) {cells : Cells} (change : CellsChange machine.cells cells) :
    Quietly origins machine { machine with cells } :=
  ⟨.single (.cells origins machine cells change), ⟨rfl, rfl⟩, fun _ => .refl machine.heap⟩

theorem defineRaw
    (machine : Machine σ)
    (id : ObjectId)
    (key : PropertyKey)
    (property : Property) :
    Quietly origins machine (machine.defineRaw id key property) :=
  heap machine (.define machine.heap id key property) fun _ =>
    .of_payload fun other => machine.heap.payload?_define id other key property

theorem allocate
    (machine : Machine σ)
    (prototype : Option ObjectId)
    {kind : ObjectKind}
    (covered : origins.Covers kind)
    (still : ∀ coroutine, kind ≠ .coroutine coroutine) :
    Quietly origins machine (machine.allocate prototype kind).2 :=
  heap machine (.allocate machine.heap prototype kind covered) fun tidy =>
    .allocate tidy prototype still

theorem enqueueJob (machine : Machine σ) (job : Job σ) :
    Quietly origins machine (machine.enqueueJob job) :=
  ⟨.single (.tables origins machine machine.symbols _ machine.rejections machine.unhandled
    machine.hosts machine.journal machine.world), ⟨rfl, rfl⟩, fun _ => .refl machine.heap⟩

theorem note (machine : Machine σ) (event : PromiseEvent σ) :
    Quietly origins machine (machine.note event) :=
  ⟨.single (.tables origins machine machine.symbols machine.jobs machine.rejections
    machine.unhandled machine.hosts _ machine.world), ⟨rfl, rfl⟩, fun _ => .refl machine.heap⟩

theorem submitJob (machine : Machine σ) (job : Job σ) :
    Quietly origins machine (machine.submitJob job) :=
  (enqueueJob machine job).trans (note _ _)

end Quietly

theorem balanced_change
    (operation : Machine σ -> α × Machine σ)
    (quiet : ∀ (origins : Origins) (machine : Machine σ),
      Stage.Coherent ⟨origins, machine⟩ ->
        Quietly origins machine (operation machine).2) :
    Balanced (change operation) where
  balancedIn _ _ start ready :=
    have quietly := quiet start.origins start.machine ready.coherent
    .change operation start.origins quietly.leads (quietly.sameCalls ready.coherent)

theorem balanced_update
    (operation : Machine σ -> Machine σ)
    (quiet : ∀ (origins : Origins) (machine : Machine σ),
      Stage.Coherent ⟨origins, machine⟩ ->
        Quietly origins machine (operation machine)) :
    Balanced (update operation) :=
  balanced_change _ quiet

/-! ## Native calls -/

theorem withNativeDepth_of_full
    (computation : Exec σ α)
    (env : Env σ)
    (full : machine.config.maxNativeDepth <= machine.nativeDepth) :
    withNativeDepth computation env machine =
      .error (.thrown .stackOverflow) machine := by
  have refused : decide (machine.config.maxNativeDepth <= machine.nativeDepth) = true :=
    decide_eq_true full
  simp [withNativeDepth, bind, ReaderT.bind, EStateM.bind, ask, raise, refused]

theorem withNativeDepth_of_room
    (computation : Exec σ α)
    (env : Env σ)
    (room : machine.nativeDepth < machine.config.maxNativeDepth) :
    withNativeDepth computation env machine =
      (do
        update fun machine => { machine with nativeDepth := machine.nativeDepth + 1 }
        let outcome <- attempt computation
        update fun machine => { machine with nativeDepth := machine.nativeDepth - 1 }
        ofExcept outcome : Exec σ α) env machine := by
  have allowed :
      decide (machine.config.maxNativeDepth <= machine.nativeDepth) = false :=
    decide_eq_false (Nat.not_le.2 room)
  simp [withNativeDepth, bind, ReaderT.bind, EStateM.bind, ask, allowed]

/-- What a computation one native call deeper leaves behind, besides the same calls. -/
theorem Traced.withNativeDepth
    {origins : Origins}
    (after : Except Exception α -> Stage σ -> Prop)
    (anyDepth : ∀ outcome origins (machine : Machine σ) (nativeDepth : Nat),
      after outcome ⟨origins, machine⟩ -> after outcome ⟨origins, { machine with nativeDepth }⟩)
    (refused : after (.error .stackOverflow) ⟨origins, machine⟩)
    (inner : ∀ deeper : Machine σ,
      deeper = { machine with nativeDepth := machine.nativeDepth + 1 } ->
      Traced ⟨origins, deeper⟩
        (fun outcome stage => deeper.SameCalls stage.machine ∧ after outcome stage)
        (computation env deeper)) :
    Traced ⟨origins, machine⟩
      (fun outcome stage => machine.SameCalls stage.machine ∧ after outcome stage)
      (withNativeDepth computation env machine) := by
  by_cases room : machine.nativeDepth < machine.config.maxNativeDepth
  · rw [withNativeDepth_of_room computation env room]
    refine .bind
      (fun outcome stage => outcome = .ok () ∧
        stage = ⟨origins, { machine with nativeDepth := machine.nativeDepth + 1 }⟩)
      ?_ ?_ ?_
    · exact .update _ origins (.single (.enterNative origins machine room)) ⟨rfl, rfl⟩
    · rintro _ stage _ ⟨-, rfl⟩
      refine .bind _ (inner _ rfl).attempt ?_ ?_
      · rintro outcome ⟨later, left⟩ _ ⟨same, settled⟩
        refine .bind
          (fun answer stage => answer = .ok () ∧
            stage = ⟨later, { left with nativeDepth := left.nativeDepth - 1 }⟩)
          ?_ ?_ ?_
        · exact .update _ later (.single (.leaveNative later left)) ⟨rfl, rfl⟩
        · rintro _ stage _ ⟨-, rfl⟩
          refine .ofExcept outcome ⟨⟨same.frames, ?_⟩, anyDepth outcome later left _ settled⟩
          have deeper : left.nativeDepth = machine.nativeDepth + 1 := same.nativeDepth
          show left.nativeDepth - 1 = machine.nativeDepth
          rw [deeper, Nat.add_sub_cancel]
        · rintro exception stage _ ⟨impossible, -⟩
          cases impossible
      · rintro exception stage _ impossible
        exact impossible.elim
    · rintro exception stage _ ⟨impossible, -⟩
      cases impossible
  · rw [withNativeDepth_of_full computation env (Nat.not_lt.1 room)]
    exact ⟨origins, .refl, .refl machine, refused⟩

theorem BalancedIn.withNativeDepth
    (balanced : BalancedIn env computation) :
    BalancedIn env (Exec.withNativeDepth computation) := by
  intro start ready
  refine (Traced.withNativeDepth (fun _ stage => stage.Manned none)
    (fun _ _ _ depth manned => manned.deeper depth) ready.manned ?_).mono
    fun _ _ _ settled => ⟨settled.1, fun _ => settled.2⟩
  rintro deeper rfl
  have entered : Stage.Ready env.watch
      ⟨start.origins,
        { start.machine with nativeDepth := start.machine.nativeDepth + 1 }⟩ :=
    ready.deeper _
  exact (balanced _ entered).mono fun _ _ _ same =>
    ⟨same.calls, same.manned entered.manned⟩

instance (computation : Exec σ α) [balanced : Balanced computation] :
    Balanced (withNativeDepth computation) where
  balancedIn env sound := (balanced.balancedIn env sound).withNativeDepth

end Exec
end ScriptVM

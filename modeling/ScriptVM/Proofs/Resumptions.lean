import ScriptVM.Machine.Promises
import ScriptVM.Proofs.CapturedVariables

/-!
# Suspensions and resumptions

An async function that waits is resumed by a reaction to the promise that it awaits, and by the
job that this reaction becomes when the promise settles. No async function is resumed from two
places, and only suspended ones are resumed. One for which there is no resumption is in the hand
of native code: of a run that it is part of, or of the code that is about to park it.

Verified code suspends only where a coroutine can take its frame, apart from two cases that
verification does not rule out. A chunk that is executed as a script runs in no coroutine, even
if it is of a kind that suspends. And a generator holds exactly one initial yield, but nothing
says that its calls come to it first and to nothing like it later; they do if the initial yield
divides the code.
-/

namespace ScriptVM

variable {σ : Type}

namespace ObjectKind

/-- The reactions that wait for a promise to settle. -/
def reactions : ObjectKind -> List Reaction
  | promise record => record.reactions
  | _ => []

/-- The state of an async function, and whether its frame is there. -/
def asyncState? : ObjectKind -> Option (CoroutineState × Bool)
  | coroutine ⟨state, frame, .async _⟩ => some (state, frame.isSome)
  | _ => none

end ObjectKind

/-- The reaction resumes the async function after one settlement at least. -/
def Reaction.Resumes (reaction : Reaction) (coroutine : ObjectId) : Prop :=
  ∃ settlement, reaction.handler settlement = .asyncResume coroutine

/-- The handler resumes no async function. -/
class Handler.Plain (handler : Handler) : Prop where
  plain : ∀ coroutine, handler ≠ .asyncResume coroutine

instance : Handler.Plain .identity := ⟨nofun⟩
instance : Handler.Plain .thrower := ⟨nofun⟩
instance (function : Value) : Handler.Plain (.callable function) := ⟨nofun⟩

/-- The reaction resumes no async function. -/
class Reaction.Plain (reaction : Reaction) : Prop where
  plain : ∀ coroutine, ¬ reaction.Resumes coroutine

instance (capability : Option ObjectId) (onFulfilled onRejected : Handler)
    [fulfilled : onFulfilled.Plain] [rejected : onRejected.Plain] :
    Reaction.Plain { capability, onFulfilled, onRejected } where
  plain coroutine := by
    rintro ⟨settlement, same⟩
    cases settlement with
    | fulfilled => exact fulfilled.plain coroutine same
    | rejected => exact rejected.plain coroutine same

/-- The job resumes the async function. -/
def Job.Resumes (job : Job σ) (coroutine : ObjectId) : Prop :=
  ∃ capability settlement argument,
    job = .reaction (.asyncResume coroutine) capability settlement argument

/-- Where a resumption waits: at an index among the reactions to a promise, or at one in the
queue of microtasks. -/
inductive ResumptionPlace
  | reaction (promise : ObjectId) (index : Nat)
  | job (index : Nat)

namespace Machine

/-- The reactions that wait for a promise to settle. -/
def reactions (machine : Machine σ) (promise : ObjectId) : List Reaction :=
  ((machine.kind? promise).map ObjectKind.reactions).getD []

/-- The state of an async function, and whether its frame is there. -/
def asyncState? (machine : Machine σ) (coroutine : ObjectId) : Option (CoroutineState × Bool) :=
  (machine.kind? coroutine).bind ObjectKind.asyncState?

/-- A resumption of the async function waits at the place. -/
inductive ResumesAt (machine : Machine σ) (coroutine : ObjectId) : ResumptionPlace -> Prop
  | reaction {promise : ObjectId} {index : Nat} {reaction : Reaction} :
      (machine.reactions promise)[index]? = some reaction -> reaction.Resumes coroutine ->
      ResumesAt machine coroutine (.reaction promise index)
  | job {index : Nat} {job : Job σ} :
      machine.jobs.microtasks.jobs[index]? = some job -> job.Resumes coroutine ->
      ResumesAt machine coroutine (.job index)

/-- Only suspended async functions are resumed, and each from one place only. -/
structure ResumesOnce (machine : Machine σ) : Prop where
  suspended : ∀ {coroutine place}, machine.ResumesAt coroutine place ->
    machine.asyncState? coroutine = some (.suspendedYield, true)
  once : ∀ {coroutine place other}, machine.ResumesAt coroutine place ->
    machine.ResumesAt coroutine other -> place = other

/-- The async function is in a state, and no resumption waits for it. -/
structure InHand (machine : Machine σ) (coroutine : ObjectId) (state : CoroutineState × Bool) :
    Prop where
  state : machine.asyncState? coroutine = some state
  unresumed : ∀ place, ¬ machine.ResumesAt coroutine place

/-- All resumptions come from places where they waited before, and async functions stay in
their states. -/
structure CarriesOver (before after : Machine σ) : Prop where
  moves : ∃ move : ResumptionPlace -> ResumptionPlace, ∀ {coroutine place},
    after.ResumesAt coroutine place ->
      ∃ old, before.ResumesAt coroutine old ∧ place = move old
  states : ∀ {coroutine state}, before.asyncState? coroutine = some state ->
    after.asyncState? coroutine = some state

variable {machine before middle after : Machine σ} {coroutine : ObjectId} {kind : ObjectKind}

theorem reactions_of_kind?
    {promise : ObjectId}
    (present : machine.kind? promise = some kind) :
    machine.reactions promise = kind.reactions := by
  unfold reactions
  rw [present]
  rfl

theorem asyncState?_of_kind?
    (present : machine.kind? coroutine = some kind) :
    machine.asyncState? coroutine = kind.asyncState? := by
  unfold asyncState?
  rw [present]
  rfl

namespace CarriesOver

theorem resumesOnce (carries : before.CarriesOver after) (resumes : before.ResumesOnce) :
    after.ResumesOnce := by
  obtain ⟨move, moved⟩ := carries.moves
  refine ⟨fun waits => ?_, fun waits others => ?_⟩
  · obtain ⟨_, waited, _⟩ := moved waits
    exact carries.states (resumes.suspended waited)
  · obtain ⟨_, waited, rfl⟩ := moved waits
    obtain ⟨_, other, rfl⟩ := moved others
    rw [resumes.once waited other]

theorem inHand
    (carries : before.CarriesOver after)
    {state : CoroutineState × Bool}
    (held : before.InHand coroutine state) :
    after.InHand coroutine state where
  state := carries.states held.state
  unresumed _ waits := by
    obtain ⟨_, moved⟩ := carries.moves
    obtain ⟨old, waited, _⟩ := moved waits
    exact held.unresumed old waited

/-- Reactions and jobs that resume async functions stood where they stand. -/
theorem of_stay
    (reactions : ∀ {coroutine promise : ObjectId} {index : Nat} {reaction : Reaction},
      reaction.Resumes coroutine -> (after.reactions promise)[index]? = some reaction ->
      (before.reactions promise)[index]? = some reaction)
    (jobs : ∀ {coroutine : ObjectId} {index : Nat} {job : Job σ}, job.Resumes coroutine ->
      after.jobs.microtasks.jobs[index]? = some job ->
      before.jobs.microtasks.jobs[index]? = some job)
    (states : ∀ {coroutine state}, before.asyncState? coroutine = some state ->
      after.asyncState? coroutine = some state) :
    before.CarriesOver after where
  moves := by
    refine ⟨id, fun {coroutine place} waits => ⟨place, ?_, rfl⟩⟩
    cases waits with
    | reaction stands resumes => exact .reaction (reactions resumes stands) resumes
    | job stands resumes => exact .job (jobs resumes stands) resumes
  states := states

/-- Nothing happens to promises, async functions and microtasks. -/
theorem of_same
    (reactions : ∀ id, after.reactions id = before.reactions id)
    (states : ∀ id, after.asyncState? id = before.asyncState? id)
    (jobs : after.jobs.microtasks = before.jobs.microtasks) :
    before.CarriesOver after :=
  .of_stay (fun _ stands => reactions _ ▸ stands) (fun _ stands => jobs ▸ stands)
    fun present => (states _).trans present

theorem of_heap
    (heap : after.heap = before.heap)
    (jobs : ∀ {coroutine : ObjectId} {index : Nat} {job : Job σ}, job.Resumes coroutine ->
      after.jobs.microtasks.jobs[index]? = some job ->
      before.jobs.microtasks.jobs[index]? = some job) :
    before.CarriesOver after := by
  have kinds : ∀ id, after.kind? id = before.kind? id := fun id => by
    unfold kind?
    rw [heap]
  refine .of_stay (fun _ stands => ?_) jobs fun present => ?_
  · unfold Machine.reactions at stands ⊢
    rwa [kinds] at stands
  · unfold asyncState? at present ⊢
    rwa [kinds]

/-- One more job is queued, which resumes no async function. -/
theorem of_enqueue {job : Job σ} (plain : ∀ coroutine, ¬ job.Resumes coroutine) :
    before.CarriesOver (before.enqueueJob job) := by
  refine .of_heap rfl fun {coroutine index other} resumes stands => ?_
  change (before.jobs.microtasks.jobs ++ [job])[index]? = some other at stands
  rw [List.getElem?_append] at stands
  split at stands
  · exact stands
  · cases List.mem_singleton.1 (List.mem_of_getElem? stands)
    exact absurd resumes (plain coroutine)

/-- The oldest job leaves the queue. -/
theorem of_taken
    {job : Job σ}
    {jobs : EventLoop (Job σ) (HostProgram σ)}
    (taken : before.jobs.microtasks.jobs = job :: jobs.microtasks.jobs) :
    before.CarriesOver { before with jobs } where
  moves := by
    let move : ResumptionPlace -> ResumptionPlace
      | .reaction promise index => .reaction promise index
      | .job index => .job (index - 1)
    refine ⟨move, fun {coroutine place} waits => ?_⟩
    cases waits with
    | reaction stands resumes => exact ⟨_, .reaction stands resumes, rfl⟩
    | @job index _ stands resumes =>
        refine ⟨.job (index + 1), .job ?_ resumes, rfl⟩
        rw [taken]
        exact stands
  states := id

/-- The reactions to a promise become jobs. -/
theorem of_settlement
    {promise : ObjectId}
    {settlement : Settlement}
    {value : Value}
    (reactions : ∀ id,
      after.reactions id = if promise = id then [] else before.reactions id)
    (states : ∀ id, after.asyncState? id = before.asyncState? id)
    (jobs : after.jobs.microtasks.jobs = before.jobs.microtasks.jobs ++
      (before.reactions promise).map fun reaction => reactionJob reaction settlement value) :
    before.CarriesOver after where
  moves := by
    let move : ResumptionPlace -> ResumptionPlace
      | .reaction other index =>
          if promise = other then .job (before.jobs.microtasks.jobs.length + index)
          else .reaction other index
      | .job index => .job index
    refine ⟨move, fun {coroutine place} waits => ?_⟩
    cases waits with
    | reaction stands resumes =>
        rw [reactions] at stands
        split at stands
        · cases stands
        · next other => exact ⟨_, .reaction stands resumes, (if_neg other).symm⟩
    | @job index _ stands resumes =>
        rw [jobs, List.getElem?_append] at stands
        split at stands
        · exact ⟨_, .job stands resumes, rfl⟩
        · next late =>
            rw [List.getElem?_map] at stands
            obtain ⟨reaction, waited, rfl⟩ := Option.map_eq_some_iff.1 stands
            obtain ⟨_, _, _, same⟩ := resumes
            refine ⟨_, .reaction waited ⟨settlement, (Job.reaction.inj same).1⟩, ?_⟩
            refine Eq.trans ?_ (if_pos rfl).symm
            rw [Nat.add_sub_cancel' (Nat.le_of_not_lt late)]
  states present := (states _).trans present

end CarriesOver

/-- The heap and the jobs decide. -/
theorem ResumesOnce.of_same
    (resumes : before.ResumesOnce)
    (heap : after.heap = before.heap)
    (jobs : after.jobs = before.jobs) :
    after.ResumesOnce :=
  (CarriesOver.of_heap heap fun _ stands => jobs ▸ stands).resumesOnce resumes

theorem InHand.of_same
    {state : CoroutineState × Bool}
    (held : before.InHand coroutine state)
    (heap : after.heap = before.heap)
    (jobs : after.jobs = before.jobs) :
    after.InHand coroutine state :=
  (CarriesOver.of_heap heap fun _ stands => jobs ▸ stands).inHand held

/-- The job that resumes an async function leaves the queue, and the function is in hand. -/
theorem ResumesOnce.inHand_of_taken
    (resumes : before.ResumesOnce)
    {job : Job σ}
    {jobs : EventLoop (Job σ) (HostProgram σ)}
    (taken : before.jobs.microtasks.jobs = job :: jobs.microtasks.jobs)
    (resumed : job.Resumes coroutine) :
    InHand { before with jobs } coroutine (.suspendedYield, true) ∧
      ∀ state, ¬ before.InHand coroutine state := by
  have first : before.ResumesAt coroutine (.job 0) := .job (by rw [taken]; rfl) resumed
  refine ⟨⟨resumes.suspended first, fun place waits => ?_⟩,
    fun state held => held.unresumed _ first⟩
  cases waits with
  | reaction stands resumes' => cases resumes.once first (.reaction stands resumes')
  | @job index _ stands resumes' =>
      have second : before.ResumesAt coroutine (.job (index + 1)) :=
        .job (by rw [taken]; exact stands) resumes'
      cases resumes.once first second

/-! ## Changes of one async function -/

/-- Apart from one async function, all stay in their states, and at most one resumption of this
one is added. -/
structure Resteers (before after : Machine σ) (coroutine : ObjectId) : Prop where
  waits : ∃ place, ∀ {other position}, after.ResumesAt other position ->
    before.ResumesAt other position ∨ other = coroutine ∧ position = place
  states : ∀ {other state}, other ≠ coroutine -> before.asyncState? other = some state ->
    after.asyncState? other = some state

namespace Resteers

/-- What is in hand stays so, apart from the async function. -/
theorem inHand
    (resteers : before.Resteers after coroutine)
    {other : ObjectId}
    {state : CoroutineState × Bool}
    (held : before.InHand other state)
    (unlike : other ≠ coroutine) :
    after.InHand other state where
  state := resteers.states unlike held.state
  unresumed _ waits := by
    obtain ⟨_, added⟩ := resteers.waits
    rcases added waits with old | ⟨same, _⟩
    · exact held.unresumed _ old
    · exact unlike same

/-- The async function was in hand, and it is suspended if it is resumed now. -/
theorem resumesOnce
    (resteers : before.Resteers after coroutine)
    (resumes : before.ResumesOnce)
    (unresumed : ∀ place, ¬ before.ResumesAt coroutine place)
    (suspended : ∀ {place}, after.ResumesAt coroutine place ->
      after.asyncState? coroutine = some (.suspendedYield, true)) :
    after.ResumesOnce := by
  obtain ⟨place, added⟩ := resteers.waits
  refine ⟨fun {other position} waits => ?_, fun {other position last} waits others => ?_⟩
  · by_cases same : other = coroutine
    · subst same
      exact suspended waits
    · rcases added waits with old | ⟨impossible, _⟩
      · exact resteers.states same (resumes.suspended old)
      · exact absurd impossible same
  · rcases added waits with old | ⟨rfl, rfl⟩
    · rcases added others with older | ⟨rfl, rfl⟩
      · exact resumes.once old older
      · exact absurd old (unresumed _)
    · rcases added others with older | ⟨_, rfl⟩
      · exact absurd older (unresumed _)
      · rfl

end Resteers
end Machine
/-- A frame that suspends out of place at a visible sight has an excuse. -/
theorem Sight.Visible.excused
    {sight : Sight σ}
    (visible : sight.Visible)
    {misstep : Misstep}
    {frame : Frame}
    (strays : sight.misstep = some (misstep, frame)) :
    frame.Excused misstep := by
  obtain ⟨intrinsics, config, world, origins, leads, -, excuses⟩ := visible.founded.2
  exact (excuses misstep frame strays).resolve_left (Stage.not_lax_of_blank leads)

/-- Wherever a frame of verified code raises an error about its suspension, it is the frame of
a script of a kind that suspends, which finds itself outside of coroutines, or the frame of a
generator whose code the initial yield does not divide, which misses the initial yield or
comes to it once more. No async function raises such an error. -/
theorem verified_suspends_in_place
    {chunk : Chunk}
    {limit : Nat}
    (bounded : limit <= Chunk.maxRegister)
    (verified : chunk.verify limit = .ok ())
    {sight : Sight σ}
    (visible : sight.Visible)
    {misstep : Misstep}
    {frame : Frame}
    (strays : sight.misstep = some (misstep, frame))
    (enclosed : chunk.Encloses frame.template.chunk) :
    (misstep = .outsideCoroutineFrame ∨ misstep = .outsideCoroutine) ∧
        frame.function = none ∧ frame.template.kind.suspends = true ∨
      (misstep = .missedInitialYield ∨ misstep = .inGenerator) ∧
        frame.template.kind.isGenerator = true ∧ ∀ border, ¬ frame.template.Divided border := by
  have accepted : chunk.Accepted := ⟨limit, bounded, verified⟩
  exact visible.excused strays (accepted.encloses enclosed)

/-- A script that calls a generator which returns before its initial yield. -/
def hastyScript : Chunk where
  info := { name := "main", kind := .script }
  code := #[⟨.createClosure 0 0, none⟩, ⟨.loadUndefined 1, none⟩, ⟨.call 0 0 1 0 0, none⟩,
    ⟨.return 0, none⟩]
  registerCount := 2
  functions := [{
    info := { name := "gen", kind := .generator }
    code := #[⟨.loadUndefined 0, none⟩, ⟨.return 0, none⟩, ⟨.initialYield, none⟩]
    registerCount := 1 }]

/-- A script of an async kind, which awaits. -/
def awaitingScript : Chunk where
  info := { name := "main", kind := .async }
  code := #[⟨.loadUndefined 0, none⟩, ⟨.await 0 0, none⟩, ⟨.return 0, none⟩]
  registerCount := 1

/-- The run of a script, up to where the watch picks something. A failure is thrown with its
text. -/
def scriptRun
    (script : Chunk)
    (watch : Sight Unit -> Bool) :
    EStateM.Result (Stop Unit) (Machine Unit) Value :=
  Exec.runProgram
    (.request (.execute script) fun outcome =>
      .finish (outcome.mapError fun failure => .internalError failure.text))
    (Env.watched 10 watch) (Builtins.newMachine {} ())

/-- The generator of the script has an excuse where it misses its initial yield. -/
theorem verified_suspends_in_place_hastyScript :
    ∃ sight ∈ Sight.ofRun? (scriptRun hastyScript fun sight => sight.misstep.isSome),
      ∃ frame, sight.misstep = some (.missedInitialYield, frame) ∧
        ∀ border, ¬ frame.template.Divided border := by
  have seen : ∃ sight ∈ Sight.ofRun? (scriptRun hastyScript fun sight => sight.misstep.isSome),
      ∃ stray ∈ sight.misstep, stray.1 = .missedInitialYield ∧
        (stray.2.template.chunk.verify Chunk.defaultMaxRegisters).toBool = true := by
    decide +kernel
  obtain ⟨sight, interrupted, ⟨misstep, frame⟩, strays, rfl, accepted⟩ := seen
  have verified := Chunk.verify_of_toBool accepted
  have visible : sight.Visible := Sight.visible_of_ofRun? interrupted
  obtain ⟨outside, -⟩ | ⟨-, -, undivided⟩ :=
    verified_suspends_in_place (by decide) verified visible strays .self
  · rcases outside with impossible | impossible <;> cases impossible
  · exact ⟨sight, interrupted, frame, strays, undivided⟩

/-- The verification accepts both scripts, and the execution of each fails with an internal
error about a suspension. -/
theorem verified_scripts_suspend_out_of_place :
    hastyScript.verify Chunk.defaultMaxRegisters = .ok () ∧
      Exception.ofRun? (scriptRun hastyScript fun _ => false) =
        some (.internalError
          "Uncaught InternalError: generator prologue did not reach InitialYield") ∧
      awaitingScript.verify Chunk.defaultMaxRegisters = .ok () ∧
        Exception.ofRun? (scriptRun awaitingScript fun _ => false) =
          some (.internalError
            "Uncaught InternalError: suspension outside a coroutine frame") := by
  decide +kernel

end ScriptVM

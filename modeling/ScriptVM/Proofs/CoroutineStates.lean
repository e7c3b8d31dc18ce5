import ScriptVM.Proofs.KeptObjects
import ScriptVM.Proofs.Reachable

/-!
# States of coroutines

Between two instructions, and between the programs of an embedder, a coroutine holds a frame
exactly while it is suspended, and it runs exactly while one frame on the stack belongs to it.
One that has completed stays so. Resuming it, however often, runs nothing and gives what the
mode asks for, and a generator that runs refuses to be resumed.
-/

namespace ScriptVM

variable {σ α : Type} {id : ObjectId} {machine : Machine σ} {before after : Stage σ}
variable {origins : Origins} {coroutine : Coroutine}

/-! ## Completed coroutines stay completed -/

/-- The coroutine of an object has completed. -/
def Machine.HasCompleted
    (machine : Machine σ)
    (id : ObjectId) : Prop :=
  ∃ coroutine, machine.coroutine? id = some coroutine ∧ coroutine.state = .completed

namespace Heap

variable {before after : Heap ObjectKind} {id : ObjectId} {origins : Origins}

/-- A change of a tidy heap lets a coroutine be a coroutine. -/
theorem exists_coroutine_of_change
    (change : HeapChange origins before after)
    (tidy : before.Tidy)
    {coroutine : Coroutine}
    (present : before.payload? id = some (.coroutine coroutine)) :
    ∃ later, after.payload? id = some (.coroutine later) := by
  cases change with
  | allocate prototype kind =>
      refine ⟨coroutine, ?_⟩
      unfold payload? at present ⊢
      rw [tidy.get?_allocate]
      split
      · next same =>
          rw [← same, tidy.allocated_dead] at present
          cases present
      · exact present
  | define => exact ⟨coroutine, (payload?_define ..).trans present⟩
  | setValueAt => exact ⟨coroutine, (payload?_setValueAt ..).trans present⟩
  | remove => exact ⟨coroutine, (payload?_remove ..).trans present⟩
  | setPrototype => exact ⟨coroutine, (payload?_setPrototype ..).trans present⟩
  | preventExtensions => exact ⟨coroutine, (payload?_preventExtensions ..).trans present⟩
  | modifyPayload target change evolves =>
      rw [payload?_modifyPayload]
      split
      · next same =>
          subst same
          rw [present, Option.map_some]
          have evolved := (evolves _ present).1
          generalize change (.coroutine coroutine) = kind at evolved
          cases evolved with
          | same => exact ⟨coroutine, rfl⟩
          | coroutine _ state frame => exact ⟨_, rfl⟩
      · exact ⟨coroutine, present⟩

end Heap

/-- A transition leaves a coroutine completed if no collection may free its object. -/
theorem Transition.hasCompleted
    (transition : Transition before after)
    (coherent : before.Coherent)
    (strict : ¬ before.origins.lax)
    (spared : before.origins.spared id)
    (completed : before.machine.HasCompleted id) :
    after.machine.HasCompleted id := by
  have beside : ∀ {later : Machine σ}, later.heap = before.machine.heap ->
      later.HasCompleted id := by
    intro later heap
    obtain ⟨coroutine, present, ended⟩ := completed
    refine ⟨coroutine, Machine.coroutine?_eq_some.2 ?_, ended⟩
    rw [heap]
    exact Machine.coroutine?_eq_some.1 present
  cases transition with
  | heap origins machine heap change tended =>
      obtain ⟨coroutine, present, ended⟩ := completed
      have present := Machine.coroutine?_eq_some.1 present
      have tidy := (coherent.orderly.resolve_left strict).tidy
      obtain ⟨later, stands⟩ := Heap.exists_coroutine_of_change change tidy present
      refine ⟨later, Machine.coroutine?_eq_some.2 stands, ?_⟩
      rcases tended.resolve_left strict tidy id later stands with old | ⟨_, stays⟩
      · cases present.symm.trans old
        exact ended
      · exact stays coroutine present ended
  | consult origins machine object name template slot =>
      obtain ⟨caches, same⟩ := machine.cachedLookup_machine object name template.id slot
      rw [same]
      exact beside rfl
  | remember origins machine object name template slot =>
      obtain ⟨caches, same⟩ := machine.rememberOwn_machine object name template.id slot
      rw [same]
      exact beside rfl
  | replace origins machine => exact beside machine.heap_popFrame
  | pop origins machine => exact beside machine.heap_popFrame
  | capture origins machine top nested => exact beside (machine.heap_captureClosure nested)
  | detach origins machine first => exact beside (machine.heap_detachFrom first)
  | collect origins machine kept spares =>
      obtain ⟨coroutine, present, ended⟩ := completed
      have present := Machine.coroutine?_eq_some.1 present
      obtain ⟨object, live, holds⟩ := Option.map_eq_some_iff.1 present
      obtain ⟨later, survives⟩ := Heap.contains_iff.1
        (spares id spared (Heap.contains_iff.2 ⟨object, live⟩))
      have stands : (machine.collectGarbage kept).2.heap.payload? id = some later.payload := by
        unfold Heap.payload?
        rw [survives]
        rfl
      have old := machine.payload?_collectGarbage kept stands
      refine ⟨coroutine, Machine.coroutine?_eq_some.2 ?_, ended⟩
      rw [stands, ← old, present]
  | _ => exact beside rfl

/-- So does any number of transitions. -/
theorem Stage.Leads.hasCompleted
    (leads : before.Leads after)
    (coherent : before.Coherent)
    (strict : ¬ before.origins.lax)
    (spared : before.origins.spared id)
    (completed : before.machine.HasCompleted id) :
    after.machine.HasCompleted id := by
  induction leads with
  | refl => exact completed
  | tail reached transition step =>
      have kept := Stage.Leads.keeps reached
      refine transition.hasCompleted (Stage.Leads.coherent reached coherent) ?_ ?_ step
      · rw [kept.origins.lax]
        exact strict
      · rw [kept.origins.spared]
        exact spared

/-! ## What follows a sight -/

/-- The number of frames below the run that a machine is in: its lowest frame is the innermost
one that returns to native code. -/
def Machine.runBase (machine : Machine σ) : Nat :=
  (machine.stack.reverse.dropWhile fun frame => frame.returnTo != .boundary).length - 1

/-- A sight is one between two instructions, or between two programs of an embedder. -/
def Sight.AtBoundary (sight : Sight σ) : Prop :=
  sight.between = true ∨ sight.machine.Settled

/-- One boundary follows another while an object lives: the run that a machine is in goes on,
or a host program runs on the machine, as native functions have it do in the middle of a run. -/
inductive Sight.Follows
    (id : ObjectId)
    (before : Sight σ) : Sight σ -> Prop
  | instructions {fuel : Nat} {watch : Sight σ -> Bool} {after : Sight σ} {last : Machine σ} :
      before.between = true -> after.between = true ->
      (∀ sight : Sight σ, sight.machine.heap.contains id = false -> watch sight = true) ->
      Exec.runFrames before.machine.runBase (Env.watched fuel watch) before.machine =
        .error (.interrupted after) last ->
      Follows id before after
  | within {fuel : Nat} {watch : Sight σ -> Bool} {program : HostProgram σ}
      {after : Sight σ} {last : Machine σ} :
      after.between = true ->
      (∀ sight : Sight σ, sight.machine.heap.contains id = false -> watch sight = true) ->
      Exec.runProgram program (Env.watched fuel watch) before.machine =
        .error (.interrupted after) last ->
      Follows id before after
  | returned {fuel : Nat} {watch : Sight σ -> Bool} {program : HostProgram σ}
      {value : Value} {after : Machine σ} :
      (∀ sight : Sight σ, sight.machine.heap.contains id = false -> watch sight = true) ->
      Exec.runProgram program (Env.watched fuel watch) before.machine = .ok value after ->
      Follows id before { machine := after }
  | threw {fuel : Nat} {watch : Sight σ -> Bool} {program : HostProgram σ}
      {exception : Exception} {after : Machine σ} :
      (∀ sight : Sight σ, sight.machine.heap.contains id = false -> watch sight = true) ->
      Exec.runProgram program (Env.watched fuel watch) before.machine =
        .error (.thrown exception) after ->
      Follows id before { machine := after }

/-- All coroutines that run have their frames on the stack, between two instructions there is
a run, and an object is not to be freed. -/
def Sight.Poised
    (id : ObjectId)
    (sight : Sight σ) : Prop :=
  ∃ origins : Origins, Stage.Coherent ⟨origins, sight.machine⟩ ∧ ¬ origins.lax ∧
    origins.spared id ∧ sight.machine.Manned none ∧
    (sight.between = true -> Stage.Paused ⟨origins, sight.machine⟩)

/-- What is spared does not matter for coherence. -/
theorem Stage.Coherent.sparing
    (coherent : Coherent ⟨origins, machine⟩)
    (spared : ObjectId -> Prop) :
    Coherent ⟨{ origins with spared }, machine⟩ where
  nested := coherent.nested
  stack frame member :=
    ⟨(coherent.stack frame member).template, (coherent.stack frame member).equipped,
      (coherent.stack frame member).placed⟩
  loose frame known :=
    ⟨(coherent.loose frame known).template, (coherent.loose frame known).equipped,
      (coherent.loose frame known).placed⟩
  objects id kind present := by
    have covered := coherent.objects id kind present
    cases kind with
    | function closure => exact ⟨covered.template, covered.equipped, covered.lexical⟩
    | coroutine coroutine => exact covered
    | _ => trivial
  orderly := coherent.orderly
  returns := coherent.returns

/-- Where a run is paused its frames begin above the base of the machine. -/
theorem Stage.Paused.inRun
    {watch : Sight σ -> Bool}
    (ready : Stage.Ready watch ⟨origins, machine⟩)
    (strict : ¬ origins.lax)
    (paused : Stage.Paused ⟨origins, machine⟩) :
    ∃ below home depth, Stage.InRun watch below home depth ⟨origins, machine⟩ ∧
      below.length = machine.runBase := by
  obtain ⟨below, home, depth, running, hosts⟩ := paused
  refine ⟨below, home, depth, ⟨ready, running, hosts⟩, ?_⟩
  obtain ⟨frame, known, returns⟩ := hosts.known
  obtain ⟨run, frames, standing⟩ := running.frames
  have native : home.returnTo = .boundary :=
    returns ▸ ready.coherent.returns.resolve_left strict frame known
  have standing : machine.stack = below ++ run := standing
  cases run with
  | nil => exact frames.elim
  | cons lowest inner =>
      have lowestNative : (lowest.returnTo != .boundary) = false := by
        rw [frames.1.returnTo, native]
        rfl
      have others : ∀ frame ∈ inner.reverse, (frame.returnTo != .boundary) = true := by
        intro frame member
        exact bne_iff_ne.2 (frames.2.1 frame (List.mem_reverse.1 member)).returnTo
      unfold Machine.runBase
      rw [standing, List.reverse_append, List.reverse_cons, List.append_assoc,
        List.dropWhile_append_of_pos others, List.singleton_append, List.dropWhile_cons,
        if_neg (by rw [lowestNative]; exact Bool.false_ne_true), List.length_cons,
        List.length_reverse, Nat.add_sub_cancel]

namespace Sight

variable {id : ObjectId} {before after sight : Sight σ}

/-- A visible sight at a boundary stands, whatever object is looked at. -/
theorem Visible.poised (visible : sight.Visible) (boundary : sight.AtBoundary) (id : ObjectId) :
    sight.Poised id := by
  obtain ⟨intrinsics, config, world, origins, leads, paused, -⟩ := visible.founded.2
  have strict : ¬ origins.lax := Stage.not_lax_of_blank leads
  have coherent := leads.coherent (Stage.blank_coherent intrinsics config world)
  refine ⟨{ origins with spared := fun other => other = id }, coherent.sparing _, strict, rfl,
    ?_, fun between => ?_⟩
  · rcases boundary with between | settled
    · obtain ⟨_, _, _, running, _⟩ := paused between
      exact running.manned.resolve_left strict
    · exact settled.rests.2
  · obtain ⟨below, home, depth, running, hosts⟩ := paused between
    exact ⟨below, home, depth, ⟨running.frames, running.depth, running.manned⟩, hosts.known,
      hosts.due⟩

/-- A traced computation leads from a sight that stands to another one, with what had completed
still completed. -/
theorem Poised.later
    {origins later : Origins}
    (leads : Stage.Leads ⟨origins, before.machine⟩ ⟨later, after.machine⟩)
    (coherent : Stage.Coherent ⟨origins, before.machine⟩)
    (strict : ¬ origins.lax)
    (spared : origins.spared id)
    (manned : after.machine.Manned none)
    (paused : after.between = true -> Stage.Paused ⟨later, after.machine⟩) :
    after.Poised id ∧ (before.machine.HasCompleted id -> after.machine.HasCompleted id) := by
  have kept := leads.keeps.origins
  refine ⟨⟨later, leads.coherent coherent, ?_, ?_, manned, paused⟩,
    leads.hasCompleted coherent strict spared⟩
  · rw [kept.lax]
    exact strict
  · rw [kept.spared]
    exact spared

/-- The boundary that follows one that stands does so too, unless the object is gone, and what
had completed is completed still. -/
theorem Follows.poised
    (follows : before.Follows id after)
    (poised : before.Poised id)
    (live : after.machine.heap.contains id = true) :
    after.Poised id ∧ (before.machine.HasCompleted id -> after.machine.HasCompleted id) := by
  obtain ⟨origins, coherent, strict, spared, manned, paused⟩ := poised
  have ready : ∀ watch : Sight σ -> Bool,
      (∀ sight : Sight σ, sight.machine.heap.contains id = false -> watch sight = true) ->
      Stage.Ready watch ⟨{ origins with spared := fun other => other = id }, before.machine⟩ :=
    fun watch watches => ⟨coherent.sparing _, fun other same sight gone =>
      watches sight (same ▸ gone), Or.inr manned⟩
  have shown : Stage.Shows
      ⟨{ origins with spared := fun other => other = id }, before.machine⟩ after ->
      after.between = true ->
      after.Poised id ∧ (before.machine.HasCompleted id -> after.machine.HasCompleted id) := by
    intro shows between
    cases shows with
    | reached later leads paused =>
        have strictly : ¬ later.lax := by
          rw [leads.keeps.origins.lax]
          exact strict
        obtain ⟨_, _, _, running, _⟩ := paused between
        exact Poised.later leads (coherent.sparing _) strict rfl
          (running.manned.resolve_left strictly) paused
    | freed other same gone =>
        have same : other = id := same
        rw [same, live] at gone
        cases gone
  have ended : ∀ {watch : Sight σ -> Bool} {later : Origins}
      {machine : Machine σ},
      Stage.Ready watch ⟨{ origins with spared := fun other => other = id }, before.machine⟩ ->
      Stage.Leads ⟨{ origins with spared := fun other => other = id }, before.machine⟩
        ⟨later, machine⟩ ->
      Stage.SameCalls ⟨{ origins with spared := fun other => other = id }, before.machine⟩
        ⟨later, machine⟩ ->
      Sight.Poised id { machine } ∧
        (before.machine.HasCompleted id -> machine.HasCompleted id) := by
    intro watch later machine ready leads same
    have strictly : ¬ later.lax := by
      rw [leads.keeps.origins.lax]
      exact strict
    exact Poised.later leads ready.coherent strict rfl
      ((same.manned ready.manned).resolve_left strictly) fun impossible => by cases impossible
  cases follows with
  | @instructions fuel watch _ last pausedBefore between watches ran =>
      obtain ⟨below, home, depth, running, hosts⟩ := paused pausedBefore
      obtain ⟨lower, home, depth, inRun, base⟩ := Stage.Paused.inRun (ready watch watches) strict
        ⟨below, home, depth, ⟨running.frames, running.depth, running.manned⟩, hosts.known,
          hosts.due⟩
      have traced := Exec.traced_runFrames (Env.balanced_watched fuel watch) inRun
      dsimp only at traced
      rw [base, ran] at traced
      exact shown traced.2 between
  | @within fuel watch program _ last between watches ran =>
      have traced := Exec.Balanced.traced (Exec.runProgram program)
        (Env.balanced_watched fuel watch) (ready watch watches)
      dsimp only at traced
      rw [ran] at traced
      exact shown traced.2 between
  | @returned fuel watch program _ last watches ran
  | @threw fuel watch program _ last watches ran =>
      have traced := Exec.Balanced.traced (Exec.runProgram program)
        (Env.balanced_watched fuel watch) (ready watch watches)
      dsimp only at traced
      rw [ran] at traced
      obtain ⟨later, leads, same⟩ := traced
      exact ended (ready watch watches) leads same

/-- Any number of boundaries that follow one another while an object lives. -/
def LeadsOn
    (id : ObjectId)
    (before after : Sight σ) : Prop :=
  Relation.ReflTransGen
    (fun sight next => Follows id sight next ∧ next.machine.heap.contains id = true) before after

theorem LeadsOn.poised
    (leads : before.LeadsOn id after)
    (poised : before.Poised id)
    (completed : before.machine.HasCompleted id) :
    after.Poised id ∧ after.machine.HasCompleted id := by
  induction leads with
  | refl => exact ⟨poised, completed⟩
  | tail _ next step =>
      obtain ⟨later, keeps⟩ := next.1.poised step.1 next.2
      exact ⟨later, keeps step.2⟩

end Sight

/-! ## Coroutines in order -/

/-- The coroutine of an object holds a frame exactly while it is suspended, and exactly while it
runs one frame on the stack belongs to it. -/
structure Machine.InOrder
    (machine : Machine σ)
    (id : ObjectId)
    (coroutine : Coroutine) : Prop where
  parked : coroutine.frame.isSome = true ↔
    coroutine.state = .suspendedStart ∨ coroutine.state = .suspendedYield
  standing : (machine.frames.toList.countP fun frame => frame.coroutine == some id) =
    if coroutine.state = .running then 1 else 0

theorem Machine.countP_coroutine (machine : Machine σ) (id : ObjectId) :
    (machine.frames.toList.countP fun frame => frame.coroutine == some id) =
      machine.owners.count id := by
  unfold owners
  rw [List.count_filterMap]

theorem Machine.Manned.inOrder
    (manned : machine.Manned none)
    (orderly : machine.heap.Orderly)
    (present : machine.coroutine? id = some coroutine) :
    machine.InOrder id coroutine where
  parked := by
    rw [(orderly.shelved id coroutine (coroutine?_eq_some.1 present)).parked]
    cases coroutine.state <;> simp [CoroutineState.isSuspended]
  standing := by
    have runs : coroutine.state = .running ↔ id ∈ machine.owners := by
      rw [← manned.runs_iff]
      refine ⟨fun running => ⟨coroutine, present, running⟩, ?_⟩
      rintro ⟨found, same, running⟩
      cases present.symm.trans same
      exact running
    have distinct : machine.owners.Nodup := machine.map_routines ▸ manned.distinct
    rw [countP_coroutine, distinct.count]
    exact if_congr runs.symm rfl rfl

/-! ## Resuming what cannot be resumed -/

namespace Machine

/-- A value is the result object of a finished iteration, with a value. -/
def HoldsResult
    (machine : Machine σ)
    (value result : Value) : Prop :=
  ∃ id, result = .object id ∧ machine.heap.getOwn? id "value" = some (.plain value) ∧
    machine.heap.getOwn? id "done" = some (.plain (.boolean true))

/-- What a completed generator answers to a resumption. -/
inductive AnswersCompleted (machine : Machine σ) :
    ResumeMode × Value -> Except Exception Value -> Prop
  | next {sent result : Value} :
      machine.HoldsResult .undefined result -> AnswersCompleted machine (.next, sent) (.ok result)
  | «return» {sent result : Value} :
      machine.HoldsResult sent result -> AnswersCompleted machine (.return, sent) (.ok result)
  | throw {sent : Value} :
      AnswersCompleted machine (.throw, sent) (.error (.value sent))

/-- Objects that are there stay as they are. -/
def KeepsObjects (before after : Machine σ) : Prop :=
  ∀ id object, before.heap.get? id = some object -> after.heap.get? id = some object

variable {before after machine : Machine σ}

theorem KeepsObjects.coroutine?
    (keeps : before.KeepsObjects after)
    {id : ObjectId}
    {coroutine : Coroutine}
    (present : before.coroutine? id = some coroutine) :
    after.coroutine? id = some coroutine := by
  obtain ⟨object, live, holds⟩ := Option.map_eq_some_iff.1 (coroutine?_eq_some.1 present)
  refine coroutine?_eq_some.2 ?_
  unfold Heap.payload?
  rw [keeps id object live]
  exact congrArg some holds

theorem KeepsObjects.answersCompleted
    (keeps : before.KeepsObjects after)
    {call : ResumeMode × Value}
    {answer : Except Exception Value}
    (answers : before.AnswersCompleted call answer) :
    after.AnswersCompleted call answer := by
  have held : ∀ {value result : Value}, before.HoldsResult value result ->
      after.HoldsResult value result := by
    rintro value result ⟨id, same, first, second⟩
    obtain ⟨object, live, _⟩ := Option.bind_eq_some_iff.1 first
    have unchanged : after.heap.getOwn? id = before.heap.getOwn? id := by
      funext key
      unfold Heap.getOwn?
      rw [live, keeps id object live]
    exact ⟨id, same, unchanged ▸ first, unchanged ▸ second⟩
  cases answers with
  | next result => exact .next (held result)
  | «return» result => exact .return (held result)
  | throw => exact .throw

/-- Making a result object adds a new object and changes nothing else. -/
theorem iterationResult_holds (tidy : machine.heap.Tidy) (value : Value) :
    (machine.iterationResult value true).2.HoldsResult value
        (machine.iterationResult value true).1 ∧
      machine.KeepsObjects (machine.iterationResult value true).2 ∧
      (machine.iterationResult value true).2.heap.Tidy ∧
      (machine.iterationResult value true).2.frames = machine.frames := by
  have live := tidy.allocated_live (some machine.intrinsics.objectPrototype) .ordinary
  have dead := tidy.allocated_dead (some machine.intrinsics.objectPrototype) .ordinary
  have made := tidy.allocate (some machine.intrinsics.objectPrototype) .ordinary
  have others := tidy.get?_allocate (some machine.intrinsics.objectPrototype) .ordinary
  generalize allocated : machine.heap.allocate (some machine.intrinsics.objectPrototype)
    .ordinary = pair at live dead made others
  obtain ⟨id, heap⟩ := pair
  have result : machine.iterationResult value true = (.object id,
      { machine with heap :=
        (heap.define id "value" (.plain value)).define id "done" (.plain (.boolean true)) }) := by
    unfold iterationResult allocateOrdinary allocate
    rw [allocated]
    rfl
  rw [result]
  obtain ⟨first, withValue⟩ := Heap.exists_get?_define live "value" (.plain value)
  obtain ⟨second, withDone⟩ := Heap.exists_get?_define withValue "done" (.plain (.boolean true))
  have distinct : (machine.heap.fresh (some machine.intrinsics.objectPrototype)
      ObjectKind.ordinary).properties.keys.Nodup := .nil
  refine ⟨⟨id, rfl, ?_, ?_⟩, fun other object found => ?_, ?_, rfl⟩
  · rw [Heap.getOwn?_of_live withDone]
    exact PropertyTable.get?_put_of_ne (PropertyTable.nodup_keys_put distinct)
      (PropertyTable.get?_put_self distinct _ _) (by decide)
  · rw [Heap.getOwn?_of_live withDone]
    exact PropertyTable.get?_put_self (PropertyTable.nodup_keys_put distinct) _ _
  · have apart : id ≠ other := by
      rintro rfl
      cases dead.symm.trans found
    show Heap.get? (Heap.define _ id _ _) other = _
    rw [Heap.get?_define_of_ne apart, Heap.get?_define_of_ne apart, others, if_neg apart]
    exact found
  · exact (made.define id _ _).define id _ _

end Machine

namespace Exec

/-- Resume a generator once for each mode and value, and give all outcomes. -/
def resumeAll
    (generator : Value)
    (calls : List (ResumeMode × Value)) : Exec σ (List (Except Exception Value)) :=
  calls.mapM fun call => attempt (resumeGenerator generator call.1 call.2)

variable {env : Env σ} {machine : Machine σ} {id : ObjectId} {generator : Value}
  {coroutine : Coroutine}

theorem generator?_of_coroutine?
    (named : generator.objectId? = some id)
    (present : machine.coroutine? id = some coroutine)
    (kind : coroutine.kind = .generator) :
    generator? machine generator = some (id, coroutine) := by
  simp [generator?, named, present, kind]

/-- A generator that runs is not resumed. -/
theorem resumeGenerator_of_running
    (found : generator? machine generator = some (id, coroutine))
    (running : coroutine.state = .running)
    (mode : ResumeMode)
    (value : Value) :
    resumeGenerator generator mode value env machine =
      .error (.thrown (.typeError "Generator is already running")) machine := by
  unfold resumeGenerator
  rw [ask_bind, found]
  dsimp only
  rw [running]
  rfl

/-- A completed generator answers each resumption by its mode and stays as it is. -/
theorem resumeGenerator_of_completed
    (unwatched : ∀ sight, env.watch sight = false)
    (tidy : machine.heap.Tidy)
    (found : generator? machine generator = some (id, coroutine))
    (completed : coroutine.state = .completed)
    (call : ResumeMode × Value) :
    ∃ answer after, attempt (resumeGenerator generator call.1 call.2) env machine = .ok answer after ∧
      machine.KeepsObjects after ∧ after.heap.Tidy ∧ after.frames = machine.frames ∧
      after.AnswersCompleted call answer := by
  obtain ⟨mode, sent⟩ := call
  have resumed : resumeGenerator generator mode sent env machine =
      resumeCompleted mode sent env machine := by
    unfold resumeGenerator
    rw [ask_bind, found]
    dsimp only
    rw [completed]
  have made : ∀ value, iterationResult value true env machine =
      .ok (machine.iterationResult value true).1 (machine.iterationResult value true).2 := by
    intro value
    unfold iterationResult change
    simp [unwatched]
  unfold attempt
  rw [resumed]
  cases mode with
  | next =>
      obtain ⟨holds, keeps, stillTidy, frames⟩ := Machine.iterationResult_holds tidy .undefined
      unfold resumeCompleted
      dsimp only
      rw [made]
      exact ⟨_, _, rfl, keeps, stillTidy, frames, .next holds⟩
  | «return» =>
      obtain ⟨holds, keeps, stillTidy, frames⟩ := Machine.iterationResult_holds tidy sent
      unfold resumeCompleted
      dsimp only
      rw [made]
      exact ⟨_, _, rfl, keeps, stillTidy, frames, .return holds⟩
  | throw => exact ⟨_, machine, rfl, fun _ _ live => live, tidy, rfl, .throw⟩

/-- So it answers any number of resumptions. -/
theorem resumeAll_of_completed
    (unwatched : ∀ sight, env.watch sight = false)
    (tidy : machine.heap.Tidy)
    (named : generator.objectId? = some id)
    (present : machine.coroutine? id = some coroutine)
    (kind : coroutine.kind = .generator)
    (completed : coroutine.state = .completed)
    (calls : List (ResumeMode × Value)) :
    ∃ answers after, resumeAll generator calls env machine = .ok answers after ∧
      machine.KeepsObjects after ∧ after.frames = machine.frames ∧
      List.Forall₂ after.AnswersCompleted calls answers := by
  unfold resumeAll
  induction calls generalizing machine with
  | nil => exact ⟨[], machine, rfl, fun _ _ live => live, rfl, .nil⟩
  | cons call rest step =>
      obtain ⟨answer, middle, ran, keeps, stillTidy, frames, answers⟩ :=
        resumeGenerator_of_completed unwatched tidy
          (generator?_of_coroutine? named present kind) completed call
      obtain ⟨others, after, went, keepsMore, sameFrames, all⟩ :=
        step stillTidy (keeps.coroutine? present)
      refine ⟨answer :: others, after, ?_, fun other object live =>
        keepsMore other object (keeps other object live), sameFrames.trans frames,
        .cons (keepsMore.answersCompleted answers) all⟩
      rw [List.mapM_cons, bind_of_ok _ ran, bind_of_ok _ went]
      rfl

end Exec

/-- At every boundary of every run each coroutine holds a frame exactly while it is suspended,
and one frame on the stack belongs to it exactly while it runs. What has completed stays so for
as long as the object lives, without a frame that could execute an instruction of it. A running
generator refuses every resumption and leaves the machine as it is; a completed one answers any
number of them by their modes. -/
theorem coroutine_states
    {sight : Sight σ}
    (visible : sight.Visible)
    (boundary : sight.AtBoundary)
    {id : ObjectId}
    {coroutine : Coroutine}
    (present : sight.machine.coroutine? id = some coroutine) :
    sight.machine.InOrder id coroutine ∧
    (coroutine.state = .completed -> ∀ later, sight.LeadsOn id later ->
      ∃ kept, later.machine.coroutine? id = some kept ∧ kept.state = .completed ∧
        ∀ frame ∈ later.machine.frames, frame.coroutine ≠ some id) ∧
    ∀ generator : Value, generator.objectId? = some id -> coroutine.kind = .generator ->
      (coroutine.state = .running -> ∀ env mode value,
        Exec.resumeGenerator generator mode value env sight.machine =
          .error (.thrown (.typeError "Generator is already running")) sight.machine) ∧
      (coroutine.state = .completed -> ∀ env : Env σ, (∀ sight, env.watch sight = false) ->
        ∀ calls, ∃ answers after,
          Exec.resumeAll generator calls env sight.machine = .ok answers after ∧
          after.coroutine? id = some coroutine ∧ after.frames = sight.machine.frames ∧
          List.Forall₂ after.AnswersCompleted calls answers) := by
  have poised := visible.poised boundary id
  refine ⟨?_, fun completed later leads => ?_, fun generator named kind => ⟨?_, ?_⟩⟩
  · obtain ⟨origins, coherent, strict, _, manned, _⟩ := poised
    exact manned.inOrder (coherent.orderly.resolve_left strict) present
  · obtain ⟨⟨_, _, _, _, manned, _⟩, kept, found, ended⟩ :=
      leads.poised poised ⟨coroutine, present, completed⟩
    refine ⟨kept, found, ended, fun frame member belongs => ?_⟩
    have rests : ¬ later.machine.Runs id := by
      rintro ⟨other, same, running⟩
      cases found.symm.trans same
      cases ended.symm.trans running
    exact manned.not_mem_owners rests
      (List.mem_filterMap.2 ⟨frame, Array.mem_toList_iff.2 member, belongs⟩)
  · intro running env mode value
    exact Exec.resumeGenerator_of_running (Exec.generator?_of_coroutine? named present kind)
      running mode value
  · intro completed env unwatched calls
    obtain ⟨answers, after, ran, keeps, frames, all⟩ := Exec.resumeAll_of_completed unwatched
      visible.reached.2.tidy named present kind completed calls
    exact ⟨answers, after, ran, keeps.coroutine? present, frames, all⟩

/-- A generator that yields once. -/
def yieldingChunk : Chunk where
  info := { name := "yielding", kind := .generator }
  code := #[⟨.initialYield, none⟩, ⟨.loadUndefined 0, none⟩, ⟨.yield 0 0, none⟩,
    ⟨.return 0, none⟩]
  registerCount := 1

/-- A script that gives such a generator. -/
def generatorScript : Chunk where
  info := { name := "script", kind := .script }
  code := #[⟨.createClosure 0 0, none⟩, ⟨.loadUndefined 1, none⟩, ⟨.call 0 0 1 0 0, none⟩,
    ⟨.return 0, none⟩]
  functions := [yieldingChunk]
  registerCount := 2

/-- An embedder makes the generator, resumes it to its end and keeps it as a global. -/
def generatorProgram : HostProgram Unit :=
  .request (.execute generatorScript) fun made =>
    match made with
    | .error _ => .finish (.ok .undefined)
    | .ok generator =>
        .request (.setGlobal "g" generator) fun _ =>
          .request (.resume .next generator .undefined) fun _ =>
            .request (.resume .next generator .null) fun _ => .finish (.ok generator)

/-- The run of the program until the generator is about to yield. -/
def yieldingRun : EStateM.Result (Stop Unit) (Machine Unit) Value :=
  Exec.runProgram generatorProgram
    (Env.watched 30 fun sight => sight.between &&
      sight.machine.top?.any fun frame => frame.coroutine.isSome && frame.next == 2)
    (Builtins.newMachine {} ())

/-- The whole run of the program. -/
def generatorRun : EStateM.Result (Stop Unit) (Machine Unit) Value :=
  (Builtins.newMachine {} ()).runWithin 30 generatorProgram

/-- The generator that is kept as a global. -/
def Machine.keptGenerator? (machine : Machine Unit) : Option (Value × ObjectId × Coroutine) := do
  let generator <- machine.getGlobal? "g"
  let id <- generator.objectId?
  let coroutine <- machine.coroutine? id
  return (generator, id, coroutine)

theorem Machine.keptGenerator?_spec
    {machine : Machine Unit}
    {generator : Value}
    (kept : (generator, id, coroutine) ∈ machine.keptGenerator?) :
    generator.objectId? = some id ∧ machine.coroutine? id = some coroutine := by
  obtain ⟨_, _, rest⟩ := Option.bind_eq_some_iff.1 kept
  obtain ⟨_, named, rest⟩ := Option.bind_eq_some_iff.1 rest
  obtain ⟨_, present, same⟩ := Option.bind_eq_some_iff.1 rest
  cases same
  exact ⟨named, present⟩

/-- While the generator is about to yield it runs in one frame and refuses to be resumed. In the
end it has completed, answers whatever it is resumed with, and still has completed after the
program runs again. -/
theorem coroutine_states_generatorProgram :
    (∃ sight ∈ Sight.ofRun? yieldingRun, ∃ kept ∈ sight.machine.keptGenerator?,
      kept.2.2.state = .running ∧ sight.machine.InOrder kept.2.1 kept.2.2 ∧
        Exec.resumeGenerator kept.1 .throw .null (Env.ofFuel 0) sight.machine =
          .error (.thrown (.typeError "Generator is already running")) sight.machine) ∧
    ∃ machine ∈ Machine.ofRun? generatorRun, ∃ kept ∈ machine.keptGenerator?,
      kept.2.2.state = .completed ∧
        (∃ answers after, Exec.resumeAll kept.1 [(.next, .null), (.throw, .null)]
          (Env.ofFuel 0) machine = .ok answers after ∧
            after.coroutine? kept.2.1 = some kept.2.2 ∧ answers.length = 2) ∧
        ∃ later : Machine Unit, later ∈ Machine.ofRun? (Exec.runProgram generatorProgram
            (Env.watched 30 fun sight => !sight.machine.heap.contains kept.2.1) machine) ∧
          ∃ coroutine, later.coroutine? kept.2.1 = some coroutine ∧
            coroutine.state = .completed := by
  constructor
  · have seen : ∃ sight ∈ Sight.ofRun? yieldingRun, ∃ kept ∈ sight.machine.keptGenerator?,
        sight.between = true ∧ kept.2.2.kind = .generator ∧ kept.2.2.state = .running := by
      decide +kernel
    obtain ⟨sight, interrupted, ⟨generator, id, coroutine⟩, kept, between, kind, running⟩ := seen
    obtain ⟨named, present⟩ := Machine.keptGenerator?_spec kept
    obtain ⟨order, _, resumed⟩ := coroutine_states (Sight.visible_of_ofRun? interrupted)
      (Or.inl between) present
    exact ⟨sight, interrupted, _, kept, running, order,
      (resumed generator named kind).1 running _ _ _⟩
  · have seen : ∃ machine ∈ Machine.ofRun? generatorRun, ∃ kept ∈ machine.keptGenerator?,
        kept.2.2.kind = .generator ∧ kept.2.2.state = .completed ∧
          ∃ later ∈ Machine.ofRun? (Exec.runProgram generatorProgram
            (Env.watched 30 fun sight => !sight.machine.heap.contains kept.2.1) machine),
            later.heap.contains kept.2.1 = true := by
      decide +kernel
    obtain ⟨machine, ended, ⟨generator, id, coroutine⟩, kept, kind, completed, later, went,
      live⟩ := seen
    obtain ⟨named, present⟩ := Machine.keptGenerator?_spec kept
    have settled : machine.Settled := by
      cases ran : generatorRun with
      | ok value after =>
          rw [ran] at ended
          cases ended
          exact .returned (.new {} ()) ran
      | error stop after =>
          rw [ran] at ended
          cases ended
    have follows : Sight.Follows id { machine } { machine := later } := by
      have watches : ∀ sight : Sight Unit, sight.machine.heap.contains id = false ->
          (!sight.machine.heap.contains id) = true := fun sight gone => by rw [gone]; rfl
      cases ran : Exec.runProgram generatorProgram
          (Env.watched 30 fun sight => !sight.machine.heap.contains id) machine with
      | ok value after =>
          rw [ran] at went
          cases went
          exact .returned watches ran
      | error stop after =>
          rw [ran] at went
          cases went
    obtain ⟨_, stays, resumed⟩ := coroutine_states (.between settled) (Or.inr settled) present
    obtain ⟨answers, after, all, same, _, matching⟩ :=
      (resumed generator named kind).2 completed (Env.ofFuel 0) (fun _ => rfl)
        [(.next, .null), (.throw, .null)]
    obtain ⟨coroutineLater, found, still, _⟩ :=
      stays completed { machine := later } (.single ⟨follows, live⟩)
    exact ⟨machine, ended, _, kept, completed, ⟨answers, after, all, same,
      matching.length_eq.symm⟩, later, went, coroutineLater, found, still⟩

end ScriptVM

import ScriptVM.Machine.Jobs
import ScriptVM.Proofs.Coroutines
import ScriptVM.Proofs.Discipline.Operations

/-!
# Calls, requests and their bounds

Calling or constructing anything is balanced, and so is whatever an embedder asks for.

So every invocation is balanced, by induction on the fuel that performs it: whatever an
embedder asks of a machine, and whatever program it runs, all machines on the way follow from
the first one by transitions, and where the run settles the same calls are under way as before.
-/

namespace ScriptVM

variable {σ : Type} {env : Env σ} {start : Stage σ}

namespace Builtins

open Exec

/-- Calling a built-in is balanced. -/
instance (builtin : Builtin) (receiver : Value) (arguments : List Value) :
    Balanced (run builtin receiver arguments : Exec σ Value) := by
  unfold run
  cases builtin <;> infer_instance

end Builtins

namespace Exec

variable {closure : Closure} {origins : Origins} (machine : Machine σ)

/-! ## Scripts -/

/-- The frame of a script runs a template that is made of its chunk, and it calls no
function. -/
theorem yields_scriptFrame (chunk : Chunk) :
    Yields start (fun frame stage => stage.origins.frame frame ∧ frame.coroutine = none ∧
        frame.function = none)
      ((change fun machine => machine.scriptFrame chunk : Exec σ Frame)
        env start.machine) := by
  let loaded := start.machine.addTemplate chunk
  let origins := start.origins.withTemplate loaded.1
  let scope : Scope := { this := .bound (.object loaded.2.intrinsics.global) }
  have load : start.Leads ⟨origins, loaded.2⟩ :=
    .single (.load start.origins start.machine chunk)
  have opened : Machine.Opened origins loaded.1 none #[] .boundary loaded.2
      ((Frame.start loaded.2.cells loaded.1 scope .boundary).1,
        { loaded.2 with cells := (Frame.start loaded.2.cells loaded.1 scope .boundary).2 }) :=
    Machine.opened_start loaded.2 loaded.1 scope .boundary
  have made : start.Leads ⟨origins.withFrame
      (Frame.start loaded.2.cells loaded.1 scope .boundary).1,
        { loaded.2 with cells := (Frame.start loaded.2.cells loaded.1 scope .boundary).2 }⟩ :=
    (load.trans opened.quiet.leads).tail
      (.open _ _ _ opened.fresh (opened.admitsScript (Or.inr .self)
        (Origins.places_of_bound rfl)) rfl)
  refine .change _ _ made ⟨⟨⟨rfl, rfl⟩, fun manned => ?_⟩, fun answer settled => ?_⟩
  · exact manned.imp id fun manned => manned.same (.refl _) rfl
  · cases settled
    exact ⟨Or.inr rfl, opened.fresh.coroutine, opened.function⟩

/-- Reporting what escapes from a computation keeps the calls if the computation
does. -/
theorem keepsCalls_reporting
    {computation : Exec σ α}
    (sound : env.Balanced)
    (ready : start.Ready env.watch)
    (kept : KeepsCalls start (computation env start.machine)) :
    KeepsCalls start (reporting computation env start.machine) := by
  refine .bind ready (kept.attempt.mono ?_) ?_
  · intro outcome stage _ settled
    cases outcome with
    | ok answer => exact settled
    | error exception => exact settled.elim
  · intro outcome stage _ ready
    cases outcome with
    | ok answer => exact .pure _ (.refl _)
    | error exception => exact Balanced.traced _ sound ready

instance (chunk : Chunk) :
    Balanced (runScript chunk : Exec σ (Except Failure Value)) where
  balancedIn env sound start ready := by
    refine KeepsCalls.bindYields _ ready (yields_scriptFrame chunk) ?_
    rintro frame stage _ ready ⟨known, free, script⟩
    have due : frame.Due := fun _ called => by
      rw [script] at called
      cases called
    refine KeepsCalls.bind ready
      (keepsCalls_reporting sound ready (traced_runBoundaryFrame sound ready known free due)) ?_
    intro outcome stage _ ready
    cases outcome with
    | error failure => exact .pure _ (.refl _)
    | ok value =>
        have drains : Balanced (do
            if <- ask fun machine => machine.config.drainMicrotasksOnExecute then
              match <- runMicrotasks with
              | .error failure => return .error failure
              | .ok _ => return .ok value
            else return .ok value : Exec σ (Except Failure Value)) := by
          refine .bind inferInstance fun drain => ?_
          split
          · refine .bind inferInstance fun outcome => ?_
            split <;> infer_instance
          · infer_instance
        exact Balanced.traced _ sound ready

instance (chunk : Chunk) : Balanced (executeChunk chunk : Exec σ (Except Failure Value)) := by
  unfold executeChunk
  refine .bind inferInstance fun verifies => ?_
  split
  · split <;> infer_instance
  · infer_instance

/-! ## Requests -/

instance (name : String) (value : Value) :
    Balanced (update fun machine => machine.setGlobal name value : Exec σ Unit) :=
  balanced_update _ fun _ machine _ => .defineRaw machine _ _ _

theorem sameCalls_collectGarbage {origins : Origins} (machine : Machine σ) (kept : List Value) :
    Stage.SameCalls ⟨origins, machine⟩ ⟨origins, (machine.collectGarbage kept).2⟩ := by
  unfold Machine.collectGarbage
  split
  · exact .refl _
  · next idle =>
      refine ⟨⟨rfl, rfl⟩, fun manned => manned.imp id fun manned => ?_⟩
      have routines : machine.routines = [] := by
        unfold Machine.routines
        simp at idle
        rw [idle.1]
        rfl
      refine ⟨fun id => ⟨?_, fun member => ?_⟩, manned.distinct, fun routine member => ?_⟩
      · rintro ⟨coroutine, present, running⟩
        refine (manned.runs id).1 ⟨coroutine, ?_, running⟩
        rw [Machine.coroutine?_eq_some] at present ⊢
        obtain ⟨object, survives, same⟩ := Option.map_eq_some_iff.1 present
        exact Option.map_eq_some_iff.2 ⟨object, Heap.get?_collect _ _ _ survives, same⟩
      · have none : id ∈ machine.routines.map Routine.id := member
        rw [routines] at none
        cases none
      · have none : routine ∈ machine.routines := member
        rw [routines] at none
        cases none

/-- A collection is watched, so it is made only if it frees nothing that is spared. -/
instance (kept : List Value) :
    Balanced (change fun machine => machine.collectGarbage kept :
      Exec σ (Option Heap.CollectionStats)) where
  balancedIn env _ start ready := by
    by_cases frees : ∃ id, start.origins.spared id ∧
        (start.machine.collectGarbage kept).2.heap.contains id = false
    · obtain ⟨id, spared, gone⟩ := frees
      have picked := ready.watched id spared
        { machine := (start.machine.collectGarbage kept).2 } gone
      unfold change
      dsimp only
      rw [if_pos picked]
      exact ⟨.machine _, .freed id spared gone⟩
    · refine .change _ start.origins (.single (.collect _ _ kept fun id spared _ => ?_))
        (sameCalls_collectGarbage start.machine kept)
      exact eq_true_of_ne_false fun gone => frees ⟨id, spared, gone⟩

/-- Changes of the jobs, of what is reported and of the embedder's own state are
quiet. -/
theorem Quietly.tables
    (jobs : EventLoop (Job σ) (HostProgram σ))
    (rejections : Rejections ObjectId)
    (unhandled : List Value)
    (hosts : Array (HostFunction σ))
    (world : σ) :
    Quietly origins machine { machine with jobs, rejections, unhandled, hosts, world } :=
  ⟨.single (.tables origins machine machine.symbols jobs rejections unhandled hosts
      machine.journal world),
    ⟨rfl, rfl⟩, fun _ => .refl machine.heap⟩

instance (event : PromiseEvent σ) : Balanced (note event) :=
  balanced_update _ fun _ machine _ => .note machine event

instance balanced_discardJobs :
    Balanced (change fun machine =>
      let (counts, jobs) := machine.jobs.discard
      (counts, { machine with jobs }) : Exec σ (Nat × Nat)) :=
  balanced_change _ fun _ machine _ => .tables machine _ _ _ _ _

/-- Answering a request is balanced. -/
instance (request : Request) : Balanced (answer request : Exec σ request.Response) := by
  cases request <;> (unfold answer; infer_instance)

/-! ## Host programs -/

theorem Quietly.registerHost
    (name : String)
    (arity : Nat)
    (body : HostFunction σ) :
    Quietly origins machine (machine.registerHost name arity body).2 :=
  (tables machine machine.jobs machine.rejections machine.unhandled _ machine.world).trans
    ((ofPasses (Discipline.passes_createNative _ rfl arity)).trans (defineRaw _ _ _ _))

/-- Running a host program is balanced. -/
instance (program : HostProgram σ) : Balanced (runProgram program) := by
  induction program with
  | finish outcome =>
      unfold runProgram
      infer_instance
  | read next step =>
      unfold runProgram
      exact .bind inferInstance step
  | write world next step =>
      unfold runProgram
      exact (balanced_update _ fun _ machine _ => .tables machine _ _ _ _ world).bind
        fun _ => step
  | request request next step =>
      unfold runProgram
      exact .bind inferInstance step
  | register name arity body next _ step =>
      unfold runProgram
      exact (balanced_change _ fun _ machine _ => .registerHost machine name arity body).bind step
  | enqueueTask body next _ step =>
      unfold runProgram
      exact (balanced_update _ fun _ machine _ => .tables machine _ _ _ _ _).bind
        fun _ => step
  | enqueueMicrotask body next _ step =>
      unfold runProgram
      exact (balanced_update _ fun _ machine _ => .submitJob machine (.host body)).bind
        fun _ => step

instance (id : HostId) (receiver : Value) (arguments : List Value) :
    Balanced (runHost id receiver arguments : Exec σ Value) := by
  unfold runHost
  refine .bind inferInstance fun body => ?_
  split <;> infer_instance

/-! ## Functions -/

instance (behavior : NativeBehavior) (receiver : Value) (arguments : List Value) :
    Balanced (runNative behavior receiver arguments : Exec σ Value) := by
  unfold runNative
  cases behavior <;> infer_instance

/-- The frame is known, was made for some code, and has not executed anything. -/
structure Made
    (template : Template)
    (frame : Frame)
    (stage : Stage σ) : Prop where
  known : stage.origins.frame frame
  code : frame.template = template
  fresh : ∃ cells, frame.Fresh cells

namespace Made

variable {template : Template} {frame : Frame}

theorem free (made : Made template frame start) : frame.coroutine = none :=
  made.fresh.choose_spec.coroutine

/-- The frame of a function that does not suspend is due. -/
theorem due (made : Made template frame start) (plain : template.kind.suspends = false) :
    frame.Due := by
  intro _ _
  rw [made.code]
  exact plain

end Made

/-- A frame that is made for a closure of known code, in a scope that came up, is known. -/
theorem yields_opened
    {operation : Machine σ -> Frame × Machine σ}
    (id : ObjectId)
    (coherent : start.Coherent)
    (vouched : start.origins.Vouches closure)
    (placed : start.origins.Places (operation start.machine).1.scope)
    (opened : Machine.Opened start.origins closure.template id closure.upvalues .boundary
      start.machine (operation start.machine)) :
    Yields start (Made closure.template) (change operation env start.machine) := by
  refine .change operation (start.origins.withFrame (operation start.machine).1)
    (opened.quiet.leads.tail
      (.open _ _ _ opened.fresh (opened.admits vouched placed) opened.returnTo))
    ⟨⟨opened.quiet.same, fun manned => ?_⟩, fun answer settled => ?_⟩
  · exact opened.quiet.manned coherent manned
  · cases settled
    exact ⟨Or.inr rfl, opened.template, _, opened.fresh⟩

/-- Calling a closure of known code keeps the calls. -/
theorem keepsCalls_callClosure
    (sound : env.Balanced)
    (ready : start.Ready env.watch)
    (vouched : start.origins.Vouches closure)
    (id : ObjectId)
    (receiver : Value)
    (arguments : List Value) :
    KeepsCalls start (callClosure id closure receiver arguments env start.machine) := by
  unfold callClosure
  dsimp only
  split
  · exact ⟨start.origins, .refl, .refl _⟩
  · refine KeepsCalls.bindYields _ ready (yields_opened _ ready.coherent vouched
      (Machine.places_callFrame vouched _ id receiver arguments _)
      (Machine.opened_callFrame _ id closure receiver arguments _)) ?_
    intro frame stage _ ready made
    obtain ⟨cells, fresh⟩ := made.fresh
    split
    · next generator =>
        exact keepsCalls_createGenerator sound ready made.known fresh (made.code ▸ generator) id
    · next other =>
        split
        · next async =>
            exact keepsCalls_startAsync sound ready made.known fresh (made.code ▸ async)
        · next plain =>
            refine traced_runBoundaryFrame sound ready made.known made.free (made.due ?_)
            simp [FunctionKind.suspends, other, plain]

/-- What depends on the internal slots of an object finds their code known. -/
theorem Balanced.bindKind
    {next : Option ObjectKind -> Exec σ α}
    (id : ObjectId)
    (balanced : ∀ kind, (∀ closure, kind ≠ some (.function closure)) -> Balanced (next kind))
    (function : ∀ closure (env : Env σ) (start : Stage σ), env.Balanced ->
      start.Ready env.watch ->
      start.origins.Vouches closure ->
      KeepsCalls start (next (some (.function closure)) env start.machine)) :
    Balanced ((ask fun machine => machine.kind? id) >>= next) where
  balancedIn env sound start ready := by
    rw [ask_bind]
    cases found : start.machine.kind? id with
    | none =>
        exact (balanced none fun _ impossible => by cases impossible).balancedIn env sound
          start ready
    | some kind =>
        cases kind with
        | function closure =>
            exact function closure env start sound ready (ready.coherent.objects id _ found)
        | _ =>
            exact (balanced (some _) fun _ impossible => by cases impossible).balancedIn env
              sound start ready

/-- Calling any value is balanced. -/
instance (callee receiver : Value) (arguments : List Value) :
    Balanced (callValue callee receiver arguments : Exec σ Value) := by
  unfold callValue
  split
  · next id =>
      refine Balanced.bindKind id (fun kind other => ?_)
        fun closure env start sound ready vouched => ?_
      · split
        · next closure => exact absurd rfl (other closure)
        all_goals infer_instance
      · exact keepsCalls_callClosure sound ready vouched id receiver arguments
  · infer_instance

theorem keepsCalls_runConstructor
    {frame : Frame}
    (sound : env.Balanced)
    (ready : start.Ready env.watch)
    (known : start.origins.frame frame)
    (free : frame.coroutine = none)
    (due : frame.Due)
    (construct : ConstructKind) :
    KeepsCalls start (runBoundaryFrame { frame with construct } env start.machine) := by
  have prepared : start.Leads
      ⟨start.origins.withFrame { frame with construct }, start.machine⟩ :=
    .single (.prepare _ _ frame _ known (.construct frame construct))
  refine Traced.after_leads prepared ((traced_runBoundaryFrame sound
    (ready.follow prepared ready.manned) (Or.inr rfl) free due).mono fun _ _ _ same => ?_)
  exact ⟨same.calls, same.manned⟩

/-- A derived constructor gets a frame in a scope of its own. -/
theorem opens_derived
    (coherent : start.Coherent)
    (vouched : start.origins.Vouches closure)
    (id : ObjectId)
    (arguments : List Value)
    (newTarget : Value) :
    let opened := start.machine.openDerived id closure arguments newTarget
    ∃ origins, start.Leads ⟨origins, opened.2⟩ ∧ start.SameCalls ⟨origins, opened.2⟩ ∧
      Made closure.template { opened.1 with construct := .derived }
        (⟨origins, opened.2⟩ : Stage σ) := by
  intro opened
  let origins := start.origins.withScope (start.machine.derivedScope id closure newTarget)
  let machine := { start.machine with cells := start.machine.cells.addThisCell.2 }
  have begun : start.Leads ⟨origins, machine⟩ := .single (.scope _ _ _ rfl)
  have same : start.SameCalls ⟨origins, machine⟩ :=
    ⟨⟨rfl, rfl⟩, fun manned => manned.imp_right fun manned => manned.same (.refl _) rfl⟩
  have made : Machine.Opened origins closure.template id closure.upvalues .boundary machine
      opened :=
    Machine.opened_openFrame _ id closure _ arguments .boundary
  have placed : origins.Places opened.1.scope := by
    intro cell pending
    rw [show opened.1.scope = _ from Machine.scope_openFrame ..]
    exact Or.inr rfl
  have known : start.Leads ⟨origins.withFrame opened.1, opened.2⟩ :=
    (begun.trans made.quiet.leads).tail (.open _ _ _ made.fresh
      (made.admits (begun.keeps.origins.vouches vouched) placed) made.returnTo)
  refine ⟨_, known.tail (.prepare _ _ opened.1 _ (Or.inr rfl) (.construct _ .derived)),
    ⟨same.calls.trans made.quiet.same, fun manned => ?_⟩,
    Or.inr rfl, made.template, opened.2.cells, { made.fresh with }⟩
  exact made.quiet.manned (begun.coherent coherent) (same.manned manned)

theorem keepsCalls_constructDerived
    (sound : env.Balanced)
    (ready : start.Ready env.watch)
    (vouched : start.origins.Vouches closure)
    (plain : closure.template.kind.suspends = false)
    (id : ObjectId)
    (arguments : List Value)
    (newTarget : Value) :
    KeepsCalls start (constructDerived id closure arguments newTarget env start.machine) := by
  let opened := start.machine.openDerived id closure arguments newTarget
  obtain ⟨origins, leads, same, made⟩ :=
    opens_derived ready.coherent vouched id arguments newTarget
  refine Traced.bind
    (fun outcome stage => outcome = .ok opened.1 ∧ stage = ⟨origins, opened.2⟩)
    (.change _ origins leads ⟨rfl, rfl⟩) ?_ ?_
  · rintro _ _ _ ⟨⟨⟩, rfl⟩
    exact (traced_runBoundaryFrame sound (ready.later leads same) made.known made.free
      (made.due plain)).mono fun _ _ _ further => same.trans further
  · rintro exception stage _ ⟨impossible, -⟩
    cases impossible

theorem keepsCalls_constructBase
    (sound : env.Balanced)
    (ready : start.Ready env.watch)
    (vouched : start.origins.Vouches closure)
    (plain : closure.template.kind.suspends = false)
    (id : ObjectId)
    (arguments : List Value)
    (newTarget : Value) :
    KeepsCalls start (constructBase id closure arguments newTarget env start.machine) := by
  unfold constructBase
  rw [ask_bind]
  refine .bindBalanced sound ready fun prototype stage leads ready => ?_
  have vouched := leads.keeps.origins.vouches vouched
  refine KeepsCalls.bindBalanced sound ready fun this stage leads ready => ?_
  have vouched := leads.keeps.origins.vouches vouched
  dsimp only
  refine KeepsCalls.bindYields _ ready (yields_opened _ ready.coherent vouched ?_
    (Machine.opened_openFrame _ id closure _ arguments _)) ?_
  · rw [Machine.scope_openFrame]
    exact Origins.places_of_bound rfl
  intro frame stage _ ready made
  split
  · refine KeepsCalls.bindBalanced sound ready fun _ stage leads ready => ?_
    exact keepsCalls_runConstructor sound ready (leads.keeps.origins.frame _ made.known)
      made.free (made.due plain) .base
  · exact keepsCalls_runConstructor sound ready made.known made.free (made.due plain) .base

/-- Constructing with any value is balanced. -/
instance (callee : Value) (arguments : List Value) (newTarget : Value) :
    Balanced (constructValue callee arguments newTarget : Exec σ Value) := by
  unfold constructValue
  split
  · infer_instance
  · next id _ =>
      refine Balanced.bindKind id (fun kind other => ?_)
        fun closure env start sound ready vouched => ?_
      · split
        · next closure => exact absurd rfl (other closure)
        · split <;> infer_instance
        all_goals infer_instance
      · dsimp only
        split
        · exact Balanced.traced _ sound ready
        · next constructs =>
            have plain := FunctionKind.plain_of_isConstructor (by simpa using constructs)
            split
            · exact keepsCalls_constructDerived sound ready vouched plain id arguments newTarget
            · exact keepsCalls_constructBase sound ready vouched plain id arguments newTarget

end Exec
namespace Exec

/-! ## Jobs -/

instance (handler : Handler) (settlement : Settlement) (argument : Value) :
    Balanced (runHandler handler settlement argument :
      Exec σ (Option (Except Exception Value))) := by
  unfold runHandler
  cases handler <;> infer_instance

/-- Running a microtask is balanced. -/
instance (job : Job σ) : Balanced (runJob job) := by
  unfold runJob
  split
  · infer_instance
  · infer_instance
  · refine .bind inferInstance fun outcome => ?_
    split <;> infer_instance

/-- Jobs may come and go. -/
theorem Quietly.jobs
    {origins : Origins}
    (machine : Machine σ)
    (jobs : EventLoop (Job σ) (HostProgram σ)) :
    Quietly origins machine { machine with jobs } :=
  .tables machine jobs machine.rejections machine.unhandled machine.hosts machine.world

instance (watch : Sight σ -> Bool) : (balance watch).Queued where
  reschedule machine jobs _ _ _ := .jobs machine jobs
  finish env machine _ := Discipline.Indifferent.passes_checkpointFinished env machine
  microtask {machine job jobs _} _ _ :=
    Discipline.keeps_microtask (fun _ => (Quietly.jobs machine jobs).trans (.note _ _))
      ⟨(balanced_iff (runJob job)).1 inferInstance watch⟩
  task _ _ := (balanced_iff _).1 inferInstance watch

/-! ## Invocations -/

/-- Carrying out an invocation is balanced. -/
theorem balanced_operation
    (invocation : Invocation)
    (notCheckpoint : invocation ≠ .checkpoint)
    (notIdle : invocation ≠ .untilIdle) :
    Balanced (operation invocation : Exec σ invocation.Answer) := by
  cases invocation with
  | checkpoint => exact absurd rfl notCheckpoint
  | untilIdle => exact absurd rfl notIdle
  | _ => unfold operation; infer_instance

end Exec

/-- An environment performs invocations in a balanced way, however much fuel it has and
whatever it watches. -/
theorem Env.balanced_watched (fuel : Nat) (watch : Sight σ -> Bool) :
    (Env.watched fuel watch).Balanced := by
  have sound : (Exec.balance watch).Sound (Env.watched fuel watch) :=
    Discipline.sound_watched (fun invocation notCheckpoint notIdle =>
      (Exec.balanced_iff _).1 (Exec.balanced_operation invocation notCheckpoint notIdle) watch)
      rfl fuel
  exact fun invocation start ready => sound.performs invocation start.machine start.origins ready

/-!
## Bounds on calls

Whatever an embedder has a machine do, the frame stack and the native depth are in the
end what they were before, and if they are within their bounds before, they are within
them at every point on the way.
-/

variable {α : Type}

/-! ### The bounds -/

/-- The frame stack and the native depth are within their bounds. -/
structure Machine.WithinBounds (machine : Machine σ) : Prop where
  frames : machine.frames.size <= machine.config.maxCallDepth
  native : machine.nativeDepth <= machine.config.maxNativeDepth

namespace Machine

theorem size_pushFrame (machine : Machine σ) (frame : Frame) :
    (machine.pushFrame frame).frames.size = machine.frames.size + 1 :=
  Array.size_push frame

theorem size_of_top? {machine : Machine σ} {top : Frame} (found : machine.top? = some top) :
    0 < machine.frames.size := by
  obtain ⟨below, standing⟩ := stack_of_top? found
  rw [← length_stack, standing, List.length_append]
  exact Nat.succ_pos _

theorem size_takeFrame (machine : Machine σ) :
    machine.takeFrame.frames.size = machine.frames.size - 1 :=
  Array.size_pop

theorem size_popFrame (machine : Machine σ) :
    machine.popFrame.frames.size = machine.frames.size - 1 := by
  rw [← length_stack, ← length_stack, stack_popFrame, List.length_dropLast]

theorem size_captureClosure (machine : Machine σ) (nested : Template) :
    (machine.captureClosure nested).2.frames.size = machine.frames.size := by
  unfold captureClosure
  split
  · rfl
  · exact Array.size_setIfInBounds

theorem size_detachFrom (machine : Machine σ) (first : Register) :
    (machine.detachFrom first).frames.size = machine.frames.size := by
  unfold detachFrom
  split
  · rfl
  · exact Array.size_setIfInBounds

end Machine

/-- Fewer calls under the same configuration are within the bounds too. -/
theorem Machine.WithinBounds.fewer
    {before after : Machine σ}
    (bounds : before.WithinBounds)
    (config : after.config = before.config)
    (frames : after.frames.size <= before.frames.size)
    (native : after.nativeDepth <= before.nativeDepth) :
    after.WithinBounds where
  frames := by
    rw [config]
    exact Nat.le_trans frames bounds.frames
  native := by
    rw [config]
    exact Nat.le_trans native bounds.native

/-- Frames and native calls are only added where there is room for them. -/
theorem Transition.withinBounds
    {before after : Stage σ}
    (bounds : before.machine.WithinBounds)
    (transition : Transition before after) :
    after.machine.WithinBounds := by
  have config := transition.keeps.config
  cases transition with
  | consult origins machine id name template slot =>
      obtain ⟨caches, same⟩ := machine.cachedLookup_machine id name template.id slot
      rw [same]
      exact ⟨bounds.frames, bounds.native⟩
  | remember origins machine id name template slot =>
      obtain ⟨caches, same⟩ := machine.rememberOwn_machine id name template.id slot
      rw [same]
      exact ⟨bounds.frames, bounds.native⟩
  | enterNative origins machine room => exact ⟨bounds.frames, room⟩
  | leaveNative origins machine =>
      exact bounds.fewer config (Nat.le_refl _) (Nat.sub_le _ _)
  | push origins machine frame loose room =>
      refine ⟨?_, bounds.native⟩
      rw [Machine.size_pushFrame]
      exact room
  | call origins machine frame fresh known room =>
      refine ⟨?_, bounds.native⟩
      rw [Machine.size_pushFrame]
      exact room
  | replace origins machine top frame standing =>
      refine bounds.fewer config (Nat.le_of_eq ?_) ?_
      · rw [Machine.size_pushFrame, Machine.size_popFrame,
          Nat.sub_add_cancel (Machine.size_of_top? standing)]
      · exact Nat.le_of_eq machine.nativeDepth_popFrame
  | pop origins machine =>
      refine bounds.fewer config ?_ (Nat.le_of_eq machine.nativeDepth_popFrame)
      rw [Machine.size_popFrame]
      exact Nat.sub_le _ _
  | take origins machine top =>
      refine bounds.fewer config ?_ (Nat.le_refl _)
      rw [Machine.size_takeFrame]
      exact Nat.sub_le _ _
  | move origins machine top moved =>
      exact bounds.fewer config (Nat.le_of_eq Array.size_modify) (Nat.le_refl _)
  | capture origins machine top nested =>
      exact bounds.fewer config (Nat.le_of_eq (machine.size_captureClosure nested))
        (Nat.le_of_eq (machine.nativeDepth_captureClosure nested))
  | detach origins machine first =>
      exact bounds.fewer config (Nat.le_of_eq (machine.size_detachFrom first))
        (Nat.le_of_eq (machine.nativeDepth_detachFrom first))
  | collect origins machine kept =>
      have same : machine.SameCalls (machine.collectGarbage kept).2 :=
        (@Exec.sameCalls_collectGarbage _ Origins.all machine kept).calls
      refine bounds.fewer config (Nat.le_of_eq ?_) (Nat.le_of_eq same.nativeDepth)
      exact congrArg Array.size same.frames
  | _ => exact ⟨bounds.frames, bounds.native⟩

/-! ### Runs -/

/-- How a run that begins at a machine keeps to the bounds: where it settles the same
frames and native calls are there as before, and if they are within the bounds, then so
are those of any machine at which the run is interrupted. -/
def Machine.KeepsToBounds (machine : Machine σ) :
    EStateM.Result (Stop σ) (Machine σ) α -> Prop
  | .ok _ after | .error (.thrown _) after =>
      after.frames = machine.frames ∧ after.nativeDepth = machine.nativeDepth
  | .error (.interrupted sight) _ =>
      sight.machine.config = machine.config ∧
        (machine.WithinBounds -> sight.machine.WithinBounds)
  | .error .outOfFuel _ => True

/-- Without any demand on where code and frames come from, every machine is coherent. -/
theorem Machine.coherent_all (machine : Machine σ) :
    Stage.Coherent ⟨Origins.all, machine⟩ where
  nested _ _ _ _ := trivial
  stack _ _ := ⟨trivial, Or.inl trivial, fun _ _ => trivial⟩
  loose _ _ := ⟨trivial, Or.inl trivial, fun _ _ => trivial⟩
  objects _ kind _ := Origins.covers_all kind
  orderly := Or.inl trivial
  returns := Or.inl trivial

/-- Nor is anything asked of coroutines. -/
theorem Machine.ready_all (machine : Machine σ) (watch : Sight σ -> Bool) :
    Stage.Ready watch ⟨Origins.all, machine⟩ where
  coherent := machine.coherent_all
  watched _ impossible := impossible.elim
  manned := Or.inl trivial

theorem Exec.Balanced.keepsToBounds
    (computation : Exec σ α)
    [Balanced computation]
    (fuel : Nat)
    (watch : Sight σ -> Bool)
    (machine : Machine σ) :
    machine.KeepsToBounds (computation (Env.watched fuel watch) machine) := by
  have traced := Balanced.traced computation (Env.balanced_watched fuel watch)
    (machine.ready_all watch)
  dsimp only at traced
  cases ran : computation (Env.watched fuel watch) machine with
  | ok answer after =>
      rw [ran] at traced
      obtain ⟨origins, leads, same⟩ := traced
      exact ⟨same.calls.frames, same.calls.nativeDepth⟩
  | error stop after =>
      rw [ran] at traced
      cases stop with
      | thrown exception =>
          obtain ⟨origins, leads, same⟩ := traced
          exact ⟨same.calls.frames, same.calls.nativeDepth⟩
      | outOfFuel => trivial
      | interrupted sight =>
          obtain ⟨founded, shows⟩ := traced
          cases shows with
          | reached origins leads =>
              exact ⟨leads.keeps.config, Stage.Leads.invariant Transition.withinBounds leads⟩
          | freed id impossible => exact impossible.elim

/-- Calls are balanced and bounded: whatever request a machine answers and whatever host
program it runs, with any code and any functions of the embedder, the frames and the
native depth are restored however it ends, and they never exceed their bounds on the
way. The watch can interrupt the run after any change of the machine and at any use of
an operand. -/
theorem calls_balanced_and_bounded
    (machine : Machine σ)
    (fuel : Nat)
    (watch : Sight σ -> Bool) :
    (∀ request : Request,
      machine.KeepsToBounds (Exec.answer request (Env.watched fuel watch) machine)) ∧
    ∀ program : HostProgram σ,
      machine.KeepsToBounds (Exec.runProgram program (Env.watched fuel watch) machine) :=
  ⟨fun request => Exec.Balanced.keepsToBounds (Exec.answer request) fuel watch machine,
    fun program => Exec.Balanced.keepsToBounds (Exec.runProgram program) fuel watch machine⟩

end ScriptVM

import ScriptVM.Machine.Coroutines
import ScriptVM.Proofs.DispatchRuns

/-!
# Coroutines

The frame of a coroutine moves between its object and the stack. Every frame that is
parked came off the stack or was made for a call, so resuming it is balanced.
-/

namespace ScriptVM

variable {σ α β : Type} {env : Env σ} {start : Stage σ}

/-- Where anything is asked of coroutines, one that waits holds a frame. -/
theorem Stage.Coherent.lax_of_frameless
    {id : ObjectId}
    {coroutine : Coroutine}
    (coherent : start.Coherent)
    (found : start.machine.coroutine? id = some coroutine)
    (waits : coroutine.state.isSuspended = true)
    (frameless : coroutine.frame = none) :
    start.origins.lax := by
  refine coherent.orderly.resolve_right fun orderly => ?_
  have parked := (orderly.shelved id coroutine (Machine.coroutine?_eq_some.1 found)).parked
  rw [waits, frameless] at parked
  cases parked

namespace Exec

variable {state : CoroutineState} {origins : Origins}

variable {first : Exec σ α} {next : α -> Exec σ β} {frame : Frame} {routine : Routine}
  {base : Stage σ} {id : ObjectId} {template : Template} {misstep : Misstep} {coroutine : Coroutine}
  {cells : Cells}

/-! ## Keeping the calls -/

/-- The result settles with the same calls under way. -/
abbrev KeepsCalls (start : Stage σ) : EStateM.Result (Stop σ) (Machine σ) α -> Prop :=
  Traced start fun _ stage => start.SameCalls stage

/-- The result settles with the same calls under way, and something else holds of its
answer. -/
abbrev Yields
    (start : Stage σ)
    (holds : α -> Stage σ -> Prop) :
    EStateM.Result (Stop σ) (Machine σ) α -> Prop :=
  Traced start fun outcome stage =>
    start.SameCalls stage ∧ ∀ answer, outcome = .ok answer -> holds answer stage

theorem KeepsCalls.bindYields
    (holds : α -> Stage σ -> Prop)
    (ready : start.Ready env.watch)
    (earlier : Yields start holds (first env start.machine))
    (later : ∀ answer stage, start.Leads stage -> stage.Ready env.watch -> holds answer stage ->
      KeepsCalls stage (next answer env stage.machine)) :
    KeepsCalls start ((first >>= next) env start.machine) := by
  refine .bind _ earlier ?_ ?_
  · rintro answer stage leads ⟨same, settled⟩
    refine (later answer stage leads (ready.later leads same) (settled answer rfl)).mono ?_
    intro _ _ _ further
    exact same.trans further
  · rintro exception stage _ ⟨same, -⟩
    exact same

theorem KeepsCalls.bind
    (ready : start.Ready env.watch)
    (earlier : KeepsCalls start (first env start.machine))
    (later : ∀ answer stage, start.Leads stage -> stage.Ready env.watch ->
      KeepsCalls stage (next answer env stage.machine)) :
    KeepsCalls start ((first >>= next) env start.machine) := by
  refine .bindYields (fun _ _ => True) ready ?_ ?_
  · exact earlier.mono fun _ _ _ same => ⟨same, fun _ _ => trivial⟩
  · intro answer stage leads ready _
    exact later answer stage leads ready

theorem KeepsCalls.bindBalanced
    [balanced : Balanced first]
    (sound : env.Balanced)
    (ready : start.Ready env.watch)
    (later : ∀ answer stage, start.Leads stage -> stage.Ready env.watch ->
      KeepsCalls stage (next answer env stage.machine)) :
    KeepsCalls start ((first >>= next) env start.machine) := by
  exact .bind ready (balanced.balancedIn env sound start ready) later

/-! ## Frames that native code holds -/

/-- Native code may run this frame for a coroutine. -/
structure Fits
    (routine : Routine)
    (frame : Frame)
    (stage : Stage σ) : Prop where
  known : stage.origins.frame frame
  fits : stage.origins.lax ∨ frame.routine? = some routine ∧ (frame.Opening ∨ frame.Begun)

/-- Native code may park this frame for a coroutine. -/
structure Parks
    (routine : Routine)
    (frame : Frame)
    (stage : Stage σ) : Prop where
  known : stage.origins.frame frame
  parks : stage.origins.lax ∨ frame.routine? = some routine ∧ frame.Begun

theorem Parks.fits (parks : Parks routine frame start) : Fits routine frame start :=
  ⟨parks.known, parks.parks.imp id fun parks => ⟨parks.1, Or.inr parks.2⟩⟩

/-- A frame that suspends the run of a coroutine may be parked for it. -/
theorem Fits.parks
    {frame suspended : Frame}
    {before : Stage σ}
    (fits : Fits routine frame before)
    (leads : before.Leads start)
    (known : start.origins.frame suspended)
    (suspends : start.origins.lax ∨ frame.Suspends suspended) :
    Parks routine suspended start := by
  refine ⟨known, ?_⟩
  have fits := fits.fits
  rw [← leads.keeps.origins.lax] at fits
  rcases fits, suspends with ⟨lax | ⟨belongs, staged⟩, lax | suspends⟩
  · exact Or.inl lax
  · exact Or.inl lax
  · exact Or.inl lax
  · exact Or.inr ⟨suspends.routine.trans belongs, suspends.begun staged⟩

/-- Parking is a transition if the coroutine gets a frame that is due to it, and if it has
not completed before. -/
theorem traced_park
    (id : ObjectId)
    {frame : Option Frame}
    (parked : frame.isSome = state.isSuspended)
    (known : ∀ held, frame = some held -> start.origins.frame held)
    (fits : start.origins.lax ∨ ∀ held, frame = some held -> held.Shelves id ∧
      ∀ coroutine, start.machine.coroutine? id = some coroutine ->
        coroutine.kind.Suits held.template)
    (stays : start.origins.lax ∨ ∀ coroutine, start.machine.coroutine? id = some coroutine ->
      coroutine.state = .completed -> state = .completed) :
    Traced start
      (fun outcome stage => outcome = .ok () ∧
        stage = ⟨start.origins, start.machine.park id state frame⟩)
      (park id state frame env start.machine) := by
  refine .update _ start.origins (.single (.heap _ _ _ ?_ ?_)) ⟨rfl, rfl⟩
  · refine .modifyPayload _ id _ fun kind _ => ?_
    cases kind with
    | coroutine coroutine =>
        exact ⟨.coroutine coroutine state frame, fun _ held same => known held same⟩
    | _ => exact ⟨.same _, fun covered => covered⟩
  · refine Classical.or_iff_not_imp_left.2 fun demands _ => ?_
    have fits := fits.resolve_left demands
    exact Machine.tends_park parked (fun held same => (fits held same).1)
      (fun held same => (fits held same).2) (stays.resolve_left demands)

/-- Native code parks or drops the frame that it holds and goes on. -/
theorem traced_parkThen
    {frame : Option Frame}
    {next : Exec σ α}
    (coherent : start.Coherent)
    (watched : start.Watched env.watch)
    (calls : base.machine.SameCalls start.machine)
    (manned : start.Manned (some ⟨id, template⟩))
    (parked : frame.isSome = state.isSuspended)
    (stops : state ≠ .running)
    (parks : ∀ held, frame = some held -> Parks ⟨id, template⟩ held start)
    (later : ∀ machine, Stage.Ready env.watch ⟨start.origins, machine⟩ ->
      KeepsCalls ⟨start.origins, machine⟩ (next env machine)) :
    Traced start (fun _ stage => base.SameCalls stage)
      ((park id state frame >>= fun _ => next) env start.machine) := by
  have fits : start.origins.lax ∨ ∀ held, frame = some held -> held.Shelves id ∧
      ∀ coroutine, start.machine.coroutine? id = some coroutine ->
        coroutine.kind.Suits held.template := by
    refine Classical.or_iff_not_imp_left.2 fun demands held same => ?_
    obtain ⟨belongs, begun⟩ := (parks held same).parks.resolve_left demands
    obtain ⟨owned, code⟩ := Frame.coroutine_of_routine? belongs
    rw [code]
    exact ⟨⟨owned, begun⟩, (manned.resolve_left demands).suited _ (.head _)⟩
  have stays : start.origins.lax ∨ ∀ coroutine,
      start.machine.coroutine? id = some coroutine ->
        coroutine.state = .completed -> state = .completed := by
    refine manned.imp (fun lax => lax) fun manned coroutine found completed => ?_
    obtain ⟨running, present, runs⟩ := manned.held.1
    cases found.symm.trans present
    rw [completed] at runs
    cases runs
  refine .bind _ (traced_park id parked (fun held same => (parks held same).known)
    fits stays) ?_ ?_
  · rintro _ stage leads ⟨-, rfl⟩
    have settled : Stage.Manned none
        ⟨start.origins, start.machine.park id state frame⟩ :=
      manned.imp (fun lax => lax) fun manned => manned.stop stops
    refine (later _ ⟨leads.coherent coherent, watched, settled⟩).mono fun _ _ _ same => ?_
    exact ⟨⟨same.calls.frames.trans calls.frames, same.calls.nativeDepth.trans calls.nativeDepth⟩,
      fun _ => same.manned settled⟩
  · rintro exception stage _ ⟨impossible, -⟩
    cases impossible

/-- The coroutine completes, and native code goes on with something balanced. -/
theorem traced_completeThen
    {next : Exec σ α}
    [balanced : Balanced next]
    (sound : env.Balanced)
    (coherent : start.Coherent)
    (watched : start.Watched env.watch)
    (calls : base.machine.SameCalls start.machine)
    (manned : start.Manned (some ⟨id, template⟩)) :
    Traced start (fun _ stage => base.SameCalls stage)
      ((park id .completed none >>= fun _ => next) env start.machine) :=
  traced_parkThen coherent watched calls manned rfl (by exact CoroutineState.noConfusion)
    (fun _ impossible => by cases impossible) fun _ ready =>
      balanced.balancedIn env sound _ ready

/-- The coroutine completes because a frame suspended out of place. -/
theorem traced_completeStray
    (coherent : start.Coherent)
    (watched : start.Watched env.watch)
    (calls : base.machine.SameCalls start.machine)
    (manned : start.Manned (some ⟨id, template⟩))
    (excused : start.origins.lax ∨ frame.Excused misstep) :
    Traced start (fun _ stage => base.SameCalls stage)
      ((park id .completed none >>= fun _ => (stray misstep frame : Exec σ α))
        env start.machine) :=
  traced_parkThen coherent watched calls manned rfl (by exact CoroutineState.noConfusion)
    (fun _ impossible => by cases impossible) fun _ _ => .stray _ _ excused (.refl _)

/-- Native code takes the frame of a coroutine that waits. -/
theorem traced_unpark
    (ready : start.Ready env.watch)
    (found : start.machine.coroutine? id = some coroutine)
    (waits : coroutine.state.isSuspended = true) :
    Traced start
      (fun outcome stage => outcome = .ok coroutine.frame ∧
        start.machine.SameCalls stage.machine ∧
        ∀ frame, coroutine.frame = some frame ->
          stage.Manned (some ⟨id, frame.template⟩) ∧ Parks ⟨id, frame.template⟩ frame stage ∧
            (stage.origins.lax ∨ coroutine.kind.Suits frame.template))
      (unpark id env start.machine) := by
  have rests : ¬ start.machine.Runs id := by
    rintro ⟨other, present, running⟩
    cases found.symm.trans present
    rw [running] at waits
    cases waits
  have stays : start.origins.lax ∨ ∀ other, start.machine.coroutine? id = some other ->
      other.state = .completed -> CoroutineState.running = .completed := by
    refine Or.inr fun other present completed => ?_
    cases found.symm.trans present
    rw [completed] at waits
    cases waits
  have payload := Machine.coroutine?_eq_some.1 found
  unfold unpark
  rw [ask_bind, found]
  refine .bind _ (traced_park id rfl (fun _ impossible => by cases impossible)
    (Or.inr fun _ impossible => by cases impossible) stays) ?_ ?_
  · rintro _ stage leads ⟨-, rfl⟩
    refine .pure _ ⟨rfl, ⟨rfl, rfl⟩, fun frame held => ?_⟩
    have known : start.origins.frame frame := ready.coherent.objects id _ payload frame held
    rcases ready.coherent.orderly, ready.manned with ⟨lax | orderly, lax | manned⟩
    · exact ⟨Or.inl lax, ⟨known, Or.inl lax⟩, Or.inl lax⟩
    · exact ⟨Or.inl lax, ⟨known, Or.inl lax⟩, Or.inl lax⟩
    · exact ⟨Or.inl lax, ⟨known, Or.inl lax⟩, Or.inl lax⟩
    · have shelved := orderly.shelved id coroutine payload
      have shelves := shelved.owned frame held
      have suits := shelved.suited frame held
      refine ⟨Or.inr (manned.wake found suits rests), ⟨known, Or.inr ⟨?_, shelves.begun⟩⟩,
        Or.inr suits⟩
      unfold Frame.routine?
      rw [shelves.coroutine]
      rfl
  · rintro exception stage _ ⟨impossible, -⟩
    cases impossible

/-- Native code holds the frame of a coroutine that it makes. -/
theorem traced_createCoroutine
    (ready : start.Ready env.watch)
    (prototype : ObjectId)
    (kind : CoroutineKind)
    (suits : kind.Suits template) :
    Traced start
      (fun outcome stage => ∃ id, outcome = .ok id ∧
        start.machine.SameCalls stage.machine ∧ stage.Manned (some ⟨id, template⟩))
      (createCoroutine prototype kind env start.machine) := by
  have spawned : start.Leads ⟨start.origins, (start.machine.allocate (some prototype)
      (.coroutine { state := .running, frame := none, kind })).2⟩ := by
    refine .single (.heap _ _ _ (.allocate _ (some prototype) _ ?_) (Or.inr fun tidy => ?_))
    · exact fun _ impossible => by cases impossible
    · exact Machine.tends_spawn tidy (some prototype) kind
  unfold createCoroutine allocate
  refine .change _ start.origins spawned ⟨_, rfl, ⟨rfl, rfl⟩, ?_⟩
  rcases ready.coherent.orderly, ready.manned with ⟨lax | orderly, lax | manned⟩
  · exact Or.inl lax
  · exact Or.inl lax
  · exact Or.inl lax
  · exact Or.inr (manned.spawn orderly.tidy (some prototype) suits)

/-! ## Resumption -/

/-- A resumption prepares the frame of a coroutine for its next run. -/
theorem traced_receive (known : start.origins.frame frame) (mode : ResumeMode) (value : Value) :
    Traced start
      (fun outcome stage => start.machine.SameCalls stage.machine ∧
        (∀ loose, start.Manned loose -> stage.Manned loose) ∧
        ∀ resumed, outcome = .ok resumed ->
          stage.origins.frame resumed ∧ frame.Continues resumed)
      (receive frame mode value env start.machine) := by
  unfold receive
  split
  · refine ⟨_, .single (.prepare _ _ frame _ known (.delegate frame (mode, value))),
      .refl _, fun _ manned => manned, fun resumed settled => ?_⟩
    cases settled
    exact ⟨Or.inr rfl, .of_same rfl rfl rfl rfl rfl rfl rfl rfl rfl⟩
  · have unchanged : Traced start
        (fun outcome stage => start.machine.SameCalls stage.machine ∧
          (∀ loose, start.Manned loose -> stage.Manned loose) ∧
          ∀ resumed, outcome = .ok resumed ->
            stage.origins.frame resumed ∧ frame.Continues resumed)
        ((pure frame : Exec σ Frame) env start.machine) := by
      refine .pure _ ⟨.refl _, fun _ manned => manned, fun resumed settled => ?_⟩
      cases settled
      exact ⟨known, .refl frame⟩
    cases mode with
    | next =>
        cases frame.resumeRegister with
        | some register =>
            have written : start.Leads ⟨start.origins, start.machine.modifyCells fun cells =>
                cells.setRegister frame.window register value⟩ :=
              .single (.cells _ _ _ (.setRegister _ _ _ _))
            refine .bind
              (fun outcome stage => outcome = .ok () ∧ stage = ⟨start.origins,
                start.machine.modifyCells fun cells =>
                  cells.setRegister frame.window register value⟩) ?_ ?_ ?_
            · exact .update _ start.origins written ⟨rfl, rfl⟩
            · rintro _ stage _ ⟨-, rfl⟩
              refine ⟨_, .single (.prepare _ _ frame _ known (.resume frame)), ⟨rfl, rfl⟩,
                fun _ manned => manned.imp id fun manned => manned.same (.refl _) rfl,
                fun resumed settled => ?_⟩
              cases settled
              exact ⟨Or.inr rfl, .of_same rfl rfl rfl rfl rfl rfl rfl rfl rfl⟩
            · rintro exception stage _ ⟨impossible, -⟩
              cases impossible
        | none => exact unchanged
    | throw => exact unchanged
    | «return» => exact unchanged

/-- Entering a frame with a return asks that it does not open any more. -/
theorem steered_enter
    {below : List Frame}
    {home : Frame}
    {depth : Nat}
    (inRun : start.InRun env.watch below home depth)
    (delegating : Bool)
    (mode : ResumeMode)
    (value : Value)
    (returns : mode = .next ∨ start.MayReturn below home) :
    Steered below home depth start
      (enter below.length delegating mode value env start.machine) := by
  unfold enter
  split
  · exact .pure _ inRun.running
  · cases mode with
    | next => exact .pure _ inRun.running
    | throw => exact .raise _ (Or.inl inRun.running)
    | «return» =>
        refine steered_returnValue inRun (returns.resolve_left fun impossible => ?_) value
        cases impossible

/-- Running the frame of a coroutine that native code holds gives the frame back, with the
coroutine still running, or drops it. -/
theorem traced_runCoroutine
    (sound : env.Balanced)
    (coherent : start.Coherent)
    (watched : start.Watched env.watch)
    (manned : start.Manned (some routine))
    (fits : Fits routine frame start)
    (mode : ResumeMode)
    (value : Value)
    (returns : mode = .next ∨ start.origins.lax ∨ frame.Begun) :
    Traced start
      (fun outcome stage => start.machine.SameCalls stage.machine ∧
        stage.Manned (some routine) ∧
          ∀ exit, outcome = .ok exit -> exit.Known stage.origins frame)
      (runCoroutine frame mode value env start.machine) := by
  unfold runCoroutine
  refine .bind _ (traced_receive fits.known mode value) ?_ ?_
  · rintro resumed stage leads ⟨same, keeps, ready⟩
    have coherent : stage.Coherent := leads.coherent coherent
    have watched : stage.Watched env.watch := watched.later leads
    obtain ⟨known, continues⟩ := ready resumed rfl
    have owner : stage.origins.lax ∨ resumed.routine? = some routine := by
      rw [leads.keeps.origins.lax]
      exact fits.fits.imp id fun fits => continues.routine.trans fits.1
    refine (Traced.withNativeDepth
      (fun outcome stage => stage.Manned (some routine) ∧
        ∀ exit, outcome = .ok exit -> FrameExit.Known stage.origins frame exit)
      (fun _ _ _ depth settled => ⟨settled.1.deeper depth, settled.2⟩)
      ⟨keeps _ manned, fun _ impossible => by cases impossible⟩ ?_).mono ?_
    · rintro deeper rfl
      have entered : Stage.Coherent
          ⟨stage.origins, { stage.machine with nativeDepth := stage.machine.nativeDepth + 1 }⟩ :=
        coherent.withStack rfl coherent.stack
      have held := (keeps _ manned).deeper (stage.machine.nativeDepth + 1)
      refine .checkCallDepth _ ⟨.refl _, held, fun _ impossible => by cases impossible⟩
        fun room => ?_
      have enters : Stage.Manned resumed.routine?
          ⟨stage.origins, { stage.machine with nativeDepth := stage.machine.nativeDepth + 1 }⟩ := by
        rcases owner with lax | same
        · exact Or.inl lax
        · rw [same]
          exact held
      have due : stage.origins.lax ∨ resumed.Due := by
        refine owner.imp id fun owner free => ?_
        rw [(Frame.coroutine_of_routine? owner).1] at free
        cases free
      rw [ask_bind]
      refine .bind _ (traced_pushRun entered watched enters known due room) ?_ ?_
      · rintro _ pushed further ⟨-, inRun⟩
        have returns : mode = .next ∨
            pushed.MayReturn stage.machine.stack resumed := by
          unfold Stage.MayReturn
          rw [further.keeps.origins.lax, leads.keeps.origins.lax]
          refine returns.imp id (Or.imp id fun begun _ => ?_)
          exact (continues.begun begun).not_opening
        refine (traced_runFrom sound inRun
          (steered_enter inRun frame.delegating mode value returns)).mono ?_
        intro outcome final last ends
        have housed : final.origins.lax ∨ resumed.routine? = some routine := by
          rw [last.keeps.origins.lax, further.keeps.origins.lax]
          exact owner
        have settles : ∀ {ended : Stage σ}, ended.origins.lax ∨
            resumed.routine? = some routine ->
              ended.Manned resumed.routine? -> ended.Manned (some routine) := by
          rintro ended (lax | same) manned
          · exact Or.inl lax
          · exact same ▸ manned
        match outcome with
        | .ok exit =>
            refine ⟨Stage.Ended.sameCalls ends.1, settles housed ends.1.manned,
              fun answer settled => ?_⟩
            cases settled
            exact ends.2.1.of_continues continues
        | .error exception =>
            exact ⟨Stage.Ended.sameCalls ends, settles housed (Stage.Ended.manned ends),
              fun _ impossible => by cases impossible⟩
      · rintro exception pushed _ ⟨impossible, -⟩
        cases impossible
    · rintro outcome final _ ⟨further, settled⟩
      exact ⟨same.trans further, settled⟩
  · rintro exception stage _ ⟨same, keeps, -⟩
    exact ⟨same, keeps _ manned, fun _ impossible => by cases impossible⟩

/-- What follows a run of a coroutine, however it ends. -/
theorem traced_afterRun
    {next : Except Exception FrameExit -> Exec σ α}
    {after : Except Exception α -> Stage σ -> Prop}
    (sound : env.Balanced)
    (coherent : start.Coherent)
    (watched : start.Watched env.watch)
    (manned : start.Manned (some routine))
    (fits : Fits routine frame start)
    (mode : ResumeMode)
    (value : Value)
    (returns : mode = .next ∨ start.origins.lax ∨ frame.Begun)
    (later : ∀ outcome stage, start.Leads stage -> stage.Coherent ->
      stage.Watched env.watch -> stage.Manned (some routine) ->
      start.machine.SameCalls stage.machine ->
      (∀ exit, outcome = .ok exit -> exit.Known stage.origins frame) ->
      Traced stage after (next outcome env stage.machine)) :
    Traced start after
      ((attempt (runCoroutine frame mode value) >>= next) env start.machine) := by
  refine .bind _
    (traced_runCoroutine sound coherent watched manned fits mode value returns).attempt ?_ ?_
  · intro outcome stage leads settled
    refine later outcome stage leads (leads.coherent coherent) (watched.later leads) ?_ ?_ ?_
    · cases outcome <;> exact settled.2.1
    · cases outcome <;> exact settled.1
    · intro exit same
      subst same
      exact settled.2.2 exit rfl
  · rintro exception stage _ impossible
    exact impossible.elim

/-! ## Generators -/

/-- A frame that has not executed anything is prepared for a coroutine that native code has
made for it. -/
theorem leads_prepare
    (known : start.origins.frame frame)
    (fresh : frame.Fresh cells)
    (id : ObjectId) :
    start.Leads ⟨start.origins.withFrame { frame with coroutine := some id }, start.machine⟩ ∧
      Fits ⟨id, frame.template⟩ { frame with coroutine := some id }
        ⟨start.origins.withFrame { frame with coroutine := some id }, start.machine⟩ :=
  ⟨.single (.prepare _ _ frame _ known (.coroutine frame id)), Or.inr rfl, Or.inr ⟨rfl,
    Frame.opening_or_begun fresh.next fresh.tryRegions fresh.completions⟩⟩

/-- The frame of a generator that ends its first run otherwise than with its initial yield has
an excuse. -/
theorem excused_of_fresh
    (fresh : frame.Fresh cells)
    (generator : frame.template.kind.isGenerator = true)
    (left : ¬ Frame.Opening { frame with coroutine := some id }) :
    frame.Excused .missedInitialYield := by
  refine fun _ => Or.inr ⟨Or.inl rfl, generator, fun border divided => left ?_⟩
  exact ⟨rfl, ⟨border, divided, fresh.next ▸ Nat.zero_le border⟩, fresh.tryRegions,
    fresh.completions⟩

/-- Calling a generator function is balanced. -/
theorem keepsCalls_createGenerator
    (sound : env.Balanced)
    (ready : start.Ready env.watch)
    (known : start.origins.frame frame)
    (fresh : frame.Fresh cells)
    (generator : frame.template.kind.isGenerator = true)
    (function : ObjectId) :
    KeepsCalls start (createGenerator function frame env start.machine) := by
  unfold createGenerator
  rw [ask_bind]
  refine .bindBalanced sound ready fun prototype base leads ready => ?_
  have known := leads.keeps.origins.frame frame known
  have suits : CoroutineKind.generator.Suits frame.template := generator
  refine Traced.bind _ (traced_createCoroutine ready prototype .generator suits) ?_ ?_
  · rintro id stage leads ⟨_, settled, same, manned⟩
    cases settled
    obtain ⟨prepared, fits⟩ := leads_prepare (leads.keeps.origins.frame frame known) fresh id
    have coherent := prepared.coherent (leads.coherent ready.coherent)
    refine Traced.after_leads prepared (traced_afterRun sound coherent
      ((ready.watched.later leads).later prepared) manned fits .next .undefined (Or.inl rfl) ?_)
    intro outcome later further coherent watched manned unchanged exits
    have calls := same.trans unchanged
    match outcome with
    | .ok (.started suspended) =>
        have known := exits _ rfl
        refine traced_parkThen coherent watched calls manned rfl
          (by exact CoroutineState.noConfusion) (fun held same => ?_) fun _ ready =>
            Balanced.traced _ sound ready
        cases same
        exact fits.parks further known.1 (known.2.imp_right fun left => left.1)
    | .ok (.returned _) =>
        exact traced_completeStray coherent watched calls manned
          ((exits _ rfl).imp_right (excused_of_fresh fresh generator))
    | .ok (.yielded ..) | .ok (.awaiting ..) =>
        exact traced_completeStray coherent watched calls manned
          ((exits _ rfl).2.imp_right fun left => excused_of_fresh fresh generator left.2.2)
    | .error exception => exact traced_completeThen sound coherent watched calls manned
  · rintro exception stage _ ⟨id, impossible, _⟩
    cases impossible

/-- The code of a generator does not await anything. -/
theorem excused_of_awaits
    {home suspended frame : Frame}
    (belongs : origins.lax ∨ home.routine? = some routine)
    (generator : origins.lax ∨ CoroutineKind.generator.Suits routine.template)
    (code : frame.template = routine.template)
    (leaves : origins.lax ∨ home.Suspends suspended ∧ suspended.template.Awaits) :
    origins.lax ∨ frame.Excused misstep := by
  refine Classical.or_iff_not_imp_left.2 fun demands accepted => ?_
  have belongs := belongs.resolve_left demands
  obtain ⟨suspends, awaits⟩ := leaves.resolve_left demands
  have runs := (Frame.coroutine_of_routine? (suspends.routine.trans belongs)).2
  rw [code, ← runs] at accepted
  have async := awaits.isAsync accepted
  have kind : routine.template.kind.isGenerator = true := generator.resolve_left demands
  rw [← runs] at kind
  cases same : suspended.template.kind <;> rw [same] at async kind <;> contradiction

/-- Resuming a generator that waits is balanced. -/
theorem keepsCalls_resumeSuspended
    (sound : env.Balanced)
    (ready : start.Ready env.watch)
    (found : start.machine.coroutine? id = some coroutine)
    (waits : coroutine.state.isSuspended = true)
    (generator : coroutine.kind = .generator)
    (mode : ResumeMode)
    (value : Value) :
    KeepsCalls start (resumeSuspended id mode value env start.machine) := by
  unfold resumeSuspended
  refine Traced.bind _ (traced_unpark ready found waits) ?_ ?_
  · rintro held stage leads ⟨settled, same, parked⟩
    cases settled
    have coherent := leads.coherent ready.coherent
    cases held : coroutine.frame with
    | none =>
        refine .raise _ ⟨same, fun _ => ?_⟩
        have lax := ready.coherent.lax_of_frameless found waits held
        rw [← leads.keeps.origins.lax] at lax
        exact Or.inl lax
    | some frame =>
        obtain ⟨manned, parks, suits⟩ := parked frame held
        rw [generator] at suits
        refine traced_afterRun sound coherent (ready.watched.later leads) manned
          parks.fits mode value (Or.inr (parks.parks.imp_right And.right)) ?_
        intro outcome later further coherent watched manned unchanged exits
        have calls := same.trans unchanged
        have parked := parks.parks
        rw [← further.keeps.origins.lax] at suits parked
        match outcome with
        | .ok (.yielded value suspended delegated) =>
            have known := exits _ rfl
            refine traced_parkThen coherent watched calls manned rfl
              (by exact CoroutineState.noConfusion) (fun held same => ?_) fun _ ready =>
                Balanced.traced _ sound ready
            cases same
            exact parks.fits.parks further known.1 (known.2.imp_right fun left => left.1)
        | .ok (.started _) =>
            refine traced_completeStray coherent watched calls manned ?_
            refine Classical.or_iff_not_imp_left.2 fun demands _ => ?_
            obtain ⟨belongs, begun⟩ := parked.resolve_left demands
            obtain ⟨suspends, -, undivided⟩ := (exits _ rfl).2.resolve_left demands
            have runs := (Frame.coroutine_of_routine? (suspends.routine.trans belongs)).2
            refine Or.inr ⟨Or.inr rfl, suits.resolve_left demands, fun border divided => ?_⟩
            exact undivided begun border (runs ▸ divided)
        | .ok (.awaiting ..) =>
            exact traced_completeStray coherent watched calls manned
              (excused_of_awaits (parked.imp_right And.left) suits rfl
                ((exits _ rfl).2.imp_right fun left => ⟨left.1, left.2.1⟩))
        | .ok (.returned _) | .error exception =>
            exact traced_completeThen sound coherent watched calls manned
  · rintro exception stage _ ⟨impossible, -⟩
    cases impossible

/-- The generator of a value is a coroutine of that kind. -/
theorem coroutine?_of_generator?
    {machine : Machine σ}
    {value : Value}
    (found : generator? machine value = some (id, coroutine)) :
    machine.coroutine? id = some coroutine ∧ coroutine.kind = .generator := by
  unfold generator? at found
  obtain ⟨object, -, rest⟩ := Option.bind_eq_some_iff.1 found
  obtain ⟨held, present, chosen⟩ := Option.bind_eq_some_iff.1 rest
  split at chosen
  · next kind =>
      cases chosen
      exact ⟨present, eq_of_beq kind⟩
  · cases chosen

/-- Dropping the frame of a generator that has not begun is balanced. -/
theorem keepsCalls_dropThen
    {next : Exec σ α}
    [balanced : Balanced next]
    (sound : env.Balanced)
    (ready : start.Ready env.watch)
    (found : start.machine.coroutine? id = some coroutine)
    (waits : coroutine.state.isSuspended = true) :
    KeepsCalls start ((park id .completed none >>= fun _ => next) env start.machine) := by
  have rests : ¬ start.machine.Runs id := by
    rintro ⟨other, present, running⟩
    cases found.symm.trans present
    rw [running] at waits
    cases waits
  refine Traced.bind _ (traced_park id rfl (fun _ impossible => by cases impossible)
    (Or.inr fun _ impossible => by cases impossible) (Or.inr fun _ _ _ => rfl)) ?_ ?_
  · rintro _ stage leads ⟨-, rfl⟩
    have settled : Stage.Manned none
        ⟨start.origins, start.machine.park id .completed none⟩ :=
      ready.manned.imp (fun lax => lax) fun manned =>
        manned.rest rests (by exact CoroutineState.noConfusion)
    exact (balanced.balancedIn env sound _ (ready.follow leads settled)).mono
      fun _ _ _ same => ⟨⟨same.calls.frames, same.calls.nativeDepth⟩,
        fun _ => same.manned settled⟩
  · rintro exception stage _ ⟨impossible, -⟩
    cases impossible

instance (generator : Value) (mode : ResumeMode) (value : Value) :
    Balanced (resumeGenerator generator mode value : Exec σ Value) where
  balancedIn env sound start ready := by
    unfold resumeGenerator
    rw [ask_bind]
    generalize found : generator? start.machine generator = held
    match held with
    | none => exact Balanced.traced _ sound ready
    | some (id, coroutine) =>
        obtain ⟨present, kind⟩ := coroutine?_of_generator? found
        dsimp only
        cases state : coroutine.state with
        | running | completed => exact Balanced.traced _ sound ready
        | suspendedYield =>
            exact keepsCalls_resumeSuspended sound ready present (by rw [state]; rfl) kind mode
              value
        | suspendedStart =>
            have waits : coroutine.state.isSuspended = true := by rw [state]; rfl
            dsimp only
            split
            · exact keepsCalls_resumeSuspended sound ready present waits kind mode value
            · exact keepsCalls_dropThen sound ready present waits

/-! ## Async functions -/

/-- The code of an async function does not yield anything. -/
theorem excused_of_yields
    {home suspended : Frame}
    {promise : ObjectId}
    (belongs : origins.lax ∨ home.routine? = some routine)
    (async : origins.lax ∨ (CoroutineKind.async promise).Suits routine.template)
    (leaves : origins.lax ∨ home.Suspends suspended ∧ suspended.template.Yields) :
    origins.lax ∨ suspended.Excused misstep := by
  refine Classical.or_iff_not_imp_left.2 fun demands accepted => ?_
  have belongs := belongs.resolve_left demands
  obtain ⟨suspends, yields⟩ := leaves.resolve_left demands
  have runs := (Frame.coroutine_of_routine? (suspends.routine.trans belongs)).2
  have generator := yields.isGenerator accepted
  have kind : routine.template.kind.isAsync = true := async.resolve_left demands
  rw [← runs] at kind
  cases same : suspended.template.kind <;> rw [same] at generator kind <;> contradiction

/-- Concluding a run of an async function parks its frame or drops it. -/
theorem traced_concludeAsync
    {base before : Stage σ}
    {outcome : Except Exception FrameExit}
    (sound : env.Balanced)
    (leads : before.Leads start)
    (coherent : start.Coherent)
    (watched : start.Watched env.watch)
    (calls : base.machine.SameCalls start.machine)
    (manned : start.Manned (some ⟨id, template⟩))
    (fits : Fits ⟨id, template⟩ frame before)
    (promise : ObjectId)
    (suits : before.origins.lax ∨ (CoroutineKind.async promise).Suits template)
    (exits : ∀ exit, outcome = .ok exit -> exit.Known start.origins frame) :
    Traced start (fun _ stage => base.SameCalls stage)
      (concludeAsync id promise outcome env start.machine) := by
  have belongs : start.origins.lax ∨ frame.routine? = some ⟨id, template⟩ := by
    rw [leads.keeps.origins.lax]
    exact fits.fits.imp_right And.left
  rw [← leads.keeps.origins.lax] at suits
  unfold concludeAsync
  match outcome with
  | .ok (.awaiting value suspended) =>
      have known := exits _ rfl
      refine traced_parkThen coherent watched calls manned rfl
        (by exact CoroutineState.noConfusion) (fun held same => ?_) fun _ ready =>
          Balanced.traced _ sound ready
      cases same
      exact fits.parks leads known.1 (known.2.imp_right fun left => left.1)
  | .ok (.yielded ..) | .ok (.started _) =>
      exact traced_completeStray coherent watched calls manned (excused_of_yields belongs suits
        ((exits _ rfl).2.imp_right fun left => ⟨left.1, left.2.1⟩))
  | .ok (.returned _) | .error exception =>
      exact traced_completeThen sound coherent watched calls manned

/-- Calling an async function is balanced. -/
theorem keepsCalls_startAsync
    (sound : env.Balanced)
    (ready : start.Ready env.watch)
    (known : start.origins.frame frame)
    (fresh : frame.Fresh cells)
    (async : frame.template.kind.isAsync = true) :
    KeepsCalls start (startAsync frame env start.machine) := by
  unfold startAsync
  refine .bindBalanced sound ready fun promise base leads ready => ?_
  have known := leads.keeps.origins.frame frame known
  have suits : (CoroutineKind.async promise).Suits frame.template := async
  rw [ask_bind]
  refine Traced.bind _ (traced_createCoroutine ready _ (.async promise) suits) ?_ ?_
  · rintro id stage leads ⟨_, settled, same, manned⟩
    cases settled
    obtain ⟨prepared, fits⟩ := leads_prepare (leads.keeps.origins.frame frame known) fresh id
    have coherent := prepared.coherent (leads.coherent ready.coherent)
    refine Traced.after_leads prepared (traced_afterRun sound coherent
      ((ready.watched.later leads).later prepared) manned fits .next .undefined (Or.inl rfl) ?_)
    intro outcome later further coherent watched manned unchanged exits
    refine .bind _ (traced_concludeAsync sound further coherent watched (same.trans unchanged)
      manned fits promise (Or.inr suits) exits) ?_ ?_
    · intro _ last _ calls
      exact .pure _ calls
    · intro exception last _ calls
      exact calls
  · rintro exception stage _ ⟨id, impossible, _⟩
    cases impossible

instance (id : ObjectId) (settlement : Settlement) (value : Value) :
    Balanced (resumeAsync id settlement value : Exec σ Unit) where
  balancedIn env sound start ready := by
    unfold resumeAsync
    rw [ask_bind]
    generalize found : start.machine.coroutine? id = present
    match present with
    | some { state := .suspendedYield, frame := held, kind := .async promise } =>
        refine Traced.bind _ (traced_unpark ready found rfl) ?_ ?_
        · rintro _ stage leads ⟨settled, same, parked⟩
          cases settled
          have coherent := leads.coherent ready.coherent
          cases held with
          | none =>
              refine .raise _ ⟨same, fun _ => ?_⟩
              have lax := ready.coherent.lax_of_frameless found rfl rfl
              rw [← leads.keeps.origins.lax] at lax
              exact Or.inl lax
          | some frame =>
              obtain ⟨manned, parks, suits⟩ := parked frame rfl
              refine traced_afterRun sound coherent (ready.watched.later leads) manned
                parks.fits (resumption settlement) value
                (Or.inr (parks.parks.imp_right And.right)) ?_
              intro outcome later further coherent watched manned unchanged exits
              exact traced_concludeAsync sound further coherent watched (same.trans unchanged)
                manned parks.fits promise suits exits
        · rintro exception stage _ ⟨impossible, -⟩
          cases impossible
    | some { state := .suspendedYield, frame := _, kind := .generator }
    | some { state := .suspendedStart, frame := _, kind := _ }
    | some { state := .running, frame := _, kind := _ }
    | some { state := .completed, frame := _, kind := _ } | none =>
        exact Balanced.traced (raise _) sound ready

end Exec
end ScriptVM

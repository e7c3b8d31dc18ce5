import ScriptVM.Proofs.PromiseEvolutions

/-!
# Journals

A machine writes down what is done to promises and to the queue of microtasks, and when rejections
are reported and handed out. In every run the entries of the journal are the steps in which
promises and microtasks change, one after the other. Between them promises only change in that some
are collected, and microtasks only in that an embedder discards them all.
-/

namespace ScriptVM

variable {σ : Type}

/-! ## Events -/

/-- The change of a machine in which an event consists. -/
inductive PromiseEvent.Occurs : PromiseEvent σ -> Machine σ -> Machine σ -> Prop
  | created (machine : Machine σ) (prototype : ObjectId) :
      Occurs (.created machine.heap.nextId) machine (machine.allocatePromise prototype).2
  | registered (machine : Machine σ) {promise : ObjectId}
      {record : PromiseRecord Value Reaction} (reaction : Reaction) :
      machine.promise? promise = some record ->
      Occurs (.registered promise reaction) machine (machine.registerReaction promise reaction).2
  | settled (machine : Machine σ) {promise : ObjectId}
      {record : PromiseRecord Value Reaction} (settlement : Settlement) (value : Value) :
      machine.promise? promise = some record -> record.state = .pending ->
      Occurs (.settled promise settlement value) machine
        (machine.settlePromise promise settlement value).2
  | queued (machine : Machine σ) {job : Job σ} :
      job.isReaction = false -> Occurs (.queued job) machine (machine.submitJob job)
  | started (machine : Machine σ) {job : Job σ} {jobs : EventLoop (Job σ) (HostProgram σ)} :
      machine.jobs.nextMicrotask? = some (job, jobs) ->
      Occurs (.started job) machine ({ machine with jobs }.note (.started job))
  | finished (machine : Machine σ) (env : Env σ) :
      machine.jobs.microtasks.jobs = [] ->
      Occurs .finished machine ((Machine.scheduler env).checkpointFinished machine)
  | handedOut (machine : Machine σ) :
      Occurs (.handedOut machine.unhandled) machine machine.takeUnhandled.2

namespace Machine

variable {machine before middle after : Machine σ} {promise : ObjectId}
  {record : PromiseRecord Value Reaction}

/-- Queueing jobs reports and forgets nothing, and writes nothing down. -/
theorem still_foldl_enqueueJob
    (reactions : List Reaction)
    (job : Reaction -> Job σ)
    (machine : Machine σ) :
    let after : Machine σ :=
      reactions.foldl (fun machine reaction => machine.enqueueJob (job reaction)) machine
    after.rejections = machine.rejections ∧ after.unhandled = machine.unhandled ∧
      after.config = machine.config ∧ after.journal = machine.journal :=
  List.foldlRecOn (motive := fun after : Machine σ => after.rejections = machine.rejections ∧
      after.unhandled = machine.unhandled ∧ after.config = machine.config ∧
      after.journal = machine.journal)
    reactions _ ⟨rfl, rfl, rfl, rfl⟩ fun _ same _ _ => same

/-- A settlement of a pending promise is written down, and it is remembered if it is a rejection
that nobody heeded. -/
theorem settlePromise_tracked
    (present : machine.promise? promise = some record)
    (pending : record.state = .pending)
    (settlement : Settlement)
    (value : Value) :
    let after := (machine.settlePromise promise settlement value).2
    after.rejections =
      (if settlement == .rejected && machine.config.trackUnhandledRejections && !record.handled
        then machine.rejections.rejected promise else machine.rejections) ∧
      after.unhandled = machine.unhandled ∧ after.config = machine.config ∧
      after.journal = machine.journal.push (.settled promise settlement value) := by
  obtain ⟨_, tracked, same⟩ := settlePromise_of_pending present pending settlement value
  dsimp only
  rw [same]
  obtain ⟨rejections, rest⟩ := still_foldl_enqueueJob record.reactions _ _
  exact ⟨rejections.trans tracked, rest⟩

/-- A registration is written down, and a rejection is forgotten when its promise gets a
reaction. -/
theorem registerReaction_tracked
    (present : machine.promise? promise = some record)
    (reaction : Reaction) :
    let after := (machine.registerReaction promise reaction).2
    after.rejections = machine.rejections.handled promise ∧
      after.unhandled = machine.unhandled ∧ after.config = machine.config ∧
      after.journal = machine.journal.push (.registered promise reaction) := by
  unfold registerReaction
  rw [present]
  dsimp only
  split <;> exact ⟨rfl, rfl, rfl, rfl⟩

end Machine

/-- Every event is written down when it occurs. -/
theorem PromiseEvent.Occurs.journal
    {event : PromiseEvent σ}
    {before after : Machine σ}
    (occurs : event.Occurs before after) :
    after.journal = before.journal.push event := by
  cases occurs with
  | created prototype =>
      exact congrArg (before.journal.push <| .created ·) (Heap.allocate_fst ..)
  | queued | started | handedOut => rfl
  | @registered _ _ _ reaction present =>
      exact (Machine.registerReaction_tracked present reaction).2.2.2
  | @settled _ _ _ settlement value present pending =>
      exact (Machine.settlePromise_tracked present pending settlement value).2.2.2
  | finished =>
      unfold Machine.scheduler
      dsimp only
      split <;> rfl

/-! ## Runs -/

namespace Machine

/-- A change that leaves promises, microtasks and what is known of rejections alone. -/
structure Idles (before after : Machine σ) : Prop where
  promises : ∀ id, after.promise? id = before.promise? id
  microtasks : after.jobs.microtasks = before.jobs.microtasks
  rejections : after.rejections = before.rejections
  unhandled : after.unhandled = before.unhandled
  config : after.config = before.config
  journal : after.journal = before.journal

/-- What becomes of a machine while an embedder does not ask for what is refused: one event after
the other. Apart from them, promises only change in that some are collected, and microtasks only
in that an embedder discards them. -/
inductive Unfolds (refused : Request -> Prop) (start : Machine σ) : Machine σ -> Prop
  | start : Unfolds refused start start
  | event {event : PromiseEvent σ} {before after : Machine σ} :
      start.Unfolds refused before -> before.heap.Tidy -> event.Occurs before after ->
      Unfolds refused start after
  | aside {before after : Machine σ} :
      start.Unfolds refused before -> before.Idles after -> Unfolds refused start after
  | collected {before : Machine σ} (kept : List Value) :
      start.Unfolds refused before -> before.heap.Tidy ->
      Unfolds refused start (before.collectGarbage kept).2
  | discarded {before : Machine σ} :
      start.Unfolds refused before -> ¬ refused .discardJobs ->
      Unfolds refused start { before with jobs := before.jobs.discard.2 }

variable {refused : Request -> Prop} {machine before after start first second third : Machine σ}
variable {earlier : List (PromiseEvent σ)}

theorem Unfolds.trans
    (unfolds : first.Unfolds refused second)
    (goesOn : second.Unfolds refused third) :
    first.Unfolds refused third := by
  induction goesOn with
  | start => exact unfolds
  | event _ tidy occurs step => exact step.event tidy occurs
  | aside _ idles step => exact step.aside idles
  | collected kept _ tidy step => exact step.collected kept tidy
  | discarded _ allowed step => exact step.discarded allowed

theorem journal_collectGarbage (machine : Machine σ) (kept : List Value) :
    (machine.collectGarbage kept).2.journal = machine.journal := by
  unfold collectGarbage
  split <;> rfl

/-- What was written down stays. -/
theorem Unfolds.journal (unfolds : start.Unfolds refused machine) :
    start.journal.toList <+: machine.journal.toList := by
  induction unfolds with
  | start => exact List.prefix_rfl
  | event _ _ occurs step =>
      rw [occurs.journal, Array.toList_push]
      exact step.trans (List.prefix_append ..)
  | aside _ idles step => rwa [idles.journal]
  | collected kept _ _ step => rwa [journal_collectGarbage]
  | discarded _ _ step => exact step

/-- Every entry is an event that occurred. -/
theorem Unfolds.occurred
    {event : PromiseEvent σ}
    (unfolds : start.Unfolds refused machine)
    (fresh : start.journal = #[])
    (entry : earlier ++ [event] <+: machine.journal.toList) :
    ∃ before after, start.Unfolds refused before ∧ before.journal.toList = earlier ∧
      event.Occurs before after ∧ after.Unfolds refused machine := by
  induction unfolds with
  | start =>
      rw [fresh] at entry
      exact absurd (List.prefix_nil.1 entry) (List.concat_ne_nil event earlier)
  | @event _ before _ unfolds tidy occurs step =>
      rw [occurs.journal, Array.toList_push] at entry
      rcases List.prefix_concat_iff.1 entry with same | part
      · obtain ⟨written, rfl⟩ := List.append_inj' same rfl |>.imp_right List.singleton_inj.1
        exact ⟨before, _, unfolds, written.symm, occurs, .start⟩
      · obtain ⟨first, second, led, written, occurred, leads⟩ := step part
        exact ⟨first, second, led, written, occurred, leads.event tidy occurs⟩
  | aside _ idles step =>
      obtain ⟨first, second, led, written, occurred, leads⟩ := step (idles.journal ▸ entry)
      exact ⟨first, second, led, written, occurred, leads.aside idles⟩
  | collected kept _ tidy step =>
      obtain ⟨first, second, led, written, occurred, leads⟩ :=
        step (journal_collectGarbage _ kept ▸ entry)
      exact ⟨first, second, led, written, occurred, leads.collected kept tidy⟩
  | discarded _ allowed step =>
      obtain ⟨first, second, led, written, occurred, leads⟩ := step entry
      exact ⟨first, second, led, written, occurred, leads.discarded allowed⟩

/-- So every part of the journal was once the whole. -/
theorem Unfolds.moment
    (unfolds : start.Unfolds refused machine)
    (fresh : start.journal = #[])
    (goesOn : earlier <+: machine.journal.toList) :
    ∃ moment, start.Unfolds refused moment ∧ moment.journal.toList = earlier := by
  obtain ⟨rest, written⟩ := goesOn
  cases rest with
  | nil => exact ⟨machine, unfolds, written.symm.trans (List.append_nil _)⟩
  | cons event rest =>
      have entry : earlier ++ [event] <+: machine.journal.toList :=
        ⟨rest, (List.append_assoc ..).trans written⟩
      obtain ⟨before, _, led, same, _⟩ := unfolds.occurred fresh entry
      exact ⟨before, led, same⟩

/-- The journal of a machine is what was done to it from the start: every entry is an event that
occurred after the entries before, every event that occurs is the next entry, and whatever an
embedder does next leaves the entries as they are. -/
structure KeepsJournal
    (refused : Request -> Prop)
    (start machine : Machine σ) : Prop where
  entries : ∀ earlier event, earlier ++ [event] <+: machine.journal.toList ->
    ∃ before after, start.Unfolds refused before ∧ before.journal.toList = earlier ∧
      event.Occurs before after ∧ after.Unfolds refused machine
  next : ∀ event after, event.Occurs machine after ->
    after.journal = machine.journal.push event
  stays : ∀ later : Sight σ, later.SeenWithout refused machine ->
    machine.journal.toList <+: later.machine.journal.toList

theorem Idles.beside
    (heap : after.heap = before.heap)
    (microtasks : after.jobs.microtasks = before.jobs.microtasks)
    (rejections : after.rejections = before.rejections)
    (unhandled : after.unhandled = before.unhandled)
    (config : after.config = before.config)
    (journal : after.journal = before.journal) :
    before.Idles after :=
  ⟨fun id => by unfold promise? kind?; rw [heap], microtasks, rejections, unhandled, config,
    journal⟩

theorem Still.idles (still : before.Still after) : before.Idles after :=
  ⟨still.promise?, congrArg EventLoop.microtasks still.jobs, still.rejections, still.unhandled,
    still.config, still.journal⟩

end Machine

/-! ## Every run unfolds -/

/-- Machines unfold while their embedder does not ask for what is refused. -/
def journals (σ : Type) (refused : Request -> Prop) : Evolution σ where
  holds machine := machine.heap.Tidy ∧ machine.Avoids refused
  leads before after := before.Unfolds refused after
  refl _ _ := .start
  trans := .trans
  refuses := refused

namespace journals

variable {refused : Request -> Prop} {machine before after : Machine σ} {job : Job σ}

/-- A change that leaves alone what the journal is about. -/
theorem passes_aside
    (tidy : before.heap.Tidy -> after.heap.Tidy)
    (avoids : before.Avoids refused -> after.Avoids refused)
    (idles : before.heap.Tidy -> before.Idles after) :
    (journals σ refused).Passes before after :=
  fun holds => ⟨⟨tidy holds.1, avoids holds.2⟩, .aside .start (idles holds.1)⟩

theorem passes_event
    {event : PromiseEvent σ}
    (occurs : event.Occurs before after)
    (holds : before.heap.Tidy -> before.Avoids refused ->
      after.heap.Tidy ∧ after.Avoids refused) :
    (journals σ refused).Passes before after :=
  fun held => ⟨holds held.1 held.2, .event .start held.1 occurs⟩

/-- A new object that is no promise. -/
theorem passes_adds
    {id : ObjectId}
    {kind : ObjectKind}
    (adds : before.heap.Tidy -> before.Adds after id kind)
    (unlike : ∀ record, kind ≠ .promise record)
    (avoids : before.Avoids refused -> after.Avoids refused)
    (idles : (∀ id, after.promise? id = before.promise? id) -> before.Idles after) :
    (journals σ refused).Passes before after :=
  passes_aside (fun tidy => (adds tidy).tidy) avoids
    fun tidy => idles ((adds tidy).promise?_of_unlike unlike)

theorem passes_createNative (machine : Machine σ) (native : NativeFunction) (arity : Nat) :
    (journals σ refused).Passes machine (machine.createNative native arity).2 :=
  passes_adds (fun tidy => .createNative tidy native arity)
    (fun _ => ObjectKind.noConfusion) (·.same rfl rfl) (⟨·, rfl, rfl, rfl, rfl, rfl⟩)

theorem passes_cells (machine : Machine σ) (cells : Cells) :
    (journals σ refused).Passes machine { machine with cells } :=
  passes_aside id (·.same rfl rfl) fun _ => .beside rfl rfl rfl rfl rfl rfl

theorem passes_settlePromise
    (machine : Machine σ)
    (promise : ObjectId)
    (settlement : Settlement)
    (value : Value) :
    (journals σ refused).Passes machine (machine.settlePromise promise settlement value).2 := by
  rcases machine.pending_or_settlePromise_eq promise settlement value with
    ⟨record, present, pending⟩ | same
  · refine passes_event (.settled machine settlement value present pending) fun tidy avoids => ?_
    have rewrites := Machine.rewrites_settlePromise tidy present pending settlement value
    refine ⟨rewrites.tidy, rewrites.avoids (fun job member => ?_) avoids⟩
    obtain ⟨_, _, rfl⟩ := List.mem_map.1 member
    rfl
  · rw [same]
    exact .refl machine

theorem passes_registerReaction
    (machine : Machine σ)
    (promise : ObjectId)
    (reaction : Reaction) :
    (journals σ refused).Passes machine (machine.registerReaction promise reaction).2 := by
  cases present : machine.promise? promise with
  | none =>
      rw [Machine.registerReaction_of_none present]
      exact .refl machine
  | some record =>
      refine passes_event (.registered machine reaction present) fun tidy avoids => ?_
      by_cases pending : record.state = .pending
      · have rewrites :=
          Machine.rewrites_registerReaction_of_pending tidy present pending reaction
        exact ⟨rewrites.tidy,
          rewrites.avoids (fun job member => absurd member List.not_mem_nil) avoids⟩
      · obtain ⟨settlement, value, settled⟩ := PromiseState.settled_of_ne pending
        have rewrites :=
          Machine.rewrites_registerReaction_of_settled tidy present settled reaction
        refine ⟨rewrites.tidy, rewrites.avoids (fun job member => ?_) avoids⟩
        cases List.mem_singleton.1 member
        rfl

theorem passes_submitJob
    (machine : Machine σ)
    (inert : job.isReaction = false)
    (avoids : ∀ body, job = .host body -> body.Avoids refused) :
    (journals σ refused).Passes machine (machine.submitJob job) := by
  refine passes_event (.queued machine inert) fun tidy avoided => ⟨tidy, avoided.hosts,
    avoided.tasks, fun body member => ?_⟩
  rcases List.mem_append.1 (show Job.host body ∈ machine.jobs.microtasks.jobs ++ [job] from member)
    with old | new
  · exact avoided.microtasks body old
  · exact avoids body (List.mem_singleton.1 new).symm

theorem passes_start
    (machine : Machine σ)
    {jobs : EventLoop (Job σ) (HostProgram σ)}
    (taken : machine.jobs.nextMicrotask? = some (job, jobs)) :
    (journals σ refused).Passes machine ({ machine with jobs }.note (.started job)) := by
  obtain ⟨tasks, microtasks⟩ := EventLoop.nextMicrotask?_spec taken
  refine passes_event (.started machine taken) fun tidy avoids => ⟨tidy, avoids.mono rfl
    (fun task member => tasks ▸ member) fun body member => ?_⟩
  rw [microtasks]
  exact .tail job member

instance lawful : (journals σ refused).Lawful where
  tidy holds := holds.1
  quiet still := passes_aside (fun _ => still.tidy) (·.same still.hosts still.jobs)
    fun _ => still.idles
  takeUnhandled machine := passes_event (.handedOut machine) fun tidy avoids =>
    ⟨tidy, avoids.same rfl rfl⟩
  fresh _ := trivial
  allocatePromise machine prototype :=
    passes_event (.created machine prototype) fun tidy avoids =>
      ⟨tidy.allocate (some prototype) _, avoids.same rfl rfl⟩
  settlePromise machine promise settlement value _ :=
    passes_settlePromise machine promise settlement value
  registerReaction machine promise reaction _ := passes_registerReaction machine promise reaction
  registers _ _ := trivial
  adopt machine _ _ _ _ := passes_submitJob machine rfl nofun
  createResolvingFunctions machine _ _ :=
    ((passes_cells machine _).trans (passes_createNative _ _ 1)).trans (passes_createNative _ _ 1)
  createElement machine _ _ _ _ _ := passes_createNative machine _ 1
  addAggregate machine _ := passes_cells machine _
  updateAggregate machine _ _ _ := passes_cells machine _

instance parking : (journals σ refused).discipline.Parking where
  allocateCoroutine _ prototype coroutine _ :=
    passes_adds (fun tidy => .allocate tidy prototype (.coroutine coroutine))
      (fun _ => ObjectKind.noConfusion) (·.same rfl rfl) (⟨·, rfl, rfl, rfl, rfl, rfl⟩)
  park machine id state frame :=
    passes_aside (fun tidy => tidy.modify id _) (·.same rfl rfl) fun _ =>
      ⟨machine.promise?_park id state frame, rfl, rfl, rfl, rfl, rfl⟩
  awaits _ := trivial

instance hosted : (journals σ refused).Hosted where
  avoids holds := holds.2
  pushHost machine body avoids := passes_aside id
    (fun avoided => ⟨fun other member receiver arguments => by
        rcases Array.mem_push.1 member with old | rfl
        · exact avoided.hosts other old receiver arguments
        · exact avoids receiver arguments,
      avoided.tasks, avoided.microtasks⟩)
    fun _ => .beside rfl rfl rfl rfl rfl rfl
  enqueueTask machine task avoids := passes_aside id
    (fun avoided => ⟨avoided.hosts, fun other member => by
        rcases List.mem_append.1 (show other ∈ machine.jobs.tasks.jobs ++ [task] from member)
          with old | new
        · exact avoided.tasks other old
        · exact List.mem_singleton.1 new ▸ avoids,
      avoided.microtasks⟩)
    fun _ => .beside rfl rfl rfl rfl rfl rfl
  enqueueMicrotask machine body avoids := passes_submitJob machine rfl (by
    rintro _ ⟨⟩
    exact avoids)
  reschedule machine jobs tasks microtasks :=
    passes_aside id (·.mono rfl tasks fun _ member => microtasks ▸ member)
      fun _ => .beside rfl microtasks rfl rfl rfl rfl
  finish env machine empty := passes_event (.finished machine env empty) fun tidy avoids =>
    have aside := Machine.aside_checkpointFinished tidy env
    ⟨aside.tidy, avoids.same aside.hosts aside.jobs⟩
  takeMicrotask machine _ _ := passes_start machine
  works {machine _ _ _} _ taken inner sound :=
    Evolution.keeps_work_of_forall (fun _ => trivial) (passes_start machine taken) inner sound
  settlers receiver arguments _ _ settles sound :=
    Evolution.keeps_settler_of_forall (fun _ => trivial) (fun machine _ => passes_cells machine _)
      settles sound receiver arguments
  resolves _ _ := trivial
  rejects _ _ := trivial
  discards machine allowed := fun holds => ⟨⟨holds.1, holds.2.mono rfl (List.nil_subset _) nofun⟩,
    .discarded .start allowed⟩
  collects kept _ := by
    suffices obedient : Exec.Obeys (journals σ refused).discipline
        (Exec.change fun machine => machine.collectGarbage kept) from obedient.obeys
    refine .change _ fun machine holds => ?_
    obtain ⟨tidy, _, _, jobs, hosts⟩ := Machine.collectGarbage_keeps holds.1 kept
    exact ⟨⟨tidy, holds.2.same hosts jobs⟩, .collected kept .start holds.1⟩

end journals

variable {refused : Request -> Prop} {start : Machine σ} {sight : Sight σ}

/-- What is seen of a machine has unfolded. -/
theorem Sight.SeenWithout.unfolds
    (seen : sight.SeenWithout refused start)
    (holds : (journals σ refused).holds start) :
    (journals σ refused).holds sight.machine ∧ start.Unfolds refused sight.machine :=
  have endless : ∀ machine, ¬ (journals σ refused).ends machine := fun _ => id
  Evolution.passes_seenWithout endless seen holds

theorem Sight.SeenWithout.keepsJournal
    (seen : sight.SeenWithout refused start)
    (holds : (journals σ refused).holds start)
    (fresh : start.journal = #[]) :
    start.KeepsJournal refused sight.machine := by
  obtain ⟨still, unfolds⟩ := seen.unfolds holds
  exact ⟨fun _ _ entry => unfolds.occurred fresh entry, fun _ _ occurs => occurs.journal,
    fun _ later => (later.unfolds still).2.journal⟩

end ScriptVM

import ScriptVM.Proofs.Journals

/-!
# Histories of promises

From the journal of a machine alone it follows which reactions were registered on which promise,
which jobs were queued for them and how many of the jobs have been run. A machine that is seen, as
long as nobody discards jobs, is at every moment what its journal tells.
-/

namespace ScriptVM

variable {σ : Type}

/-! ## Logs -/

/-- The reactions that were registered on a promise, oldest first, and how it settled. -/
structure PromiseLog where
  promise : ObjectId
  reactions : List Reaction := []
  settlement : Option (Settlement × Value) := none

/-- The jobs that are due: one for each reaction once the promise has settled. -/
def PromiseLog.jobs (log : PromiseLog) : List (Job σ) :=
  match log.settlement with
  | none => []
  | some (settlement, value) =>
      log.reactions.map fun reaction => Machine.reactionJob reaction settlement value

/-- More reactions may have been registered, and the promise may have settled. -/
structure PromiseLog.GrowsTo (earlier later : PromiseLog) : Prop where
  promise : later.promise = earlier.promise
  reactions : earlier.reactions <+: later.reactions
  settlement : ∀ outcome, earlier.settlement = some outcome -> later.settlement = some outcome

/-- The record of a promise is what its log tells: reactions wait until the promise settles. -/
def PromiseLog.Tells
    (log : PromiseLog)
    (record : PromiseRecord Value Reaction) : Prop :=
  match log.settlement with
  | none => record.state = .pending ∧ record.reactions = log.reactions
  | some (settlement, value) => record.state = settlement.state value ∧ record.reactions = []

namespace PromiseLog

variable {first second third log : PromiseLog}

theorem GrowsTo.refl (log : PromiseLog) : log.GrowsTo log :=
  ⟨rfl, List.prefix_rfl, fun _ same => same⟩

theorem GrowsTo.trans (earlier : first.GrowsTo second) (later : second.GrowsTo third) :
    first.GrowsTo third where
  promise := later.promise.trans earlier.promise
  reactions := earlier.reactions.trans later.reactions
  settlement outcome settled := later.settlement outcome (earlier.settlement outcome settled)

/-- The jobs that are due stay the first ones. -/
theorem GrowsTo.jobs (grows : first.GrowsTo second) :
    (first.jobs : List (Job σ)) <+: second.jobs := by
  unfold PromiseLog.jobs
  cases settled : first.settlement with
  | none => exact List.nil_prefix
  | some outcome =>
      rw [grows.settlement outcome settled]
      exact grows.reactions.map _

/-- A reaction is registered. -/
def register (log : PromiseLog) (reaction : Reaction) : PromiseLog :=
  { log with reactions := log.reactions ++ [reaction] }

/-- The promise settles, unless it has settled before. -/
def settle (log : PromiseLog) (settlement : Settlement) (value : Value) : PromiseLog :=
  match log.settlement with
  | none => { log with settlement := some (settlement, value) }
  | some _ => log

theorem growsTo_register (log : PromiseLog) (reaction : Reaction) :
    log.GrowsTo (log.register reaction) :=
  ⟨rfl, List.prefix_append .., fun _ settled => settled⟩

theorem growsTo_settle (log : PromiseLog) (settlement : Settlement) (value : Value) :
    log.GrowsTo (log.settle settlement value) := by
  unfold settle
  split
  · next pending => exact ⟨rfl, List.prefix_rfl, fun outcome settled => by
      rw [pending] at settled
      cases settled⟩
  · exact .refl log

end PromiseLog

/-! ## Chronicles -/

/-- What a history tells of all promises that there have been, numbered by their creation, and
of all microtasks that were queued, with the number of the promise to which a reaction reacts. -/
structure Chronicle (σ : Type) where
  logs : List PromiseLog := []
  /-- The number of the promise to which a handle belongs, or last belonged. -/
  current (promise : ObjectId) : Option Nat := none
  /-- The microtasks that were queued, oldest first. -/
  queued : List (Option Nat × Job σ) := []
  /-- The microtasks that were run, oldest first. -/
  ran : List (Job σ) := []

/-- The jobs among these that react to a promise. -/
def jobsOf (serial : Nat) (entries : List (Option Nat × Job σ)) : List (Job σ) :=
  (entries.filter fun entry => entry.1 == some serial).map Prod.snd

namespace Chronicle

/-- A log goes on, and the jobs that become due are queued. -/
def prolong (chronicle : Chronicle σ) (serial : Nat) (log later : PromiseLog) : Chronicle σ :=
  { chronicle with
    logs := chronicle.logs.set serial later
    queued := chronicle.queued ++
      (later.jobs.drop (log.jobs : List (Job σ)).length).map fun job => (some serial, job) }

/-- The log of a promise goes on. -/
def advance
    (chronicle : Chronicle σ)
    (promise : ObjectId)
    (change : PromiseLog -> PromiseLog) : Chronicle σ :=
  match chronicle.current promise with
  | none => chronicle
  | some serial =>
      match chronicle.logs[serial]? with
      | none => chronicle
      | some log => chronicle.prolong serial log (change log)

/-- Add an event. -/
def add (chronicle : Chronicle σ) : PromiseEvent σ -> Chronicle σ
  | .created promise =>
      { chronicle with
        logs := chronicle.logs ++ [{ promise }]
        current := Function.update chronicle.current promise (some chronicle.logs.length) }
  | .registered promise reaction =>
      chronicle.advance promise fun log => log.register reaction
  | .settled promise settlement value =>
      chronicle.advance promise fun log => log.settle settlement value
  | .queued job => { chronicle with queued := chronicle.queued ++ [(none, job)] }
  | .started job => { chronicle with ran := chronicle.ran ++ [job] }
  | .finished | .handedOut _ => chronicle

/-- Every reaction to a promise that settled has one job, in the order in which they were
registered, and reactions to a pending promise have none. No other job is a reaction. -/
structure Exact (chronicle : Chronicle σ) : Prop where
  jobs : ∀ (serial : Nat) (log : PromiseLog), chronicle.logs[serial]? = some log ->
    jobsOf serial chronicle.queued = log.jobs
  numbered : ∀ entry ∈ chronicle.queued, ∀ serial, entry.1 = some serial ->
    serial < chronicle.logs.length
  others : ∀ entry ∈ chronicle.queued, entry.1 = none -> entry.2.isReaction = false

/-- Of the jobs that were queued the first ones have been run and the others wait, and every
promise is what its log tells. -/
structure Tells (chronicle : Chronicle σ) (machine : Machine σ) : Prop where
  queue : chronicle.queued.map Prod.snd = chronicle.ran ++ machine.jobs.microtasks.jobs
  records : ∀ promise record, machine.promise? promise = some record ->
    ∃ serial log, chronicle.current promise = some serial ∧
      chronicle.logs[serial]? = some log ∧ log.promise = promise ∧ log.Tells record

/-- Promises are added, logs grow, and more jobs are queued and run. -/
structure GrowsTo (earlier later : Chronicle σ) : Prop where
  logs : ∀ (serial : Nat) (log : PromiseLog), earlier.logs[serial]? = some log ->
    ∃ grown, later.logs[serial]? = some grown ∧ log.GrowsTo grown
  queued : earlier.queued <+: later.queued
  ran : earlier.ran <+: later.ran

theorem GrowsTo.refl (chronicle : Chronicle σ) : chronicle.GrowsTo chronicle :=
  ⟨fun _ log present => ⟨log, present, .refl log⟩, List.prefix_rfl, List.prefix_rfl⟩

theorem GrowsTo.trans
    {first second third : Chronicle σ}
    (earlier : first.GrowsTo second)
    (later : second.GrowsTo third) :
    first.GrowsTo third where
  logs serial log present := by
    obtain ⟨grown, found, grows⟩ := earlier.logs serial log present
    obtain ⟨last, stands, goesOn⟩ := later.logs serial grown found
    exact ⟨last, stands, grows.trans goesOn⟩
  queued := earlier.queued.trans later.queued
  ran := earlier.ran.trans later.ran

variable {chronicle : Chronicle σ} {before after : Machine σ} {change : PromiseLog -> PromiseLog}

/-- What becomes of a chronicle when a log goes on. -/
theorem advance_of_current
    {promise : ObjectId}
    {serial : Nat}
    {log : PromiseLog}
    (change : PromiseLog -> PromiseLog)
    (current : chronicle.current promise = some serial)
    (present : chronicle.logs[serial]? = some log) :
    chronicle.advance promise change = chronicle.prolong serial log (change log) := by
  unfold advance
  rw [current]
  dsimp only
  rw [present]

/-- A chronicle does not advance, or a log that is found goes on. -/
theorem advance_cases
    (chronicle : Chronicle σ)
    (promise : ObjectId)
    (change : PromiseLog -> PromiseLog) :
    chronicle.advance promise change = chronicle ∨
      ∃ serial log, chronicle.logs[serial]? = some log ∧
        chronicle.advance promise change = chronicle.prolong serial log (change log) := by
  cases current : chronicle.current promise with
  | none =>
      refine .inl ?_
      unfold advance
      rw [current]
  | some serial =>
      cases present : chronicle.logs[serial]? with
      | none =>
          refine .inl ?_
          unfold advance
          rw [current]
          dsimp only
          rw [present]
      | some log => exact .inr ⟨serial, log, present, advance_of_current change current present⟩

@[simp] theorem jobsOf_append (serial : Nat) (first second : List (Option Nat × Job σ)) :
    jobsOf serial (first ++ second) = jobsOf serial first ++ jobsOf serial second := by
  unfold jobsOf
  rw [List.filter_append, List.map_append]

theorem jobsOf_tagged (serial other : Nat) (jobs : List (Job σ)) :
    jobsOf serial (jobs.map fun job => (some other, job)) =
      if other = serial then jobs else [] := by
  unfold jobsOf
  by_cases same : other = serial
  · subst same
    rw [if_pos rfl, List.filter_eq_self.2 (by simp), List.map_map]
    exact List.map_id jobs
  · rw [if_neg same, List.filter_eq_nil_iff.2 (by simp [same])]
    rfl

theorem Exact.advance
    (keeps : chronicle.Exact)
    (promise : ObjectId)
    (grows : ∀ log : PromiseLog, log.GrowsTo (change log)) :
    (chronicle.advance promise change).Exact := by
  rcases chronicle.advance_cases promise change with same | ⟨serial, log, present, advanced⟩
  · rw [same]
    exact keeps
  · rw [advanced]
    refine ⟨fun other found stands => ?_, fun entry member number tagged => ?_,
      fun entry member untagged => ?_⟩
    · dsimp only [prolong] at stands ⊢
      rw [jobsOf_append, jobsOf_tagged]
      by_cases same : serial = other
      · subst same
        have bound := (List.getElem?_eq_some_iff.1 present).1
        cases (List.getElem?_set_self bound).symm.trans stands
        rw [if_pos rfl, keeps.jobs serial log present]
        exact List.prefix_iff_eq_append.1 (grows log).jobs
      · rw [if_neg same, List.append_nil]
        exact keeps.jobs other found ((List.getElem?_set_ne same).symm.trans stands)
    · show number < (chronicle.logs.set serial (change log)).length
      rw [List.length_set]
      rcases List.mem_append.1 member with old | new
      · exact keeps.numbered entry old number tagged
      · obtain ⟨job, _, rfl⟩ := List.mem_map.1 new
        cases tagged
        exact (List.getElem?_eq_some_iff.1 present).1
    · rcases List.mem_append.1 member with old | new
      · exact keeps.others entry old untagged
      · obtain ⟨job, _, rfl⟩ := List.mem_map.1 new
        cases untagged

/-- An event that occurs leaves the chronicle exact. -/
theorem Exact.add
    {event : PromiseEvent σ}
    (keeps : chronicle.Exact)
    (occurs : event.Occurs before after) :
    (chronicle.add event).Exact := by
  cases occurs with
  | created prototype =>
      refine ⟨fun serial log present => ?_, fun entry member serial tagged => ?_,
        keeps.others⟩
      · rcases Nat.lt_or_ge serial chronicle.logs.length with old | new
        · exact keeps.jobs serial log (List.getElem?_append_left old ▸ present)
        · have fresh : jobsOf serial chronicle.queued = [] := by
            unfold jobsOf
            rw [List.map_eq_nil_iff, List.filter_eq_nil_iff]
            intro entry member tagged
            exact absurd (keeps.numbered entry member serial (beq_iff_eq.1 tagged))
              (Nat.not_lt.2 new)
          have made : log = { promise := before.heap.nextId } := by
            have found := List.mem_of_getElem? (List.getElem?_append_right new ▸ present)
            exact List.mem_singleton.1 found
          rw [made]
          exact fresh
      · show serial < (chronicle.logs ++ [_]).length
        rw [List.length_append]
        exact Nat.lt_add_right 1 (keeps.numbered entry member serial tagged)
  | @registered _ _ _ reaction present =>
      exact keeps.advance _ fun log => log.growsTo_register reaction
  | @settled _ _ _ settlement value present pending =>
      exact keeps.advance _ fun log => log.growsTo_settle settlement value
  | @queued _ job inert =>
      refine ⟨fun serial log present => ?_, fun entry member serial tagged => ?_,
        fun entry member untagged => ?_⟩
      · have untagged : jobsOf serial [(none, job)] = [] := rfl
        show jobsOf serial (chronicle.queued ++ [(none, job)]) = _
        rw [jobsOf_append, untagged, List.append_nil]
        exact keeps.jobs serial log present
      · rcases List.mem_append.1 member with old | new
        · exact keeps.numbered entry old serial tagged
        · cases List.mem_singleton.1 new
          cases tagged
      · rcases List.mem_append.1 member with old | new
        · exact keeps.others entry old untagged
        · cases List.mem_singleton.1 new
          exact inert
  | started => exact ⟨keeps.jobs, keeps.numbered, keeps.others⟩
  | finished | handedOut => exact keeps

/-! ## Machines that are told -/

end Chronicle

theorem Settlement.state_injective
    {first second : Settlement}
    {left right : Value}
    (same : first.state left = second.state right) :
    first = second ∧ left = right := by
  cases first <;> cases second <;> cases same <;> exact ⟨rfl, rfl⟩

namespace PromiseLog

variable {log : PromiseLog} {record : PromiseRecord Value Reaction}

/-- The log of a pending promise has no outcome. -/
theorem Tells.pending (tells : log.Tells record) (pending : record.state = .pending) :
    log.settlement = none ∧ record.reactions = log.reactions := by
  unfold PromiseLog.Tells at tells
  split at tells
  · next unsettled => exact ⟨unsettled, tells.2⟩
  · next settlement value _ => exact absurd (tells.1.symm.trans pending) (settlement.state_ne value)

/-- The log of a settled promise has its outcome. -/
theorem Tells.settled
    {settlement : Settlement}
    {value : Value}
    (tells : log.Tells record)
    (settled : record.state = settlement.state value) :
    log.settlement = some (settlement, value) ∧ record.reactions = [] := by
  unfold PromiseLog.Tells at tells
  split at tells
  · exact absurd (settled.symm.trans tells.1) (settlement.state_ne value)
  · next other held found =>
      obtain ⟨rfl, rfl⟩ := Settlement.state_injective (tells.1.symm.trans settled)
      exact ⟨found, tells.2⟩

end PromiseLog

namespace Chronicle

variable {chronicle : Chronicle σ} {before after start machine : Machine σ}

/-- A chronicle tells the new record of a promise if the log that goes on does, and if the jobs
that become due are the ones that are queued. -/
theorem Tells.advance
    {promise : ObjectId}
    {old record : PromiseRecord Value Reaction}
    {jobs : List (Job σ)}
    {change : PromiseLog -> PromiseLog}
    (tells : chronicle.Tells before)
    (present : before.promise? promise = some old)
    (rewrites : before.Rewrites after promise record jobs)
    (told : ∀ log : PromiseLog, log.Tells old ->
      (change log).promise = log.promise ∧ (change log).Tells record ∧
        (change log).jobs = log.jobs ++ jobs) :
    (chronicle.advance promise change).Tells after := by
  obtain ⟨serial, log, current, found, named, tellsOld⟩ := tells.records promise old present
  obtain ⟨stays, tellsNew, due⟩ := told log tellsOld
  rw [advance_of_current change current found, prolong, due, List.drop_left]
  refine ⟨?_, fun other kept stands => ?_⟩
  · rw [rewrites.microtasks, List.map_append, tells.queue, List.map_map, List.append_assoc]
    exact congrArg _ (congrArg _ (List.map_id jobs))
  · rw [rewrites.promise?] at stands
    have bound := (List.getElem?_eq_some_iff.1 found).1
    by_cases same : promise = other
    · rw [if_pos same] at stands
      cases stands
      exact ⟨serial, change log, same ▸ current, List.getElem?_set_self bound,
        (stays.trans named).trans same, tellsNew⟩
    · rw [if_neg same] at stands
      obtain ⟨number, apart, currently, logged, belongs, tellsKept⟩ :=
        tells.records other kept stands
      refine ⟨number, apart, currently, ?_, belongs, tellsKept⟩
      refine (List.getElem?_set_ne fun equal => same ?_).trans logged
      subst equal
      cases found.symm.trans logged
      exact named.symm.trans belongs

/-- What an event makes of a machine is told by the chronicle with that event. -/
theorem Tells.add
    {event : PromiseEvent σ}
    (tells : chronicle.Tells before)
    (tidy : before.heap.Tidy)
    (occurs : event.Occurs before after) :
    (chronicle.add event).Tells after := by
  cases occurs with
  | @created _ prototype =>
      have adds := Machine.Adds.allocate tidy (some prototype) (.promise {})
      refine ⟨tells.queue, fun promise record present => ?_⟩
      have here := (adds.promise? promise).symm.trans present
      by_cases same : before.heap.nextId = promise
      · rw [if_pos same] at here
        cases here
        subst same
        exact ⟨chronicle.logs.length, { promise := before.heap.nextId },
          Function.update_self .., List.getElem?_concat_length, rfl, rfl, rfl⟩
      · rw [if_neg same] at here
        obtain ⟨serial, log, current, found, named, told⟩ := tells.records promise record here
        refine ⟨serial, log, ?_, ?_, named, told⟩
        · exact (Function.update_of_ne (Ne.symm same) ..).trans current
        · exact (List.getElem?_append_left (List.getElem?_eq_some_iff.1 found).1).trans found
  | @registered _ _ old reaction present =>
      by_cases pending : old.state = .pending
      · refine tells.advance present
          (Machine.rewrites_registerReaction_of_pending tidy present pending reaction)
          fun log told => ?_
        obtain ⟨unsettled, waiting⟩ := told.pending pending
        refine ⟨rfl, ?_, ?_⟩
        · unfold PromiseLog.Tells PromiseLog.register
          rw [unsettled]
          exact ⟨pending, congrArg (· ++ [reaction]) waiting⟩
        · unfold PromiseLog.jobs PromiseLog.register
          rw [unsettled]
          rfl
      · obtain ⟨settlement, value, settled⟩ := PromiseState.settled_of_ne pending
        refine tells.advance present
          (Machine.rewrites_registerReaction_of_settled tidy present settled reaction)
          fun log told => ?_
        obtain ⟨outcome, cleared⟩ := told.settled settled
        refine ⟨rfl, ?_, ?_⟩
        · unfold PromiseLog.Tells PromiseLog.register
          rw [outcome]
          exact ⟨settled, cleared⟩
        · unfold PromiseLog.jobs PromiseLog.register
          rw [outcome]
          exact List.map_append
  | @settled _ _ old settlement value present pending =>
      refine tells.advance present
        (Machine.rewrites_settlePromise tidy present pending settlement value) fun log told => ?_
      obtain ⟨unsettled, waiting⟩ := told.pending pending
      have outcome : log.settle settlement value =
          { log with settlement := some (settlement, value) } := by
        unfold PromiseLog.settle
        rw [unsettled]
      rw [outcome]
      refine ⟨rfl, ⟨rfl, rfl⟩, ?_⟩
      unfold PromiseLog.jobs
      rw [unsettled, waiting]
      rfl
  | @queued _ job =>
      refine ⟨?_, tells.records⟩
      show (chronicle.queued ++ [(none, job)]).map Prod.snd =
        chronicle.ran ++ (before.jobs.microtasks.jobs ++ [job])
      rw [List.map_append, tells.queue, List.append_assoc]
      rfl
  | @started _ job jobs taken =>
      refine ⟨?_, tells.records⟩
      show chronicle.queued.map Prod.snd = (chronicle.ran ++ [job]) ++ jobs.microtasks.jobs
      rw [tells.queue, (EventLoop.nextMicrotask?_spec taken).2, List.append_assoc]
      rfl
  | finished _ env =>
      have aside := Machine.aside_checkpointFinished tidy env
      refine ⟨?_, fun promise record present =>
        tells.records promise record ((aside.promise? promise).symm.trans present)⟩
      rw [aside.jobs]
      exact tells.queue
  | handedOut => exact ⟨tells.queue, tells.records⟩

end Chronicle

end ScriptVM

import ScriptVM.Proofs.Sustaining.Objects
import ScriptVM.Proofs.PromiseRecords

/-!
# Links and queues that sustain a machine

New prototype links after the check for cycles, settled promises with the jobs they queue,
and what an embedder installs.
-/

namespace ScriptVM

variable {σ : Type} {collects : Bool}

namespace Machine

variable {machine : Machine σ} {prototype : Option ObjectId}

/-! ## Prototype links -/

theorem isProxy_setPrototype
    (machine : Machine σ)
    (id : ObjectId)
    (prototype : Option ObjectId)
    (other : ObjectId) :
    (machine.modifyHeap fun heap => heap.setPrototype id prototype).isProxy other =
      machine.isProxy other := by
  unfold isProxy kind? modifyHeap
  dsimp only
  rw [Heap.payload?_setPrototype]

/-- Only the link of the object itself is another one. -/
theorem prototypeOf_setPrototype
    {id : ObjectId}
    {other parent : ObjectId}
    (linked : (machine.modifyHeap fun heap => heap.setPrototype id prototype).heap.prototypeOf
      other = some parent) :
    other = id ∧ prototype = some parent ∨
      other ≠ id ∧ machine.heap.prototypeOf other = some parent := by
  obtain ⟨change, alters, changes⟩ := machine.heap.alters_setPrototype id prototype
  obtain ⟨object, live, links⟩ := Option.bind_eq_some_iff.1 linked
  obtain ⟨old, standing, ⟨rfl, rfl⟩ | ⟨apart, rfl⟩⟩ := alters.altered live
  · refine Or.inl ⟨rfl, ?_⟩
    rw [← (changes old standing).1]
    exact links
  · exact Or.inr ⟨Ne.symm apart, Option.bind_eq_some_iff.2 ⟨object, standing, links⟩⟩

/-- The second object is on the chain of prototypes from the first one, and no proxy comes
before it. -/
inductive Leads (machine : Machine σ) : ObjectId -> ObjectId -> Prop
  | self (id : ObjectId) : Leads machine id id
  | link {id parent last : ObjectId} : machine.isProxy id = false ->
      machine.heap.prototypeOf id = some parent -> Leads machine parent last ->
      Leads machine id last

/-- A link closes no cycle unless it leads back to the object itself. -/
theorem Acyclic.setPrototype
    {id : ObjectId}
    (apart : ∀ parent, prototype = some parent -> ¬ machine.Leads parent id)
    (acyclic : machine.Acyclic) :
    (machine.modifyHeap fun heap => heap.setPrototype id prototype).Acyclic := by
  have avoids : ∀ first, ¬ machine.Leads first id ->
      (machine.modifyHeap fun heap => heap.setPrototype id prototype).ChainEnds first := by
    intro first
    induction acyclic first with
    | proxy proxy => exact fun _ => .proxy ((isProxy_setPrototype ..).trans proxy)
    | @link first _ step =>
        intro distant
        cases proxy : machine.isProxy first with
        | true => exact .proxy ((isProxy_setPrototype ..).trans proxy)
        | false =>
            refine .link fun parent linked => ?_
            rcases prototypeOf_setPrototype linked with ⟨rfl, _⟩ | ⟨_, old⟩
            · exact absurd (.self first) distant
            · exact step parent old fun leads => distant (.link proxy old leads)
  intro other
  induction acyclic other with
  | proxy proxy => exact .proxy ((isProxy_setPrototype ..).trans proxy)
  | link _ step =>
      refine .link fun parent linked => ?_
      rcases prototypeOf_setPrototype linked with ⟨_, new⟩ | ⟨_, old⟩
      · exact avoids parent (apart parent new)
      · exact step parent old

/-- A class definition makes its constructor inherit from the parent, and the prototype its
home object. -/
def linkClass (machine : Machine σ) (id parent prototype : ObjectId) : Machine σ :=
  (machine.modifyHeap fun heap => heap.setPrototype id (some parent)).modifyClosure id
    fun closure => { closure with homeObject := some prototype }

/-- A class definition has just linked a constructor to a parent that inherits from the
constructor itself. -/
def ClosedByClass (machine : Machine σ) : Prop :=
  ∃ (before : Machine σ) (id parent prototype : ObjectId),
    before.Acyclic ∧ before.Leads parent id ∧ machine = before.linkClass id parent prototype

/-- The check for cycles finds the object itself. -/
theorem apart_of_mayLink
    {id : ObjectId}
    {limit : Nat}
    {start : Option ObjectId}
    (allowed : machine.mayLink id limit start = .ok true)
    (first : ObjectId)
    (starts : start = some first) :
    ¬ machine.Leads first id := by
  induction limit generalizing start first with
  | zero =>
      subst starts
      unfold mayLink at allowed
      split at allowed
      · cases allowed
      · next other =>
          split at allowed
          · next proxy =>
              intro leads
              cases leads with
              | self => exact other BEq.rfl
              | link bare => exact Bool.noConfusion (bare.symm.trans proxy)
          · cases allowed
  | succ limit step =>
      subst starts
      unfold mayLink at allowed
      split at allowed
      · cases allowed
      · next other =>
          intro leads
          split at allowed
          · next proxy =>
              cases leads with
              | self => exact other BEq.rfl
              | link bare => exact Bool.noConfusion (bare.symm.trans proxy)
          · cases leads with
            | self => exact other BEq.rfl
            | link bare linked leads => exact step allowed _ linked leads

section

variable {after : Machine σ} {jobs : List (Job σ)} {old : PromiseRecord Value Reaction}
variable {value : Value} {aggregate : Aggregate Value}
variable [consistent : machine.Consistent collects] {record : PromiseRecord Value Reaction}
  {promise : ObjectId}

instance (id : ObjectId) (prototype : Option ObjectId) [machine.Vouches prototype] :
    machine.Sustains collects (machine.setPrototypeOf id prototype).2 := by
  unfold setPrototypeOf
  split
  · exact .refl machine
  · next target _ =>
      split
      · exact .refl machine
      · split
        · exact .refl machine
        · split
          · next allowed =>
              obtain ⟨consistent, later⟩ : Consistent collects _ ∧ Later machine _ :=
                Consistent.setPrototype target prototype
              exact ⟨consistent, later, .setPrototype (apart_of_mayLink allowed)⟩
          · exact .refl machine

include consistent in
/-- Whatever a class definition links, what was vouched for is vouched for still, and it can
only close a cycle through the constructor. -/
theorem consistent_linkClass
    (id parent prototype : ObjectId)
    [machine.Vouches parent]
    [machine.Vouches prototype] :
    (machine.linkClass id parent prototype).Consistent collects ∧
      Later machine (machine.linkClass id parent prototype) ∧
        (¬ machine.Leads parent id -> machine.Acyclic ->
          (machine.linkClass id parent prototype).Acyclic) := by
  obtain ⟨linked, later⟩ : Consistent collects _ ∧ Later machine _ :=
    Consistent.setPrototype id (some parent)
  have homed : Sustains collects _ (machine.linkClass id parent prototype) :=
    sustains_modifyClosure id (some prototype)
  refine ⟨homed.consistent, later.trans homed.later, fun apart acyclic => homed.acyclic ?_⟩
  exact acyclic.setPrototype fun other same => Option.some.inj same ▸ apart

/-! ## Promises -/

instance (id : ObjectId) : machine.Vouches (machine.promise? id) := by
  unfold promise?
  split
  · next record present =>
      have kind : machine.Vouches (ObjectKind.promise record) := .of_some present
      exact vouches_some.2 ⟨kind.accepts⟩
  · exact vouches_none

omit consistent in
theorem vouches_of_promise? {id : ObjectId} (present : machine.promise? id = some record) :
    machine.Vouches (PromiseHandle.mk id) :=
  vouches_promiseHandle.2 ⟨record, kind?_of_promise? present⟩

omit consistent in
theorem vouches_record {record : PromiseRecord Value Reaction} :
    machine.Vouches record ↔ machine.Vouches record.state ∧ machine.Vouches record.reactions :=
  vouches_append _ _ rfl

omit consistent in
theorem vouches_settlement (settlement : Settlement) (value : Value) [machine.Vouches value] :
    machine.Vouches (settlement.state value) := by
  cases settlement <;> unfold Settlement.state <;> infer_instance

omit consistent in
theorem Rewrites.reactions
    (rewrites : machine.Rewrites after promise record jobs)
    (id : ObjectId) :
    after.reactions id = if promise = id then record.reactions else machine.reactions id := by
  unfold Machine.reactions
  rw [rewrites.kind?]
  split <;> rfl

omit consistent in
theorem Rewrites.asyncState?
    {old record : PromiseRecord Value Reaction}
    (rewrites : machine.Rewrites after promise record jobs)
    (present : machine.promise? promise = some old)
    (id : ObjectId) :
    after.asyncState? id = machine.asyncState? id := by
  unfold Machine.asyncState?
  rw [rewrites.kind?]
  split
  · next same =>
      subst same
      rw [kind?_of_promise? present]
      rfl
  · rfl

omit consistent in
theorem reactions_of_promise? {id : ObjectId} (present : machine.promise? id = some record) :
    machine.reactions id = record.reactions :=
  reactions_of_kind? (kind?_of_promise? present)

/-- A promise gets a record that is vouched for. -/
theorem maintains_setPromise
    {id : ObjectId}
    (present : machine.promise? id = some old)
    (record : PromiseRecord Value Reaction)
    (resumes : (machine.setPromise id record).ResumesOnce)
    [new : machine.Vouches record] :
    machine.Maintains collects (machine.setPromise id record) := by
  have alters := machine.heap.alters_modifyPayload id fun _ => .promise record
  have payload : ∀ object, machine.heap.get? id = some object -> object.payload = .promise old :=
    fun object live => by
      have stands : machine.kind? id = some object.payload := by
        unfold kind? Heap.payload?
        rw [live]
        rfl
      exact Option.some.inj (stands.symm.trans (kind?_of_promise? present))
  refine .alter alters (fun object live => ?_) (fun object live old => ?_)
    (.alter alters fun object live => ?_) resumes
    (.alter alters (fun object live => ?_) fun object _ => rfl)
  · rw [payload object live]
    rfl
  · obtain ⟨prototype, entries, _⟩ := vouches_object.1 old
    exact vouches_object.2 ⟨prototype, entries, ⟨new.accepts⟩⟩
  · rw [payload object live]
    rfl
  · rw [payload object live]
    rfl

/-- Jobs of reactions are queued behind the others. -/
theorem exists_enqueueReactions
    (machine : Machine σ)
    (reactions : List Reaction)
    (settlement : Settlement)
    (value : Value) :
    ∃ jobs, reactions.foldl (fun machine reaction =>
        machine.enqueueJob (reactionJob reaction settlement value)) machine =
          { machine with jobs } ∧
      jobs.tasks = machine.jobs.tasks ∧
      jobs.microtasks.jobs = machine.jobs.microtasks.jobs ++
        reactions.map fun reaction => reactionJob reaction settlement value := by
  induction reactions generalizing machine with
  | nil => exact ⟨machine.jobs, rfl, rfl, (List.append_nil _).symm⟩
  | cons reaction rest step =>
      obtain ⟨jobs, same, tasks, queued⟩ :=
        step (machine.enqueueJob (reactionJob reaction settlement value))
      exact ⟨jobs, same, tasks, queued.trans (List.append_assoc _ [_] _)⟩

/-- Jobs of reactions that are vouched for wait behind the others. -/
theorem maintains_enqueueReactions
    (reactions : List Reaction)
    (settlement : Settlement)
    (value : Value)
    (resumes : (reactions.foldl (fun machine reaction =>
      machine.enqueueJob (reactionJob reaction settlement value)) machine).ResumesOnce)
    [machine.Vouches value]
    [vouched : machine.Vouches reactions] :
    machine.Maintains collects (reactions.foldl (fun machine reaction =>
      machine.enqueueJob (reactionJob reaction settlement value)) machine) := by
  obtain ⟨jobs, same, tasks, queued⟩ :=
    exists_enqueueReactions machine reactions settlement value
  rw [same] at resumes ⊢
  have ready : machine.Vouches (reactions.map fun reaction =>
      (reactionJob reaction settlement value : Job σ)) := by
    refine vouches_list.2 fun job member => ?_
    obtain ⟨reaction, waits, rfl⟩ := List.mem_map.1 member
    have : machine.Vouches reaction := vouches_list.1 vouched reaction waits
    unfold reactionJob
    infer_instance
  have microtasks : machine.Vouches jobs.microtasks.jobs := by
    rw [queued]
    infer_instance
  refine maintains_tables rfl rfl rfl rfl (Nat.le_refl _)
    ⟨consistent.attended.hosts, fun body member => ?_, fun body member => ?_⟩ resumes
  · exact consistent.attended.tasks body (tasks ▸ member)
  · change _ ∈ jobs.microtasks.jobs at member
    rw [queued] at member
    rcases List.mem_append.1 member with old | new
    · exact consistent.attended.microtasks body old
    · obtain ⟨reaction, _, impossible⟩ := List.mem_map.1 new
      cases impossible

theorem maintains_settlePromise
    (present : machine.promise? promise = some record)
    (pending : record.state = .pending)
    (settlement : Settlement)
    (value : Value)
    (resumes : (machine.settlePromise promise settlement value).2.ResumesOnce)
    [vouched : machine.Vouches value] :
    machine.Maintains collects (machine.settlePromise promise settlement value).2 := by
  have reactions := (vouches_record.1 (.of_some present : machine.Vouches record)).2
  have named := vouches_of_promise? present
  have state : machine.Vouches (settlement.state value) := vouches_settlement settlement value
  obtain ⟨rejections, tracked, same⟩ :=
    settlePromise_of_pending present pending settlement value
  generalize settles : ({ record with state := settlement.state value, reactions := [] } :
    PromiseRecord Value Reaction) = settled at same
  have sets := Rewrites.setPromise consistent.tidy present settled
  have carries : machine.CarriesOver (machine.setPromise promise settled) :=
    .of_stay (fun {_ other _ _} _ stands => by
      rw [sets.reactions, ← settles] at stands
      split at stands
      · cases stands
      · exact stands) (fun _ => id) fun stands => (sets.asyncState? present _).trans stands
  have renewed : machine.Vouches settled := settles ▸ vouches_record.2 ⟨state, vouches_nil⟩
  have replaced := maintains_setPromise present settled (carries.resumesOnce consistent.resumes)
  have := replaced.consistent
  have pending : (machine.setPromise promise settled).Vouches rejections.pending :=
    replaced.preserves.vouches (by
      rw [tracked]
      split
      · exact vouches_rejected promise
      · exact consistent.rejections)
  have tracks : (machine.setPromise promise settled).Sustains collects
      { (machine.setPromise promise settled).note (.settled promise settlement value) with
        rejections } :=
    @sustains_tables _ _ _ this _ rfl rfl rfl rfl rfl (this.attended.congr rfl rfl)
      (.of_heap rfl fun _ => id) this.microtasks pending this.unhandled
  have value := tracks.later.vouches (replaced.preserves.vouches vouched)
  have reactions := tracks.later.vouches (replaced.preserves.vouches reactions)
  rw [same] at resumes ⊢
  exact (replaced.trans tracks.maintains).trans
    (maintains_enqueueReactions record.reactions settlement _ resumes)

instance (promise : ObjectId) (settlement : Settlement) (value : Value) [machine.Vouches value] :
    machine.Sustains collects (machine.settlePromise promise settlement value).2 := by
  by_cases settled : ∀ record, machine.promise? promise = some record -> record.state ≠ .pending
  · rw [settlePromise_of_settled settled]
    exact .refl machine
  · obtain ⟨record, present, pending⟩ : ∃ record, machine.promise? promise = some record ∧
        record.state = .pending := by
      simpa using settled
    have rewrites := rewrites_settlePromise consistent.tidy present pending settlement value
    have carries : machine.CarriesOver (machine.settlePromise promise settlement value).2 :=
      .of_settlement rewrites.reactions (rewrites.asyncState? present)
        (reactions_of_promise? present ▸ rewrites.microtasks)
    exact (maintains_settlePromise present pending settlement value
      (carries.resumesOnce consistent.resumes)).sustains carries.inHand

/-- A new record, with more or less known of rejections. -/
theorem maintains_heed
    (present : machine.promise? promise = some old)
    (record : PromiseRecord Value Reaction)
    (event : PromiseEvent σ)
    (rejections : Rejections ObjectId)
    (resumes : (machine.setPromise promise record).ResumesOnce)
    [machine.Vouches record]
    [tracked : machine.Vouches rejections.pending] :
    machine.Maintains collects
      { (machine.setPromise promise record).note event with rejections } := by
  have replaced := maintains_setPromise present record resumes
  have renewed := replaced.consistent
  exact replaced.trans (@maintains_tables _ _ _ renewed _ rfl rfl rfl rfl (Nat.le_refl _)
    (consistent.attended.congr rfl rfl) (resumes.of_same rfl rfl) renewed.microtasks
    (replaced.preserves.vouches tracked) renewed.unhandled)

/-- A registration replaces the record, and queues a job if the promise is settled. -/
theorem maintains_registerReaction
    (promise : ObjectId)
    (reaction : Reaction)
    (resumes : (machine.registerReaction promise reaction).2.ResumesOnce)
    [new : machine.Vouches reaction] :
    machine.Maintains collects (machine.registerReaction promise reaction).2 := by
  cases present : machine.promise? promise with
  | none =>
      rw [registerReaction_of_none present]
      exact (Sustains.refl machine).maintains
  | some record =>
      obtain ⟨state, reactions⟩ := vouches_record.1 (.of_some present : machine.Vouches record)
      have heeded : machine.Vouches (machine.rejections.handled promise).pending :=
        .of_subset List.filter_sublist.subset
      by_cases pending : record.state = .pending
      · rw [registerReaction_eq_of_pending present pending] at resumes ⊢
        have : machine.Vouches (⟨record.state, record.reactions ++ [reaction], true⟩ :
            PromiseRecord Value Reaction) := vouches_record.2 ⟨state, inferInstance⟩
        exact maintains_heed present _ _ _ (resumes.of_same rfl rfl)
      · obtain ⟨settlement, value, settled⟩ := PromiseState.settled_of_ne pending
        have : machine.Vouches (⟨record.state, record.reactions, true⟩ :
            PromiseRecord Value Reaction) := vouches_record.2 ⟨state, reactions⟩
        have value : machine.Vouches value := by
          rw [settled] at state
          cases settlement with
          | fulfilled => exact vouches_fulfilled_iff.1 state
          | rejected => exact vouches_rejected_iff.1 state
        have sets := Rewrites.setPromise consistent.tidy present { record with handled := true }
        have carries : machine.CarriesOver (machine.setPromise promise _) :=
          .of_same (fun id => by
            rw [sets.reactions]
            split
            · next same => exact (same ▸ reactions_of_promise? present).symm
            · rfl) (sets.asyncState? present) rfl
        have heeds := maintains_heed present { record with handled := true }
          (.registered promise reaction) (machine.rejections.handled promise)
          (carries.resumesOnce consistent.resumes)
        rw [registerReaction_eq_of_settled present settled] at resumes ⊢
        have := heeds.consistent
        have := heeds.preserves.vouches value
        have := heeds.preserves.vouches new
        exact heeds.trans (maintains_enqueueReactions [reaction] settlement _ resumes)

include consistent in
theorem asyncState?_registerReaction
    (promise : ObjectId)
    (reaction : Reaction)
    (id : ObjectId) :
    (machine.registerReaction promise reaction).2.asyncState? id = machine.asyncState? id := by
  cases present : machine.promise? promise with
  | none => rw [registerReaction_of_none present]
  | some record =>
      by_cases pending : record.state = .pending
      · exact (rewrites_registerReaction_of_pending consistent.tidy present pending
          reaction).asyncState? present id
      · obtain ⟨settlement, value, settled⟩ := PromiseState.settled_of_ne pending
        exact (rewrites_registerReaction_of_settled consistent.tidy present settled
          reaction).asyncState? present id

include consistent in
variable (machine) in
/-- After a registration, a resumption waited before, or it is the one of the new reaction. -/
theorem exists_place_registerReaction (promise : ObjectId) (reaction : Reaction) :
    ∃ place, ∀ {coroutine position},
      (machine.registerReaction promise reaction).2.ResumesAt coroutine position ->
        machine.ResumesAt coroutine position ∨ reaction.Resumes coroutine ∧ position = place := by
  cases present : machine.promise? promise with
  | none =>
      rw [registerReaction_of_none present]
      exact ⟨.job 0, Or.inl⟩
  | some record =>
      have waiting := reactions_of_promise? present
      by_cases pending : record.state = .pending
      · have rewrites := rewrites_registerReaction_of_pending consistent.tidy present pending reaction
        refine ⟨.reaction promise record.reactions.length, fun {coroutine position} waits => ?_⟩
        cases waits with
        | @reaction other index found stands resumes =>
            rw [rewrites.reactions] at stands
            split at stands
            · next same =>
                subst same
                rw [List.getElem?_append] at stands
                split at stands
                · exact Or.inl (.reaction (waiting ▸ stands) resumes)
                · next late =>
                    have only := List.mem_singleton.1 (List.mem_of_getElem? stands)
                    have bound := (List.getElem?_eq_some_iff.1 stands).1
                    refine Or.inr ⟨only ▸ resumes, ?_⟩
                    rw [List.length_singleton] at bound
                    congr 1
                    omega
            · exact Or.inl (.reaction stands resumes)
        | job stands resumes =>
            rw [rewrites.microtasks, List.append_nil] at stands
            exact Or.inl (.job stands resumes)
      · obtain ⟨settlement, value, settled⟩ := PromiseState.settled_of_ne pending
        have rewrites :=
          rewrites_registerReaction_of_settled consistent.tidy present settled reaction
        refine ⟨.job machine.jobs.microtasks.jobs.length, fun {coroutine position} waits => ?_⟩
        cases waits with
        | @reaction other index found stands resumes =>
            rw [rewrites.reactions] at stands
            split at stands
            · next same =>
                subst same
                exact Or.inl (.reaction (waiting ▸ stands) resumes)
            · exact Or.inl (.reaction stands resumes)
        | @job index job stands resumes =>
            rw [rewrites.microtasks, List.getElem?_append] at stands
            split at stands
            · exact Or.inl (.job stands resumes)
            · next late =>
                have only := List.mem_singleton.1 (List.mem_of_getElem? stands)
                have bound := (List.getElem?_eq_some_iff.1 stands).1
                obtain ⟨_, _, _, same⟩ := only ▸ resumes
                refine Or.inr ⟨⟨settlement, (Job.reaction.inj same).1⟩, ?_⟩
                rw [List.length_singleton] at bound
                congr 1
                omega

include consistent in
variable (machine) in
/-- The reaction resumes one async function at most. -/
theorem resteers_registerReaction
    (promise : ObjectId)
    (reaction : Reaction)
    {coroutine : ObjectId}
    (only : ∀ other, reaction.Resumes other -> other = coroutine) :
    machine.Resteers (machine.registerReaction promise reaction).2 coroutine where
  waits := by
    obtain ⟨place, added⟩ := machine.exists_place_registerReaction promise reaction
    exact ⟨place, fun waits => (added waits).imp_right (.imp_left (only _))⟩
  states _ present := (asyncState?_registerReaction promise reaction _).trans present

instance (promise : ObjectId) (reaction : Reaction) [plain : reaction.Plain]
    [machine.Vouches reaction] :
    machine.Sustains collects (machine.registerReaction promise reaction).2 := by
  obtain ⟨_, added⟩ := machine.exists_place_registerReaction promise reaction
  have carries : machine.CarriesOver (machine.registerReaction promise reaction).2 := by
    refine ⟨⟨id, fun {coroutine place} waits => ⟨place, ?_, rfl⟩⟩,
      fun present => (asyncState?_registerReaction promise reaction _).trans present⟩
    exact (added waits).resolve_right fun ⟨resumes, _⟩ => plain.plain coroutine resumes
  exact (maintains_registerReaction promise reaction
    (carries.resumesOnce consistent.resumes)).sustains carries.inHand

/-! ## Aggregates -/

instance sustains_reserve (id : AggregateId) :
    machine.Sustains collects
      { machine with cells := (machine.cells.updateAggregate id 0 Aggregate.reserve).2 } := by
  refine sustains_updateAggregate id 0 Aggregate.reserve fun aggregate value member => ?_
  rcases Array.mem_push.1 member with old | new
  · exact Or.inl old
  · cases new

omit consistent in
theorem mem_entries_release
    (member : some value ∈ aggregate.release.2.entries) :
    some value ∈ aggregate.entries := by
  unfold Aggregate.release at member
  split at member
  · exact member
  · cases Array.not_mem_empty _ member
  · exact member

instance sustains_finishIteration (id : AggregateId) :
    machine.Sustains collects
      { machine with
        cells := (machine.cells.updateAggregate id none Aggregate.finishIteration).2 } :=
  sustains_updateAggregate id none _ fun _ _ member => Or.inl (mem_entries_release member)

instance sustains_record
    (id : AggregateId)
    (index : Nat)
    (entry : Value)
    [vouched : machine.Vouches entry] :
    machine.Sustains collects
      { machine with
        cells := (machine.cells.updateAggregate id none fun collected =>
          collected.record index entry).2 } := by
  refine sustains_updateAggregate id none _ fun aggregate value member => ?_
  unfold Aggregate.record at member
  split at member
  · have member := mem_entries_release member
    rcases Array.mem_or_eq_of_mem_setIfInBounds member with old | new
    · exact Or.inl old
    · cases new
      exact Or.inr (vouches_value.1 vouched)
  · exact Or.inl member

omit consistent in
/-- The list that an aggregate hands out consists of its entries. -/
theorem vouches_release
    (entries : ∀ value, some value ∈ aggregate.entries -> machine.Vouches value) :
    machine.Vouches aggregate.release.1 := by
  unfold Aggregate.release
  split
  · exact vouches_none
  · refine vouches_some.2 (vouches_list.2 fun value member => ?_)
    obtain ⟨entry, present, same⟩ := List.mem_filterMap.1 member
    cases same
    exact entries value (Array.mem_toList_iff.1 present)
  · exact vouches_none

omit consistent in
instance vouches_finishIteration
    (id : AggregateId)
    [vouched : machine.Vouches id] :
    machine.Vouches (machine.cells.updateAggregate id none Aggregate.finishIteration).1 := by
  unfold Cells.updateAggregate
  split
  · exact vouches_none
  · next aggregate present =>
      exact vouches_release (vouches_aggregate.1 vouched aggregate present)

omit consistent in
instance vouches_recorded
    (id : AggregateId)
    (index : Nat)
    (entry : Value)
    [vouched : machine.Vouches id]
    [new : machine.Vouches entry] :
    machine.Vouches (machine.cells.updateAggregate id none fun collected =>
      collected.record index entry).1 := by
  unfold Cells.updateAggregate
  split
  · exact vouches_none
  · next aggregate present =>
      have entries := vouches_aggregate.1 vouched aggregate present
      dsimp only
      unfold Aggregate.record
      split
      · refine vouches_release fun value member => ?_
        rcases Array.mem_or_eq_of_mem_setIfInBounds member with old | same
        · exact entries value old
        · cases same
          exact new
      · exact vouches_none

end
end Machine
end ScriptVM

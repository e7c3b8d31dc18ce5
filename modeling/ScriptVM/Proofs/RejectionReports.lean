import Mathlib.Data.List.TakeWhile
import ScriptVM.Proofs.Collection
import ScriptVM.Proofs.Journals

/-!
# Rejections and their reports

Which rejections are to be reported is a matter of the history of promises and checkpoints, and
what a machine reports is what its journal tells.
-/

/-!
## Histories of rejections

A history tells which promises were created, which of them got reactions and how they settled,
and which checkpoints emptied the queue of microtasks. Each event has its moment, with the events
before and after. So the history alone says which rejections are to be reported: those of promises
that had no reaction when the next such checkpoint ended.
-/

namespace ScriptVM

variable {σ : Type}

/-! ## What a history tells -/

namespace PromiseEvent

/-- A promise is created, with a handle that others may have had before. -/
def creates (promise : ObjectId) : PromiseEvent σ -> Bool
  | created other => other == promise
  | _ => false

/-- A promise gets a reaction. -/
def registers (promise : ObjectId) : PromiseEvent σ -> Bool
  | registered other _ => other == promise
  | _ => false

def settles (promise : ObjectId) : PromiseEvent σ -> Bool
  | settled other _ _ => other == promise
  | _ => false

def finishes : PromiseEvent σ -> Bool
  | finished => true
  | _ => false

/-- The promise that is rejected, with the reason. -/
def rejection? : PromiseEvent σ -> Option (ObjectId × Value)
  | settled promise .rejected reason => some (promise, reason)
  | _ => none

/-- The reasons that are handed out. -/
def handed : PromiseEvent σ -> List Value
  | handedOut reasons => reasons
  | _ => []

/-- The events since a promise was created, newest first. -/
def lifetime (promise : ObjectId) (history : List (PromiseEvent σ)) : List (PromiseEvent σ) :=
  history.reverse.takeWhile fun event => !event.creates promise

/-- The reasons that have been handed out. -/
def allHanded (history : List (PromiseEvent σ)) : List Value :=
  history.flatMap handed

/-- An event of a history with the events before and after. -/
structure Moment (σ : Type) where
  before : List (PromiseEvent σ)
  event : PromiseEvent σ
  after : List (PromiseEvent σ)

namespace Moment

/-- A checkpoint emptied the queue later. -/
def concluded (moment : Moment σ) : Bool :=
  moment.after.any finishes

/-- The promise got a reaction before, or later but before such a checkpoint ended. -/
def heeds (moment : Moment σ) (promise : ObjectId) : Bool :=
  (lifetime promise moment.before).any (registers promise) ||
    (moment.after.takeWhile fun event => !event.finishes).any (registers promise)

/-- A rejection that nobody heeds. -/
def unheeded? (moment : Moment σ) : Option (ObjectId × Value) :=
  moment.event.rejection?.filter fun rejection => !moment.heeds rejection.1

/-- The reason that is to be reported. -/
def report? (moment : Moment σ) : Option Value :=
  if moment.concluded then moment.unheeded?.map Prod.snd else none

/-- A rejection that is to be reported after the next checkpoint if nobody heeds it. -/
def waits? (moment : Moment σ) : Option (ObjectId × Value) :=
  if moment.concluded then none else moment.unheeded?

/-- The history goes on. -/
def extend (moment : Moment σ) (event : PromiseEvent σ) : Moment σ :=
  { moment with after := moment.after ++ [event] }

end Moment

/-- The moments of a history after some events. -/
def momentsFrom (before : List (PromiseEvent σ)) : List (PromiseEvent σ) -> List (Moment σ)
  | [] => []
  | event :: after => { before, event, after } :: momentsFrom (before ++ [event]) after

/-- The moments of a history. -/
def moments (history : List (PromiseEvent σ)) : List (Moment σ) :=
  momentsFrom [] history

/-- The reasons of the rejections that are to be reported, in the order of the rejections. -/
def reported (history : List (PromiseEvent σ)) : List Value :=
  (moments history).filterMap Moment.report?

/-- The rejections that are yet to be reported if nobody heeds them. -/
def waiting (history : List (PromiseEvent σ)) : List (ObjectId × Value) :=
  (moments history).filterMap Moment.waits?

/-! ## Histories that go on -/

variable {promise : ObjectId} {event : PromiseEvent σ} {history : List (PromiseEvent σ)}

theorem lifetime_concat
    (promise : ObjectId)
    (history : List (PromiseEvent σ))
    (event : PromiseEvent σ) :
    lifetime promise (history ++ [event]) =
      if event.creates promise then [] else event :: lifetime promise history := by
  unfold lifetime
  rw [List.reverse_concat, List.takeWhile_cons]
  cases event.creates promise <;> rfl

theorem momentsFrom_concat (before history : List (PromiseEvent σ)) (event : PromiseEvent σ) :
    momentsFrom before (history ++ [event]) =
      (momentsFrom before history).map (·.extend event) ++
        [{ before := before ++ history, event, after := [] }] := by
  induction history generalizing before with
  | nil => simp [momentsFrom]
  | cons first rest step =>
      simp [momentsFrom, step, Moment.extend]

theorem moments_concat (history : List (PromiseEvent σ)) (event : PromiseEvent σ) :
    moments (history ++ [event]) =
      (moments history).map (·.extend event) ++
        [{ before := history, event, after := [] }] :=
  momentsFrom_concat [] history event

namespace Moment

variable {moment : Moment σ}

theorem concluded_extend (moment : Moment σ) (event : PromiseEvent σ) :
    (moment.extend event).concluded = (moment.concluded || event.finishes) := by
  simp [concluded, extend]

/-- After the checkpoint nothing changes. -/
theorem unheeded?_extend_of_concluded
    (event : PromiseEvent σ)
    (concluded : moment.concluded = true) :
    (moment.extend event).unheeded? = moment.unheeded? := by
  obtain ⟨finish, member, finishes⟩ := List.any_eq_true.1 concluded
  have same : (moment.after ++ [event]).takeWhile (fun event => !event.finishes) =
      moment.after.takeWhile fun event => !event.finishes := by
    rw [List.takeWhile_append, if_neg]
    intro whole
    have all := List.takeWhile_eq_self_iff.1 (List.takeWhile_prefix _ |>.eq_of_length whole)
    simpa [finishes] using all finish member
  unfold unheeded? heeds extend
  rw [same]

/-- Until the checkpoint every event counts. -/
theorem heeds_extend_of_waiting
    (event : PromiseEvent σ)
    (waits : moment.concluded = false)
    (promise : ObjectId) :
    (moment.extend event).heeds promise =
      (moment.heeds promise || (!event.finishes && event.registers promise)) := by
  have whole : ∀ event ∈ moment.after, (!event.finishes) = true := by
    simpa [concluded] using waits
  unfold heeds extend
  rw [List.takeWhile_append_of_pos whole, List.takeWhile_eq_self_iff.2 whole, List.any_append,
    <- Bool.or_assoc]
  cases finishes : event.finishes <;> simp [finishes]

/-- The end of the checkpoint does not heed a rejection. -/
theorem unheeded?_extend_of_finishes (moment : Moment σ) (finishes : event.finishes = true) :
    (moment.extend event).unheeded? = moment.unheeded? := by
  cases concluded : moment.concluded with
  | true => exact unheeded?_extend_of_concluded event concluded
  | false =>
      unfold unheeded?
      refine congrArg (Option.filter · moment.event.rejection?) (funext fun rejection => ?_)
      rw [heeds_extend_of_waiting event concluded, finishes]
      simp

theorem report?_extend (moment : Moment σ) (goesOn : event.finishes = false) :
    (moment.extend event).report? = moment.report? := by
  unfold report?
  rw [concluded_extend, goesOn, Bool.or_false]
  cases concluded : moment.concluded with
  | true => rw [unheeded?_extend_of_concluded event concluded]
  | false => rfl

theorem waits?_extend (moment : Moment σ) (goesOn : event.finishes = false) :
    (moment.extend event).waits? = moment.waits?.filter fun entry => !event.registers entry.1 := by
  unfold waits?
  rw [concluded_extend, goesOn, Bool.or_false]
  cases concluded : moment.concluded with
  | true => rfl
  | false =>
      unfold unheeded?
      rw [if_neg Bool.false_ne_true, if_neg Bool.false_ne_true, Option.filter_filter]
      refine congrArg (Option.filter · moment.event.rejection?) (funext fun rejection => ?_)
      rw [heeds_extend_of_waiting event concluded, goesOn]
      simp [Bool.and_comm]

end Moment

/-- While no checkpoint empties the queue nothing is to be reported. -/
theorem report?_momentsFrom
    (before : List (PromiseEvent σ))
    (unfinished : history.any finishes = false) :
    (momentsFrom before history).filterMap Moment.report? = [] := by
  induction history generalizing before with
  | nil => rfl
  | cons event rest step =>
      have later : rest.any finishes = false := (Bool.or_eq_false_iff.1 unfinished).2
      have none : Moment.report? { before, event, after := rest } = none :=
        if_neg (Bool.eq_false_iff.1 later)
      rw [momentsFrom, List.filterMap_cons_none none]
      exact step _ later

/-- The rejections that nobody heeds are the ones to be reported, followed by the ones that
wait. -/
theorem unheeded?_momentsFrom (before history : List (PromiseEvent σ)) :
    (momentsFrom before history).filterMap (fun moment => moment.unheeded?.map Prod.snd) =
      (momentsFrom before history).filterMap Moment.report? ++
        ((momentsFrom before history).filterMap Moment.waits?).map Prod.snd := by
  induction history generalizing before with
  | nil => rfl
  | cons event rest step =>
      rw [momentsFrom, List.filterMap_cons, List.filterMap_cons, List.filterMap_cons, step]
      cases concluded : rest.any finishes with
      | true =>
          have report : Moment.report? { before, event, after := rest } =
              (Moment.unheeded? { before, event, after := rest }).map Prod.snd :=
            if_pos concluded
          have waits : Moment.waits? { before, event, after := rest } = none := if_pos concluded
          rw [report, waits]
          cases (Moment.unheeded? { before, event, after := rest }).map Prod.snd <;> rfl
      | false =>
          have report : Moment.report? { before, event, after := rest } = none :=
            if_neg (Bool.eq_false_iff.1 concluded)
          have waits : Moment.waits? { before, event, after := rest } =
              Moment.unheeded? { before, event, after := rest } :=
            if_neg (Bool.eq_false_iff.1 concluded)
          rw [report, waits, report?_momentsFrom _ concluded]
          cases Moment.unheeded? { before, event, after := rest } <;> rfl

/-- A checkpoint that empties the queue makes the rejections that wait be reported. -/
theorem reported_concat (history : List (PromiseEvent σ)) (event : PromiseEvent σ) :
    reported (history ++ [event]) =
      if event.finishes then reported history ++ (waiting history).map Prod.snd
      else reported history := by
  have last : Moment.report? { before := history, event, after := [] } = none := rfl
  unfold reported
  rw [moments_concat, List.filterMap_append, List.filterMap_cons_none last, List.filterMap_nil,
    List.append_nil, List.filterMap_map]
  cases finishes : event.finishes with
  | true =>
      rw [if_pos rfl, waiting, moments, <- unheeded?_momentsFrom]
      refine List.filterMap_congr fun moment _ => ?_
      show Moment.report? _ = _
      unfold Moment.report?
      rw [Moment.concluded_extend, finishes, Bool.or_true, if_pos rfl,
        Moment.unheeded?_extend_of_finishes moment finishes]
  | false => exact List.filterMap_congr fun moment _ => moment.report?_extend finishes

/-- Of the rejections that wait, those that are heeded are dropped, and a new rejection waits if
its promise had no reaction before. -/
theorem waiting_concat (history : List (PromiseEvent σ)) (event : PromiseEvent σ) :
    waiting (history ++ [event]) =
      if event.finishes then []
      else (waiting history).filter (fun entry => !event.registers entry.1) ++
        (event.rejection?.filter fun rejection =>
          !(lifetime rejection.1 history).any (registers rejection.1)).toList := by
  unfold waiting
  rw [moments_concat, List.filterMap_append, List.filterMap_map]
  cases finishes : event.finishes with
  | true =>
      rw [if_pos rfl, List.append_eq_nil_iff, List.filterMap_eq_nil_iff]
      refine ⟨fun moment _ => ?_, ?_⟩
      · exact if_pos (by rw [Moment.concluded_extend, finishes, Bool.or_true])
      · cases event with
        | finished => rfl
        | _ => cases finishes
  | false =>
      rw [if_neg Bool.false_ne_true, List.filter_filterMap]
      refine congrArg₂ _ (List.filterMap_congr fun moment _ => moment.waits?_extend finishes) ?_
      have fresh : Moment.waits? { before := history, event, after := [] } =
          event.rejection?.filter fun rejection =>
            !(lifetime rejection.1 history).any (registers rejection.1) := by
        unfold Moment.waits? Moment.unheeded? Moment.heeds
        simp [Moment.concluded]
      rw [List.filterMap_cons, fresh, List.filterMap_nil]
      cases event.rejection?.filter _ <;> rfl

end PromiseEvent
/-!
## Reports of rejections

A machine that is seen is at every moment what its journal tells. The rejections that wait for
their report are those of live promises that nobody heeded, and what was reported are the reasons
of the rejections that nobody heeded in time.
-/

namespace Machine

variable {machine : Machine σ} {promise : ObjectId} {record : PromiseRecord Value Reaction}

/-- A collection leaves the objects that the machine keeps alive as they are. -/
theorem promise?_collectGarbage_of_root
    {id : ObjectId}
    (root : id ∈ machine.roots)
    (kept : List Value) :
    (machine.collectGarbage kept).2.promise? id = machine.promise? id := by
  unfold collectGarbage
  split
  · rfl
  · have spared := machine.heap.root_survives (ObjectKind.references machine.cells)
      (machine.roots ++ valueReferences kept) (List.mem_append_left _ root)
    have alive := machine.heap.get?_collect_eq (ObjectKind.references machine.cells)
      (machine.roots ++ valueReferences kept) id
    rw [if_neg spared] at alive
    unfold promise? kind? Heap.payload?
    rw [alive]

theorem promise?_registerReaction
    (tidy : machine.heap.Tidy)
    (present : machine.promise? promise = some record)
    (reaction : Reaction) :
    ∃ later : PromiseRecord Value Reaction, later.handled = true ∧ later.state = record.state ∧
      ∀ id, (machine.registerReaction promise reaction).2.promise? id =
        if promise = id then some later else machine.promise? id := by
  by_cases pending : record.state = .pending
  · have rewrites := rewrites_registerReaction_of_pending tidy present pending reaction
    refine ⟨_, ?_, ?_, rewrites.promise?⟩ <;> rfl
  · obtain ⟨settlement, value, settled⟩ := PromiseState.settled_of_ne pending
    have rewrites := rewrites_registerReaction_of_settled tidy present settled reaction
    refine ⟨_, ?_, ?_, rewrites.promise?⟩ <;> rfl

end Machine

/-! ## Histories that are told -/

namespace PromiseEvent

variable {machine before after : Machine σ} {history : List (PromiseEvent σ)}
  {event : PromiseEvent σ} {promise : ObjectId}

/-- Each promise settles at most once after its creation. -/
def SettlesOnce (history : List (PromiseEvent σ)) : Prop :=
  ∀ moment ∈ moments history, ∀ promise settlement value,
    moment.event = .settled promise settlement value ->
    moment.before.any (creates promise) = true ∧
      (lifetime promise moment.before).any (settles promise) = false

/-- What a history tells of a promise: it was created, it counts as handled once it got a
reaction, and if it is pending it has not settled. -/
structure TellsOf (history : List (PromiseEvent σ)) (promise : ObjectId)
    (record : PromiseRecord Value Reaction) : Prop where
  born : history.any (creates promise) = true
  handled : record.handled = (lifetime promise history).any (registers promise)
  unsettled : record.state = .pending -> (lifetime promise history).any (settles promise) = false

/-- What a history tells of a machine. -/
structure Tells (history : List (PromiseEvent σ)) (machine : Machine σ) : Prop where
  tracking : machine.config.trackUnhandledRejections = true
  pending : machine.rejections.pending = (waiting history).map Prod.fst
  rejected : ∀ entry ∈ waiting history, ∃ record, machine.promise? entry.1 = some record ∧
    record.state = .rejected entry.2 ∧ record.handled = false
  records : ∀ promise record, machine.promise? promise = some record ->
    TellsOf history promise record
  unhandled : allHanded history ++ machine.unhandled = reported history
  once : SettlesOnce history

theorem any_lifetime_concat
    (test : PromiseEvent σ -> Bool)
    (promise : ObjectId)
    (history : List (PromiseEvent σ))
    (event : PromiseEvent σ) :
    (lifetime promise (history ++ [event])).any test =
      if event.creates promise then false else test event || (lifetime promise history).any test := by
  rw [lifetime_concat]
  split <;> simp

/-- What is told of a promise does not change with events that are about others. -/
theorem TellsOf.concat
    {record : PromiseRecord Value Reaction}
    (tells : TellsOf history promise record)
    (other : event.creates promise = false ∧ event.registers promise = false ∧
      event.settles promise = false) :
    TellsOf (history ++ [event]) promise record := by
  obtain ⟨uncreated, unregistered, unsettled⟩ := other
  refine ⟨?_, ?_, fun pending => ?_⟩
  · rw [List.any_append, tells.born]
    rfl
  · rw [any_lifetime_concat, uncreated, unregistered]
    exact tells.handled
  · rw [any_lifetime_concat, uncreated, unsettled]
    exact tells.unsettled pending

/-- An event that is no settlement leaves that every promise settles once. -/
theorem SettlesOnce.concat
    (once : SettlesOnce history)
    (settled : ∀ promise settlement value, event = .settled promise settlement value ->
      history.any (creates promise) = true ∧
        (lifetime promise history).any (settles promise) = false) :
    SettlesOnce (history ++ [event]) := by
  intro moment member promise settlement value same
  rw [moments_concat] at member
  rcases List.mem_append.1 member with old | new
  · obtain ⟨earlier, stood, rfl⟩ := List.mem_map.1 old
    exact once earlier stood promise settlement value same
  · cases List.mem_singleton.1 new
    exact settled promise settlement value same

/-- An event that neither rejects a promise nor registers a reaction nor ends a checkpoint leaves
alone what waits. -/
theorem waiting_concat_of_still
    (history : List (PromiseEvent σ))
    (goesOn : event.finishes = false)
    (unheeding : ∀ promise, event.registers promise = false)
    (still : event.rejection? = none) :
    waiting (history ++ [event]) = waiting history := by
  rw [waiting_concat, goesOn, still]
  simp [unheeding]

theorem reported_concat_of_not
    (history : List (PromiseEvent σ))
    (goesOn : event.finishes = false) :
    reported (history ++ [event]) = reported history := by
  rw [reported_concat, goesOn]
  rfl

@[simp] theorem allHanded_concat (history : List (PromiseEvent σ)) (event : PromiseEvent σ) :
    allHanded (history ++ [event]) = allHanded history ++ event.handed := by
  simp [allHanded]

namespace Tells

variable {record : PromiseRecord Value Reaction}

/-- A promise is created. -/
theorem created
    (tells : Tells history before)
    (tidy : before.heap.Tidy)
    (prototype : ObjectId) :
    Tells (history ++ [.created before.heap.nextId]) (before.allocatePromise prototype).2 := by
  have adds := Machine.Adds.allocate tidy (some prototype) (.promise {})
  have promises : ∀ id, (before.allocatePromise prototype).2.promise? id =
      if before.heap.nextId = id then some {} else before.promise? id := adds.promise?
  have waits : waiting (history ++ [.created before.heap.nextId]) = waiting history :=
    waiting_concat_of_still history rfl (fun _ => rfl) rfl
  refine ⟨tells.tracking, ?_, fun entry member => ?_, fun promise record present => ?_, ?_,
    tells.once.concat nofun⟩
  · rw [waits]
    exact tells.pending
  · rw [waits] at member
    obtain ⟨record, present, rest⟩ := tells.rejected entry member
    refine ⟨record, ?_, rest⟩
    rw [promises, if_neg]
    · exact present
    · intro same
      have live := Machine.kind?_of_promise? (same ▸ present)
      rw [adds.dead] at live
      cases live
  · rw [promises] at present
    by_cases same : before.heap.nextId = promise
    · rw [if_pos same] at present
      cases present
      subst same
      refine ⟨by simp [creates], ?_, fun _ => ?_⟩ <;> simp [any_lifetime_concat, creates]
    · rw [if_neg same] at present
      exact (tells.records promise record present).concat ⟨beq_false_of_ne same, rfl, rfl⟩
  · rw [allHanded_concat, reported_concat_of_not history rfl]
    exact (List.append_nil _).symm ▸ tells.unhandled

/-- A promise gets a reaction. -/
theorem registered
    (tells : Tells history before)
    (tidy : before.heap.Tidy)
    (present : before.promise? promise = some record)
    (reaction : Reaction) :
    Tells (history ++ [.registered promise reaction])
      (before.registerReaction promise reaction).2 := by
  obtain ⟨rejections, unhandled, config, _⟩ := Machine.registerReaction_tracked present reaction
  obtain ⟨later, heeded, state, promises⟩ :=
    Machine.promise?_registerReaction tidy present reaction
  have waits : waiting (history ++ [.registered promise reaction]) =
      (waiting history).filter fun entry => !(promise == entry.1) := by
    rw [waiting_concat]
    exact List.append_nil _
  refine ⟨by rw [config]; exact tells.tracking, ?_, fun entry member => ?_,
    fun other kept stands => ?_, ?_, tells.once.concat nofun⟩
  · rw [rejections, waits]
    show before.rejections.pending.filter (· != promise) = _
    rw [tells.pending, List.filter_map]
    exact congrArg (List.map Prod.fst) (List.filter_congr fun entry _ =>
      congrArg not Bool.beq_comm)
  · rw [waits] at member
    obtain ⟨old, other⟩ := List.mem_filter.1 member
    obtain ⟨found, live, rest⟩ := tells.rejected entry old
    refine ⟨found, ?_, rest⟩
    rw [promises, if_neg (by simpa using other)]
    exact live
  · rw [promises] at stands
    by_cases same : promise = other
    · rw [if_pos same] at stands
      cases stands
      subst same
      have told := tells.records promise record present
      refine ⟨by rw [List.any_append, told.born]; rfl, ?_, fun pending => ?_⟩
      · rw [any_lifetime_concat, heeded]
        simp [creates, registers]
      · rw [any_lifetime_concat, told.unsettled (state.symm.trans pending)]
        rfl
    · rw [if_neg same] at stands
      exact (tells.records other kept stands).concat ⟨rfl, beq_false_of_ne same, rfl⟩
  · rw [allHanded_concat, reported_concat_of_not history rfl, unhandled]
    exact (List.append_nil _).symm ▸ tells.unhandled

/-- A pending promise settles. -/
theorem settled
    (tells : Tells history before)
    (tidy : before.heap.Tidy)
    (present : before.promise? promise = some record)
    (pending : record.state = .pending)
    (settlement : Settlement)
    (value : Value) :
    Tells (history ++ [.settled promise settlement value])
      (before.settlePromise promise settlement value).2 := by
  obtain ⟨rejections, unhandled, config, _⟩ :=
    Machine.settlePromise_tracked present pending settlement value
  have promises := (Machine.rewrites_settlePromise tidy present pending settlement value).promise?
  have told := tells.records promise record present
  -- A pending promise is none of those that wait for their report.
  have apart : ∀ entry ∈ waiting history, promise ≠ entry.1 := by
    rintro entry member rfl
    obtain ⟨found, live, rejected, _⟩ := tells.rejected entry member
    cases present.symm.trans live
    cases pending.symm.trans rejected
  have waits : waiting (history ++ [.settled promise settlement value]) =
      waiting history ++
        if settlement = .rejected ∧ record.handled = false then [(promise, value)] else [] := by
    rw [waiting_concat, told.handled]
    cases settlement with
    | fulfilled => simp [finishes, rejection?, registers]
    | rejected =>
        cases heeded : (lifetime promise history).any (registers promise) <;>
          simp [finishes, rejection?, registers, heeded, Option.filter]
  refine ⟨by rw [config]; exact tells.tracking, ?_, fun entry member => ?_,
    fun other kept stands => ?_, ?_, tells.once.concat ?_⟩
  · rw [rejections, waits, List.map_append, <- tells.pending, tells.tracking, Bool.and_true]
    have fresh : promise ∉ before.rejections.pending := by
      rw [tells.pending]
      intro member
      obtain ⟨entry, waits, same⟩ := List.mem_map.1 member
      exact apart entry waits same.symm
    cases settlement with
    | fulfilled => simp
    | rejected => cases handled : record.handled <;> simp [Rejections.rejected, fresh]
  · rw [waits] at member
    rcases List.mem_append.1 member with old | new
    · obtain ⟨found, live, rest⟩ := tells.rejected entry old
      refine ⟨found, ?_, rest⟩
      rw [promises, if_neg (apart entry old)]
      exact live
    · split at new
      · next unheeded =>
          obtain ⟨rfl, alone⟩ := unheeded
          cases List.mem_singleton.1 new
          exact ⟨_, (promises promise).trans (if_pos rfl), rfl, alone⟩
      · cases new
  · rw [promises] at stands
    by_cases same : promise = other
    · rw [if_pos same] at stands
      cases stands
      subst same
      refine ⟨by rw [List.any_append, told.born]; rfl, ?_, fun pending => ?_⟩
      · rw [any_lifetime_concat]
        exact told.handled
      · exact absurd pending (settlement.state_ne value)
    · rw [if_neg same] at stands
      exact (tells.records other kept stands).concat ⟨rfl, rfl, beq_false_of_ne same⟩
  · rw [allHanded_concat, reported_concat_of_not history rfl, unhandled]
    exact (List.append_nil _).symm ▸ tells.unhandled
  · rintro _ _ _ ⟨⟩
    exact ⟨told.born, told.unsettled pending⟩

/-- A checkpoint that emptied the queue reports the rejections that waited. -/
theorem finished (tells : Tells history before) (env : Env σ) :
    Tells (history ++ [.finished]) ((Machine.scheduler env).checkpointFinished before) := by
  have reports : (Machine.scheduler env).checkpointFinished before =
      before.reportRejections.note .finished :=
    congrArg (Machine.note · .finished) (if_pos tells.tracking)
  have waits : waiting (history ++ [.finished]) = [] := waiting_concat history .finished
  have reasons : before.rejections.pending.filterMap before.unhandledReason? =
      (waiting history).map Prod.snd := by
    rw [tells.pending, List.filterMap_map, <- List.filterMap_eq_map]
    refine List.filterMap_congr fun entry member => ?_
    obtain ⟨record, present, rejected, unhandled⟩ := tells.rejected entry member
    cases record
    cases rejected
    cases unhandled
    simp [Machine.unhandledReason?, present]
  rw [reports]
  refine ⟨tells.tracking, ?_, fun entry member => ?_, fun promise record present => ?_, ?_,
    tells.once.concat nofun⟩
  · rw [waits]
    rfl
  · rw [waits] at member
    cases member
  · exact (tells.records promise record present).concat ⟨rfl, rfl, rfl⟩
  · rw [allHanded_concat, reported_concat, <- tells.unhandled]
    show (_ ++ []) ++ (before.unhandled ++ before.rejections.pending.filterMap _) = _
    rw [reasons, List.append_nil, List.append_assoc]
    rfl

/-- An event that is about no promise in particular, and ends no checkpoint. -/
theorem beside
    (tells : Tells history before)
    (others : ∀ promise, event.creates promise = false ∧ event.registers promise = false ∧
      event.settles promise = false)
    (goesOn : event.finishes = false)
    (still : event.rejection? = none)
    (unhandled : event.handed ++ after.unhandled = before.unhandled)
    (heap : after.heap = before.heap)
    (rejections : after.rejections = before.rejections)
    (config : after.config = before.config) :
    Tells (history ++ [event]) after := by
  have waits : waiting (history ++ [event]) = waiting history :=
    waiting_concat_of_still history goesOn (fun promise => (others promise).2.1) still
  have promises : ∀ id, after.promise? id = before.promise? id := fun id => by
    unfold Machine.promise? Machine.kind?
    rw [heap]
  refine ⟨config ▸ tells.tracking, ?_, fun entry member => ?_, fun promise record present => ?_,
    ?_, tells.once.concat ?_⟩
  · rw [waits, rejections]
    exact tells.pending
  · rw [promises]
    exact tells.rejected entry (waits ▸ member)
  · exact (tells.records promise record ((promises promise).symm.trans present)).concat
      (others promise)
  · rw [allHanded_concat, reported_concat_of_not history goesOn, <- tells.unhandled, <- unhandled]
    exact List.append_assoc ..
  · rintro promise _ _ rfl
    exact absurd (others promise).2.2 (by simp [settles])

/-- What an event makes of a machine is told by the history with that event. -/
theorem add
    (tells : Tells history before)
    (tidy : before.heap.Tidy)
    (occurs : event.Occurs before after) :
    Tells (history ++ [event]) after := by
  cases occurs with
  | @created _ prototype => exact tells.created tidy prototype
  | @registered _ _ _ reaction present => exact tells.registered tidy present reaction
  | @settled _ _ _ settlement value present pending =>
      exact tells.settled tidy present pending settlement value
  | @finished _ env _ => exact tells.finished env
  | queued | started =>
      exact tells.beside (fun _ => ⟨rfl, rfl, rfl⟩) rfl rfl rfl rfl rfl rfl
  | handedOut =>
      exact tells.beside (fun _ => ⟨rfl, rfl, rfl⟩) rfl rfl (List.append_nil _) rfl rfl rfl

/-- A collection spares the promises whose rejections wait for their report. -/
theorem collected (tells : Tells history before) (tidy : before.heap.Tidy) (kept : List Value) :
    Tells history (before.collectGarbage kept).2 := by
  obtain ⟨_, kinds, _, _, _⟩ := Machine.collectGarbage_keeps tidy kept
  have promises : ∀ id record, (before.collectGarbage kept).2.promise? id = some record ->
      before.promise? id = some record := fun id record present =>
    Machine.promise?_eq_some.2 (kinds _ _ (Machine.promise?_eq_some.1 present))
  have spared : ∀ id ∈ before.rejections.pending,
      (before.collectGarbage kept).2.promise? id = before.promise? id := fun id member =>
    Machine.promise?_collectGarbage_of_root
      (List.mem_append_left _ (List.mem_append_right _ member)) kept
  have beside : (before.collectGarbage kept).2.rejections = before.rejections ∧
      (before.collectGarbage kept).2.unhandled = before.unhandled ∧
      (before.collectGarbage kept).2.config = before.config := by
    unfold Machine.collectGarbage
    split <;> exact ⟨rfl, rfl, rfl⟩
  obtain ⟨rejections, unhandled, config⟩ := beside
  refine ⟨by rw [config]; exact tells.tracking, by rw [rejections]; exact tells.pending,
    fun entry member => ?_, fun promise record present => ?_,
    by rw [unhandled]; exact tells.unhandled, tells.once⟩
  · obtain ⟨record, present, rest⟩ := tells.rejected entry member
    refine ⟨record, (spared entry.1 ?_).trans present, rest⟩
    rw [tells.pending]
    exact List.mem_map_of_mem member
  · exact tells.records promise record (promises promise record present)

/-- A journal that began without promises tells what became of the machine. -/
theorem of_unfolds
    {start : Machine σ}
    (unfolds : start.Unfolds (fun _ => False) machine)
    (tracking : start.config.trackUnhandledRejections = true)
    (promises : ∀ id, start.promise? id = none)
    (quiet : start.rejections.pending = [] ∧ start.unhandled = [])
    (fresh : start.journal = #[]) :
    Tells machine.journal.toList machine := by
  induction unfolds with
  | start =>
      rw [fresh]
      refine ⟨tracking, quiet.1, nofun, fun promise record present => ?_, quiet.2, nofun⟩
      cases (promises promise).symm.trans present
  | event _ tidy occurs step =>
      rw [occurs.journal, Array.toList_push]
      exact step.add tidy occurs
  | aside _ idles step =>
      rw [idles.journal]
      exact ⟨by rw [idles.config]; exact step.tracking, by rw [idles.rejections]; exact step.pending,
        fun entry member => by rw [idles.promises]; exact step.rejected entry member,
        fun promise record present =>
          step.records promise record ((idles.promises promise).symm.trans present),
        by rw [idles.unhandled]; exact step.unhandled, step.once⟩
  | collected kept _ tidy step =>
      rw [Machine.journal_collectGarbage]
      exact step.collected tidy kept
  | discarded _ _ step => exact ⟨step.1, step.2, step.3, step.4, step.5, step.6⟩

end Tells

end PromiseEvent

/-! ## Checkpoints -/

/-- What a checkpoint comes to. A nested one changes nothing. Others drain the queue. If the drain
fails, the checkpoint ends with it, and nothing is reported or written down; if it succeeds, a
checkpoint that emptied the queue ends. -/
def Machine.CheckpointEnds (env : Env σ) (fuel : Nat) (before : Machine σ) :
    EStateM.Result (Stop σ) (Machine σ) Nat -> Prop
  | .ok ran after => (before.jobs.inCheckpoint = true ∧ ran = 0 ∧ after = before) ∨
      before.jobs.inCheckpoint = false ∧ ∃ (drained : Machine σ) (counted : Bool),
        (scheduler env).drain fuel 0 { before with jobs := before.jobs.openCheckpoint } =
          .ok ran drained ∧
        PromiseEvent.Occurs .finished
          { drained with jobs := drained.jobs.closeCheckpoint counted } after ∧
        after.journal = drained.journal.push .finished
  | .error stop after => before.jobs.inCheckpoint = false ∧
      ∃ (stopped : Machine σ) (counted : Bool),
        (scheduler env).drain fuel 0 { before with jobs := before.jobs.openCheckpoint } =
          .error stop stopped ∧
        after = { stopped with jobs := stopped.jobs.closeCheckpoint counted }

theorem Machine.checkpointEnds (env : Env σ) (fuel : Nat) (before : Machine σ) :
    before.CheckpointEnds env fuel ((scheduler env).checkpoint fuel before) := by
  cases nested : before.jobs.inCheckpoint with
  | true =>
      rw [show (scheduler env).checkpoint fuel before = .ok 0 before from if_pos nested]
      exact .inl ⟨nested, rfl, rfl⟩
  | false =>
      cases ran : (scheduler env).drain fuel 0
          { before with jobs := before.jobs.openCheckpoint } with
      | ok count drained =>
          rw [Scheduler.checkpoint_of_drained nested ran]
          have finishes := fun counted => PromiseEvent.Occurs.finished
            { drained with jobs := drained.jobs.closeCheckpoint counted } env
            (Scheduler.empty_of_drained ran)
          exact .inr ⟨nested, drained, _, ran, finishes _, (finishes _).journal⟩
      | error stop stopped =>
          rw [Scheduler.checkpoint_of_stopped nested ran]
          exact ⟨nested, stopped, _, ran, rfl⟩

/-- Unhandled rejections are reported exactly. In the journal of whatever is seen of a machine that
tracks them each promise settles at most once. The reasons that were ever reported are those of
the rejections for whose promise no reaction was registered by the end of the next checkpoint that
emptied the queue, in the order of the rejections. A nested or a failed checkpoint is no such
checkpoint. The journal leaves nothing out and adds nothing. -/
theorem rejections_reported_exactly
    {config : Config}
    {world : σ}
    {sight : Sight σ}
    (tracking : config.trackUnhandledRejections = true)
    (seen : sight.SeenWithout (fun _ => False) (Builtins.newMachine config world)) :
    (Builtins.newMachine config world).KeepsJournal (fun _ => False) sight.machine ∧
      PromiseEvent.SettlesOnce sight.machine.journal.toList ∧
      PromiseEvent.allHanded sight.machine.journal.toList ++ sight.machine.unhandled =
        PromiseEvent.reported sight.machine.journal.toList ∧
      ∀ (env : Env σ) (fuel : Nat) (machine : Machine σ),
        machine.CheckpointEnds env fuel ((Machine.scheduler env).checkpoint fuel machine) := by
  have plain := Builtins.newMachine_plain config world
  have promises : ∀ id, (Builtins.newMachine config world).promise? id = none :=
    fun id => Machine.promise?_eq_none.2 fun record present => plain id _ present trivial
  have fresh : (Builtins.newMachine config world).journal = #[] := rfl
  have holds : (journals σ fun _ => False).holds (Builtins.newMachine config world) :=
    ⟨Builtins.newMachine_tidy config world, Builtins.newMachine_avoids _ config world⟩
  have tells := PromiseEvent.Tells.of_unfolds (seen.unfolds holds).2 tracking promises ⟨rfl, rfl⟩
    fresh
  exact ⟨seen.keepsJournal holds fresh, tells.once, tells.unhandled,
    fun env fuel machine => machine.checkpointEnds env fuel⟩

/-- An embedder rejects a promise and runs the microtasks. -/
def rejectingProgram : HostProgram Unit :=
  .request .newPromise fun promise =>
    .request (.rejectPromise promise .null) fun _ =>
      .request .runMicrotasks fun _ => .finish (.ok promise)

/-- The whole run of the program. -/
def rejectingRun : EStateM.Result (Stop Unit) (Machine Unit) Value :=
  (Builtins.newMachine {} ()).runWithin 30 rejectingProgram

/-- In the end the reason has been reported, as the journal tells. -/
theorem rejections_reported_exactly_rejectingProgram :
    ∃ machine ∈ Machine.ofRun? rejectingRun,
      (Builtins.newMachine {} ()).KeepsJournal (fun _ => False) machine ∧
      machine.journal.size = 3 ∧ PromiseEvent.SettlesOnce machine.journal.toList ∧
      PromiseEvent.allHanded machine.journal.toList ++ [.null] =
        PromiseEvent.reported machine.journal.toList := by
  have seen : ∃ machine ∈ Machine.ofRun? rejectingRun,
      machine.journal.size = 3 ∧ machine.unhandled = [.null] := by
    decide +kernel
  obtain ⟨machine, ended, written, reasons⟩ := seen
  have avoids : rejectingProgram.Avoids fun _ => False :=
    HostProgram.avoids_of_forall (fun _ => id) _
  obtain ⟨keeps, once, told, _⟩ := rejections_reported_exactly rfl
    (.between (Machine.leadsWithout_of_ofRun? avoids ended))
  exact ⟨machine, ended, keeps, written, once, reasons ▸ told⟩

end ScriptVM

import Mathlib.Data.List.Induction
import ScriptVM.Promise.Aggregate

/-!
# Calls of an aggregate

An aggregate is reserved an index for each input, takes the reports of the inputs in any order, and
is told when there are no more inputs. If that comes after all reservations, then the list of the
first reports is handed out by the call after which nothing is outstanding any more, and by no
other.
-/

namespace ScriptVM
namespace Aggregate

variable {V : Type} {place : Nat} {aggregate : Aggregate V} (kind : CombinatorKind)

/-! ## Calls -/

/-- A call of an aggregate. -/
inductive Call (V : Type)
  | reserve
  | record (index : Nat) (value : V)
  | finish

/-- What a call hands out, and the aggregate after it. -/
def perform (aggregate : Aggregate V) : Call V -> Option (List V) × Aggregate V
  | .reserve => (none, aggregate.reserve.2)
  | .record index value => aggregate.record index value
  | .finish => aggregate.finishIteration

/-- A new aggregate after some calls. -/
def afterCalls (kind : CombinatorKind) (calls : List (Call V)) : Aggregate V :=
  calls.foldl (fun aggregate call => (aggregate.perform call).2) { kind }

theorem afterCalls_append_singleton
    (calls : List (Call V))
    (call : Call V) :
    afterCalls kind (calls ++ [call]) = ((afterCalls kind calls).perform call).2 := by
  simp [afterCalls]

/-- The end of the iteration over the inputs comes once, and no input is reserved after it. -/
def Disciplined (calls : List (Call V)) : Prop :=
  ∀ before later, calls = before ++ .finish :: later -> .reserve ∉ later ∧ .finish ∉ later

/-! ## What was reported -/

/-- How many inputs some calls reserve. -/
def reserved : List (Call V) -> Nat
  | [] => 0
  | .reserve :: later => reserved later + 1
  | _ :: later => reserved later

/-- The iteration over the inputs is closed. -/
def closed : List (Call V) -> Bool
  | [] => false
  | .finish :: _ => true
  | _ :: later => closed later

/-- The first report of an input among some calls that find a number of inputs reserved. What is
reported of an index before it is reserved is no report of an input. -/
def firstReport? (index : Nat) : (inputs : Nat) -> List (Call V) -> Option V
  | _, [] => none
  | inputs, .reserve :: later => firstReport? index (inputs + 1) later
  | inputs, .record place value :: later =>
      if place = index ∧ index < inputs then some value else firstReport? index inputs later
  | inputs, .finish :: later => firstReport? index inputs later

/-- The first reports of all inputs, in order. -/
def reports (calls : List (Call V)) : List (Option V) :=
  (List.range (reserved calls)).map fun index => firstReport? index 0 calls

/-- The iteration is closed and every input has reported. -/
def Complete (calls : List (Call V)) : Prop :=
  closed calls = true ∧ ∀ index < reserved calls, (firstReport? index 0 calls).isSome = true

/-- How much is outstanding: the inputs that did not report, and the end of the iteration. -/
def outstanding (calls : List (Call V)) : Nat :=
  (reports calls).countP Option.isNone + if closed calls then 0 else 1

variable {calls : List (Call V)} {call : Call V} {index : Nat}

theorem reserved_append (calls later : List (Call V)) :
    reserved (calls ++ later) = reserved calls + reserved later := by
  induction calls with
  | nil => simp [reserved]
  | cons call rest step =>
      cases call <;>
      · simp [reserved, step]
        try omega

theorem reserved_eq_zero (none : .reserve ∉ calls) : reserved calls = 0 := by
  induction calls with
  | nil => rfl
  | cons call rest step =>
      rw [List.mem_cons, not_or] at none
      cases call with
      | reserve => exact absurd rfl none.1
      | _ => exact step none.2

theorem closed_eq_true_iff : closed calls = true ↔ .finish ∈ calls := by
  induction calls with
  | nil => simp [closed]
  | cons call rest step => cases call <;> simp [closed, step]

/-- Only the end of the iteration closes it. -/
theorem closed_append_singleton (other : call ≠ .finish) :
    closed (calls ++ [call]) = closed calls := by
  rw [Bool.eq_iff_iff, closed_eq_true_iff, closed_eq_true_iff]
  simp [other.symm]

theorem firstReport?_append (index inputs : Nat) (calls later : List (Call V)) :
    firstReport? index inputs (calls ++ later) =
      (firstReport? index inputs calls).or
        (firstReport? index (inputs + reserved calls) later) := by
  induction calls generalizing inputs with
  | nil => simp [firstReport?, reserved]
  | cons call rest step =>
      cases call with
      | reserve =>
          simp only [List.cons_append, firstReport?, reserved, step]
          congr 2
          omega
      | finish => exact step inputs
      | record place value =>
          simp only [List.cons_append, firstReport?, reserved]
          split
          · rfl
          · exact step inputs

theorem firstReport?_of_le {inputs : Nat} (unreserved : inputs + reserved calls <= index) :
    firstReport? index inputs calls = none := by
  induction calls generalizing inputs with
  | nil => rfl
  | cons call rest step =>
      cases call with
      | reserve => exact step (by simp only [reserved] at unreserved; omega)
      | finish => exact step unreserved
      | record place value =>
          simp only [reserved] at unreserved
          rw [firstReport?, if_neg (by omega)]
          exact step unreserved

theorem getElem?_reports (calls : List (Call V)) (index : Nat) :
    (reports calls)[index]? =
      if index < reserved calls then some (firstReport? index 0 calls) else none := by
  unfold reports
  rw [List.getElem?_map]
  split
  · next inside => rw [List.getElem?_range inside]; rfl
  · next outside => rw [List.getElem?_eq_none (by simpa using outside)]; rfl

theorem reports_append_reserve (calls : List (Call V)) :
    reports (calls ++ [.reserve]) = reports calls ++ [none] := by
  have last : firstReport? (reserved calls) 0 (calls ++ [.reserve]) = none :=
    (firstReport?_append _ _ _ _).trans (by
      rw [firstReport?_of_le (by omega)]
      rfl)
  unfold reports
  rw [reserved_append, reserved, reserved, List.range_succ, List.map_append]
  refine congr (congrArg _ (List.map_congr_left fun index _ => ?_)) (congrArg (fun r => [r]) last)
  rw [firstReport?_append]
  exact Option.or_none

theorem reports_append_finish (calls : List (Call V)) :
    reports (calls ++ [.finish]) = reports calls := by
  unfold reports
  rw [reserved_append]
  refine List.map_congr_left fun index _ => ?_
  rw [firstReport?_append]
  exact Option.or_none

theorem reports_append_record (calls : List (Call V)) (place : Nat) (value : V) (index : Nat) :
    (reports (calls ++ [.record place value]))[index]? =
      (reports calls)[index]?.map fun report =>
        if place = index then report.or (some value) else report := by
  have inputs : reserved (calls ++ [.record place value]) = reserved calls := reserved_append _ _
  rw [getElem?_reports, getElem?_reports, inputs, firstReport?_append, Nat.zero_add]
  split
  · next inside =>
      simp only [firstReport?, Option.map_some]
      by_cases same : place = index
      · rw [if_pos ⟨same, inside⟩, if_pos same]
      · rw [if_neg (fun both => same both.1), if_neg same, Option.or_none]
  · rfl

/-- The first report of an input is entered. -/
theorem reports_append_first
    (waiting : (reports calls)[place]? = some none)
    (value : V) :
    reports (calls ++ [.record place value]) = (reports calls).set place (some value) := by
  refine List.ext_getElem? fun index => ?_
  rw [reports_append_record, List.getElem?_set]
  by_cases same : place = index
  · subst same
    rw [waiting, if_pos rfl, if_pos (List.getElem?_eq_some_iff.1 waiting).1]
    simp
  · rw [if_neg same]
    simp [same]

/-- A report of an input that has reported, or of no input, changes nothing. -/
theorem reports_append_other
    (other : (reports calls)[place]? ≠ some none)
    (value : V) :
    reports (calls ++ [.record place value]) = reports calls := by
  refine List.ext_getElem? fun index => ?_
  rw [reports_append_record]
  by_cases same : place = index
  · subst same
    match found : (reports calls)[place]?, other with
    | none, _ => rfl
    | some (some report), _ => simp
    | some none, other => exact absurd rfl other
  · simp [same]

/-! ## One call -/

theorem countP_reports_eq_zero :
    (reports calls).countP Option.isNone = 0 ↔
      ∀ index < reserved calls, (firstReport? index 0 calls).isSome = true := by
  rw [List.countP_eq_zero, reports, List.forall_mem_map]
  simp [Option.isSome_iff_ne_none]

theorem complete_iff : Complete calls ↔ outstanding calls = 0 := by
  unfold Complete outstanding
  rw [Nat.add_eq_zero_iff, countP_reports_eq_zero]
  cases closed calls <;> simp

/-- An aggregate that waits for reports knows the first ones, and how many are outstanding. -/
structure Tracks (aggregate : Aggregate V) (calls : List (Call V)) : Prop where
  entries : aggregate.entries.toList = reports calls
  remaining : aggregate.remaining = outstanding calls

/-- An aggregate that has handed out its list. -/
structure Spent (aggregate : Aggregate V) : Prop where
  entries : aggregate.entries = #[]
  remaining : aggregate.remaining = 0

/-- What the last of some calls hands out, and the aggregate after it. -/
inductive Answers (calls : List (Call V)) : Option (List V) × Aggregate V -> Prop
  | waiting (aggregate : Aggregate V) :
      ¬ Complete calls -> aggregate.Tracks calls -> Answers calls (none, aggregate)
  | last (list : List V) (aggregate : Aggregate V) :
      Complete calls -> list.map some = reports calls -> aggregate.Spent ->
      Answers calls (some list, aggregate)

/-- A list without gaps is the list of what is in it. -/
theorem map_some_filterMap_id
    {entries : List (Option V)}
    (full : entries.countP Option.isNone = 0) :
    (entries.filterMap id).map some = entries := by
  induction entries with
  | nil => rfl
  | cons entry rest step =>
      cases entry with
      | none => simp at full
      | some value => simpa using step (by simpa using full)

/-- With one less outstanding, the list is handed out if that was the last. -/
theorem answers_release
    (entries : aggregate.entries.toList = reports calls)
    (remaining : aggregate.remaining = outstanding calls + 1) :
    Answers calls aggregate.release := by
  unfold release
  rw [remaining]
  cases left : outstanding calls with
  | zero =>
      refine .last _ _ (complete_iff.2 left) ?_ ⟨rfl, rfl⟩
      rw [entries]
      unfold outstanding at left
      exact map_some_filterMap_id (by omega)
  | succ rest =>
      refine .waiting _ ?_ ⟨entries, left.symm⟩
      rw [complete_iff, left]
      exact Nat.succ_ne_zero rest

/-- A reservation is one more outstanding. -/
theorem outstanding_append_reserve (calls : List (Call V)) :
    outstanding (calls ++ [.reserve]) = outstanding calls + 1 := by
  unfold outstanding
  rw [reports_append_reserve, List.countP_append, closed_append_singleton (by simp)]
  simp only [List.countP_singleton, Option.isNone_none, if_true]
  omega

/-- The end of the iteration is one less outstanding. -/
theorem outstanding_append_finish (still : .finish ∉ calls) :
    outstanding calls = outstanding (calls ++ [.finish]) + 1 := by
  have before : closed calls = false :=
    Bool.eq_false_iff.2 fun ended => still (closed_eq_true_iff.1 ended)
  have after : closed (calls ++ [.finish]) = true := closed_eq_true_iff.2 (by simp)
  unfold outstanding
  rw [reports_append_finish, before, after]
  simp

/-- A first report is one less outstanding. -/
theorem outstanding_append_first
    (waiting : (reports calls)[place]? = some none)
    (value : V) :
    outstanding calls = outstanding (calls ++ [.record place value]) + 1 := by
  obtain ⟨inside, found⟩ := List.getElem?_eq_some_iff.1 waiting
  have some : 0 < (reports calls).countP Option.isNone :=
    List.countP_pos_iff.2 ⟨none, List.mem_of_getElem? waiting, rfl⟩
  unfold outstanding
  rw [reports_append_first waiting, List.countP_set inside, found,
    closed_append_singleton (by simp)]
  simp only [Option.isNone_none, Option.isNone_some, if_true, Bool.false_eq_true, if_false]
  omega

/-- A report that is ignored leaves as much outstanding as before. -/
theorem outstanding_append_other
    (other : (reports calls)[place]? ≠ some none)
    (value : V) :
    outstanding (calls ++ [.record place value]) = outstanding calls := by
  unfold outstanding
  rw [reports_append_other other, closed_append_singleton (by simp)]

/-- While something is outstanding, a call hands out the list if it is the last one that was
waited for, and is accounted for otherwise. -/
theorem Tracks.answers
    (tracks : aggregate.Tracks calls)
    (waiting : ¬ Complete calls)
    (disciplined : Disciplined (calls ++ [call])) :
    Answers (calls ++ [call]) (aggregate.perform call) := by
  cases call with
  | reserve =>
      have more := outstanding_append_reserve calls
      refine .waiting _ ?_ ⟨?_, ?_⟩
      · rw [complete_iff, more]
        exact Nat.succ_ne_zero _
      · rw [reports_append_reserve, ← tracks.entries]
        exact Array.toList_push
      · rw [more, ← tracks.remaining]
        rfl
  | finish =>
      have still : .finish ∉ calls := fun member => by
        obtain ⟨before, later, split⟩ := List.append_of_mem member
        exact (disciplined before (later ++ [.finish]) (by simp [split])).2 (by simp)
      refine answers_release ?_ ?_
      · rw [reports_append_finish, tracks.entries]
      · rw [tracks.remaining, outstanding_append_finish still]
  | record place value =>
      have found : aggregate.entries[place]? = (reports calls)[place]? := by
        rw [← tracks.entries, Array.getElem?_toList]
      unfold perform record
      dsimp only
      rw [found]
      split
      · next first =>
          refine answers_release ?_ ?_
          · rw [reports_append_first first, ← tracks.entries]
            exact Array.toList_setIfInBounds
          · exact tracks.remaining.trans (outstanding_append_first first value)
      · next other =>
          have ignored : (reports calls)[place]? ≠ some none := fun first => other first
          refine .waiting _ ?_ ⟨?_, ?_⟩
          · rwa [complete_iff, outstanding_append_other ignored, ← complete_iff]
          · rw [reports_append_other ignored, tracks.entries]
          · rw [outstanding_append_other ignored, tracks.remaining]

/-- Afterwards reports and the end of the iteration are ignored. -/
theorem Spent.perform
    (spent : aggregate.Spent)
    (late : call ≠ .reserve) :
    aggregate.perform call = (none, aggregate) := by
  cases call with
  | reserve => exact absurd rfl late
  | finish =>
      unfold Aggregate.perform finishIteration release
      dsimp only
      rw [spent.remaining]
  | record place value =>
      unfold Aggregate.perform record
      dsimp only
      rw [spent.entries]
      rfl

/-! ## All calls -/

variable {before later : List (Call V)}

theorem Disciplined.of_append (disciplined : Disciplined (calls ++ later)) : Disciplined calls := by
  intro before rest split
  obtain ⟨unreserved, still⟩ := disciplined before (rest ++ later) (by simp [split])
  rw [List.mem_append, not_or] at unreserved still
  exact ⟨unreserved.1, still.1⟩

/-- No input is reserved once the iteration is closed. -/
theorem Disciplined.not_reserve
    (disciplined : Disciplined (calls ++ later))
    (complete : Complete calls) :
    .reserve ∉ later := by
  obtain ⟨before, rest, split⟩ := List.append_of_mem (closed_eq_true_iff.1 complete.1)
  have none := (disciplined before (rest ++ later) (by simp [split])).1
  exact fun member => none (List.mem_append_right _ member)

/-- What is complete stays so. -/
theorem Complete.append
    (complete : Complete calls)
    (disciplined : Disciplined (calls ++ later)) :
    Complete (calls ++ later) := by
  refine ⟨closed_eq_true_iff.2 ?_, fun index inside => ?_⟩
  · exact List.mem_append_left _ (closed_eq_true_iff.1 complete.1)
  · rw [reserved_append, reserved_eq_zero (disciplined.not_reserve complete)] at inside
    rw [firstReport?_append, Option.isSome_or, complete.2 index inside]
    rfl

/-- After any calls the aggregate waits and knows what was reported, or it has handed out its
list. -/
theorem tracks_or_spent (kind : CombinatorKind) (disciplined : Disciplined calls) :
    (¬ Complete calls ∧ (afterCalls kind calls).Tracks calls) ∨
      (Complete calls ∧ (afterCalls kind calls).Spent) := by
  induction calls using List.reverseRecOn with
  | nil => exact .inl ⟨fun complete => Bool.false_ne_true complete.1, rfl, rfl⟩
  | append_singleton calls call step =>
      rw [afterCalls_append_singleton]
      rcases step disciplined.of_append with ⟨waiting, tracks⟩ | ⟨complete, spent⟩
      · have answers := tracks.answers waiting disciplined
        generalize (afterCalls kind calls).perform call = result at answers
        cases answers with
        | waiting aggregate still tracks => exact .inl ⟨still, tracks⟩
        | last list aggregate complete all spent => exact .inr ⟨complete, spent⟩
      · have late : call ≠ .reserve := fun reserve =>
          disciplined.not_reserve complete (by simp [reserve])
        rw [spent.perform late]
        exact .inr ⟨complete.append disciplined, spent⟩

/-- What a call hands out after some others. -/
def handsOut (kind : CombinatorKind) (before : List (Call V)) (call : Call V) : Option (List V) :=
  ((afterCalls kind before).perform call).1

/-- A call hands out the list if it completes it, and nothing otherwise. -/
theorem handsOut_spec (kind : CombinatorKind) (disciplined : Disciplined (before ++ [call])) :
    ((handsOut kind before call).isSome = true ↔
      Complete (before ++ [call]) ∧ ¬ Complete before) ∧
    ∀ list, handsOut kind before call = some list ->
      call ≠ .reserve ∧ list.map some = reports (before ++ [call]) := by
  unfold handsOut
  rcases tracks_or_spent kind disciplined.of_append with ⟨waiting, tracks⟩ | ⟨complete, spent⟩
  · have answers := tracks.answers waiting disciplined
    have reserving : call = .reserve -> ((afterCalls kind before).perform call).1 = none := by
      rintro rfl
      rfl
    generalize (afterCalls kind before).perform call = result at answers reserving
    cases answers with
    | waiting aggregate still tracks =>
        exact ⟨⟨nofun, fun both => absurd both.1 still⟩, nofun⟩
    | last list aggregate complete all spent =>
        refine ⟨⟨fun _ => ⟨complete, waiting⟩, fun _ => rfl⟩, fun other same => ?_⟩
        cases same
        exact ⟨fun reserve => (by cases reserving reserve), all⟩
  · have late : call ≠ .reserve := fun reserve =>
      disciplined.not_reserve complete (by simp [reserve])
    rw [spent.perform late]
    exact ⟨⟨nofun, fun both => absurd complete both.2⟩, nofun⟩

/-- A reservation hands out the number of those before it. -/
theorem reserve_afterCalls
    (disciplined : Disciplined (before ++ [.reserve])) :
    (afterCalls kind before).reserve.1 = reserved before := by
  rcases tracks_or_spent kind disciplined.of_append with ⟨_, tracks⟩ | ⟨complete, _⟩
  · have size := congrArg List.length tracks.entries
    rwa [reports, List.length_map, List.length_range] at size
  · exact absurd (List.mem_singleton_self _) (disciplined.not_reserve complete)

/-- If all reservations come before the one end of the iteration, then the list is handed out
exactly if the iteration is closed and every input has reported, by the call that completes it. It
holds the first report of each input, in order, and no later call hands out anything. -/
theorem complete_list_handed_out_once
    (kind : CombinatorKind)
    {calls : List (Call V)}
    (disciplined : Disciplined calls) :
    (Complete calls ↔ ∃ before call later, calls = before ++ call :: later ∧
      (handsOut kind before call).isSome = true) ∧
    ∀ before call later, calls = before ++ call :: later ->
      (call = .reserve -> (afterCalls kind before).reserve.1 = reserved before) ∧
      ((handsOut kind before call).isSome = true ↔
        Complete (before ++ [call]) ∧ ¬ Complete before) ∧
      ∀ list, handsOut kind before call = some list ->
        call ≠ .reserve ∧ list.map some = reports (before ++ [call]) ∧
          ∀ middle next last, later = middle ++ next :: last ->
            handsOut kind (before ++ call :: middle) next = none := by
  -- The calls up to any one of them are disciplined too.
  have upTo : ∀ {before call later}, calls = before ++ call :: later ->
      Disciplined (before ++ [call]) := fun {before call later} split =>
    have whole : Disciplined ((before ++ [call]) ++ later) := by simpa [← split] using disciplined
    whole.of_append
  refine ⟨⟨fun complete => ?_, ?_⟩, fun before call later split => ⟨?_, ?_, ?_⟩⟩
  · clear upTo
    induction calls using List.reverseRecOn with
    | nil => exact absurd complete.1 Bool.false_ne_true
    | append_singleton earlier last step =>
        by_cases already : Complete earlier
        · obtain ⟨before, call, later, split, handed⟩ := step disciplined.of_append already
          exact ⟨before, call, later ++ [last], by simp [split], handed⟩
        · exact ⟨earlier, last, [], rfl, (handsOut_spec kind disciplined).1.2 ⟨complete, already⟩⟩
  · rintro ⟨before, call, later, split, handed⟩
    have complete := ((handsOut_spec kind (upTo split)).1.1 handed).1
    have rest : calls = (before ++ [call]) ++ later := by simp [split]
    rw [rest] at disciplined ⊢
    exact complete.append disciplined
  · rintro rfl
    exact reserve_afterCalls kind (upTo split)
  · exact (handsOut_spec kind (upTo split)).1
  · intro list handed
    obtain ⟨one, all⟩ := handsOut_spec kind (upTo split)
    refine ⟨(all list handed).1, (all list handed).2, ?_⟩
    rintro middle next last rfl
    have splitNext : calls = (before ++ call :: middle) ++ next :: last := by simp [split]
    have complete : Complete (before ++ call :: middle) := by
      have done := (one.1 (by rw [handed]; rfl)).1
      have joined : before ++ call :: middle = (before ++ [call]) ++ middle := by simp
      have rest := (upTo splitNext).of_append
      rw [joined] at rest ⊢
      exact done.append rest
    have none := (handsOut_spec kind (upTo splitNext)).1.not.2 fun both => both.2 complete
    exact Option.not_isSome_iff_eq_none.1 none

@[simp] theorem disciplined_nil : Disciplined ([] : List (Call V)) := by
  intro before later split
  simp at split

@[simp] theorem disciplined_cons :
    Disciplined (call :: calls) ↔
      (call = .finish -> .reserve ∉ calls ∧ .finish ∉ calls) ∧ Disciplined calls := by
  constructor
  · intro disciplined
    refine ⟨fun finish => disciplined [] calls (by rw [finish]; rfl), ?_⟩
    intro before later split
    exact disciplined (call :: before) later (by rw [split]; rfl)
  · rintro ⟨first, rest⟩ before later split
    cases before with
    | nil =>
        obtain ⟨rfl, rfl⟩ := List.cons.inj split
        exact first rfl
    | cons head before => exact rest before later (List.cons.inj split).2

/-- Two inputs, of which the second reports first. The first is reported before it is there, after
the end of the iteration and once more, and there is a report of no input. -/
def latecomerCalls : List (Call String) :=
  [.record 0 "early", .reserve, .reserve, .record 1 "second", .record 7 "none", .finish,
    .record 0 "first", .record 0 "late"]

/-- The list is handed out by the first report after the end of the iteration. -/
theorem complete_list_handed_out_once_latecomerCalls :
    Disciplined latecomerCalls ∧ Complete latecomerCalls ∧
      handsOut .all (latecomerCalls.take 6) (.record 0 "first") = some ["first", "second"] ∧
      handsOut .all (latecomerCalls.take 7) (.record 0 "late") = none := by
  have disciplined : Disciplined latecomerCalls := by simp [latecomerCalls]
  obtain ⟨complete, each⟩ := complete_list_handed_out_once .all disciplined
  have handed : handsOut .all (latecomerCalls.take 6) (.record 0 "first") =
      some ["first", "second"] := by
    decide
  have split : latecomerCalls = latecomerCalls.take 6 ++
      .record 0 "first" :: [.record 0 "late"] := rfl
  obtain ⟨_, _, all⟩ := each _ _ _ split
  obtain ⟨_, _, late⟩ := all _ handed
  exact ⟨disciplined, complete.2 ⟨_, _, _, split, congrArg Option.isSome handed⟩, handed,
    late [] _ [] rfl⟩

end Aggregate
end ScriptVM

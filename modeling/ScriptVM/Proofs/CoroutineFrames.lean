import ScriptVM.Machine.Coroutines
import ScriptVM.Proofs.FreeLists

/-!
# Coroutines and their frames

A generator or an async function runs in frames that belong to a coroutine of its kind. The
initial yield of a generator can divide its code: what comes before it does nothing but go on
to it, and what comes after it does not lead back. A frame of such code is opening until it
has come to the initial yield, and from then on it has begun.

The frame of a coroutine is parked in its object while the coroutine is suspended, and
stands on the stack while it runs. On the way from one place to the other native code
holds it, for one coroutine at a time.
-/

namespace ScriptVM

/-- Functions of this kind run in the frame of a coroutine. -/
def FunctionKind.suspends (kind : FunctionKind) : Bool :=
  kind.isGenerator || kind.isAsync

theorem FunctionKind.plain_of_isConstructor
    {kind : FunctionKind}
    (constructs : kind.isConstructor = true) :
    kind.suspends = false := by
  cases kind <;> first | rfl | cases constructs

/-- The instruction neither returns nor suspends, and it has nothing to do with try
regions. -/
def Instruction.isPlain : Instruction -> Bool
  | .return _ | .tailCall .. | .yield .. | .yieldStar .. | .await .. => false
  | .enterTry .. | .gotoFinally _ | .leave .. | .endFinally => false
  | _ => true

/-- The initial yield divides the code. Only plain instructions come before it, which jump no
further than to it, and nothing that comes after it jumps back to it or before it. -/
structure Template.Divided (template : Template) (border : Nat) : Prop where
  initial : template.instruction? border = some .initialYield
  once : ∀ offset, template.instruction? offset = some .initialYield -> offset = border
  opening : ∀ offset instruction, offset < border ->
    template.instruction? offset = some instruction ->
      instruction.isPlain = true ∧ ∀ target ∈ instruction.targets, target <= border
  body : ∀ offset instruction, border < offset ->
    template.instruction? offset = some instruction ->
      ∀ target ∈ instruction.targets, border < target

/-- A coroutine of this kind runs such code. -/
def CoroutineKind.Suits (kind : CoroutineKind) (template : Template) : Prop :=
  match kind with
  | .generator => template.kind.isGenerator = true
  | .async _ => template.kind.isAsync = true

/-- A coroutine with the code that it runs. -/
structure Routine where
  id : ObjectId
  template : Template

/-! ## Where a frame can go -/

/-- The targets of a try region are allowed. -/
def TryRegion.Aims (allowed : Nat -> Prop) : TryRegion -> Prop
  | .handler catchTarget finallyTarget =>
      (∀ target, catchTarget = some target -> allowed target) ∧
        ∀ target, finallyTarget = some target -> allowed target
  | .finallyBody _ => True

/-- The target of a pending jump is allowed. -/
def Completion.Aims (allowed : Nat -> Prop) : Completion -> Prop
  | .jump target _ => allowed target
  | _ => True

namespace Frame

/-- All places where a frame can be taken by its try regions and its pending jumps are
allowed. -/
structure Aims
    (allowed : Nat -> Prop)
    (frame : Frame) : Prop where
  regions : ∀ region ∈ frame.tryRegions, region.Aims allowed
  completions : ∀ completion ∈ frame.completions.toList, completion.Aims allowed

/-- The coroutine that a frame belongs to, with the code of the frame. -/
def routine? (frame : Frame) : Option Routine :=
  frame.coroutine.map fun id => ⟨id, frame.template⟩

/-- A frame of a function that suspends belongs to a coroutine. -/
def Due (frame : Frame) : Prop :=
  frame.coroutine = none -> frame.function.isSome -> frame.template.kind.suspends = false

/-- The frame of a coroutine stands before the initial yield that divides its code, in no try
region. -/
structure Opening (frame : Frame) : Prop where
  owned : frame.coroutine.isSome
  before : ∃ border, frame.template.Divided border ∧ frame.next <= border
  regions : frame.tryRegions = []
  completions : frame.completions = #[]

/-- The frame of a coroutine is past the initial yield if that divides its code, and nothing
takes it back. -/
structure Begun (frame : Frame) : Prop where
  next : ∀ border, frame.coroutine.isSome -> frame.template.Divided border ->
    border < frame.next
  aims : ∀ border, frame.coroutine.isSome -> frame.template.Divided border ->
    frame.Aims fun target => border < target

/-- A frame stands where another one stood in its run: it returns to the same place, belongs
to the same coroutine with the same code, and is as far as that. If the other one was that of a
constructor, then it still is the same constructor. -/
structure Continues (before after : Frame) : Prop where
  returnTo : after.returnTo = before.returnTo
  routine : after.routine? = before.routine?
  due : before.Due -> after.Due
  opening : before.Opening -> after.Opening
  begun : before.Begun -> after.Begun
  constructs : before.construct ≠ .none ->
    after.construct = before.construct ∧ after.scope = before.scope

namespace Continues

variable {first second third : Frame} {before after : Frame}

@[refl] theorem refl (frame : Frame) : frame.Continues frame :=
  ⟨rfl, rfl, id, id, id, fun _ => ⟨rfl, rfl⟩⟩

theorem trans (earlier : first.Continues second) (later : second.Continues third) :
    first.Continues third where
  returnTo := later.returnTo.trans earlier.returnTo
  routine := later.routine.trans earlier.routine
  due due := later.due (earlier.due due)
  opening opening := later.opening (earlier.opening opening)
  begun begun := later.begun (earlier.begun begun)
  constructs constructs := by
    obtain ⟨kind, scope⟩ := earlier.constructs constructs
    obtain ⟨same, stays⟩ := later.constructs (kind ▸ constructs)
    exact ⟨same.trans kind, stays.trans scope⟩

/-- A frame of no coroutine and no constructor can be replaced by another one that returns to
the same place. -/
theorem ofFree
    (free : before.coroutine = none)
    (plain : before.construct = .none)
    (unowned : after.coroutine = none)
    (returnTo : after.returnTo = before.returnTo)
    (due : after.Due) :
    before.Continues after where
  returnTo := returnTo
  routine := by
    unfold routine?
    rw [free, unowned]
    rfl
  due _ := due
  opening opening := by
    have owned := opening.owned
    rw [free] at owned
    cases owned
  begun _ := by
    refine ⟨fun border owned => ?_, fun border owned => ?_⟩ <;>
    · rw [unowned] at owned
      cases owned
  constructs constructs := absurd plain constructs

/-- A frame that stands at the same place of the same call. -/
theorem of_same
    (template : after.template = before.template)
    (function : after.function = before.function)
    (coroutine : after.coroutine = before.coroutine)
    (returnTo : after.returnTo = before.returnTo)
    (next : after.next = before.next)
    (tryRegions : after.tryRegions = before.tryRegions)
    (completions : after.completions = before.completions)
    (construct : after.construct = before.construct)
    (scope : after.scope = before.scope) :
    before.Continues after where
  returnTo := returnTo
  routine := by
    unfold routine?
    rw [coroutine, template]
  due due := by
    unfold Due
    rw [coroutine, function, template]
    exact due
  opening opening := by
    refine ⟨coroutine ▸ opening.owned, ?_, tryRegions ▸ opening.regions,
      completions ▸ opening.completions⟩
    rw [template, next]
    exact opening.before
  begun begun := by
    refine ⟨fun border owned divided => ?_, fun border owned divided => ?_⟩ <;>
      rw [coroutine] at owned <;> rw [template] at divided
    · rw [next]
      exact begun.next border owned divided
    · have aims := begun.aims border owned divided
      exact ⟨tryRegions ▸ aims.regions, completions ▸ aims.completions⟩
  constructs _ := ⟨construct, scope⟩

end Continues

variable {frame : Frame}

theorem routine?_eq_none : frame.routine? = none ↔ frame.coroutine = none :=
  Option.map_eq_none_iff

theorem coroutine_of_routine? {routine : Routine} (belongs : frame.routine? = some routine) :
    frame.coroutine = some routine.id ∧ frame.template = routine.template := by
  obtain ⟨id, same, rfl⟩ := Option.map_eq_some_iff.1 belongs
  exact ⟨same, rfl⟩

/-- A frame that opens is not at the end of its code. -/
theorem Opening.not_at_end (opening : frame.Opening) :
    frame.template.instruction? frame.next ≠ none := by
  obtain ⟨border, divided, early⟩ := opening.before
  have initial := divided.initial
  unfold Template.instruction? at initial ⊢
  intro absent
  rw [Option.map_eq_none_iff, Array.getElem?_eq_none_iff] at absent
  rw [Array.getElem?_eq_none (Nat.le_trans absent early)] at initial
  cases initial

/-- The frame of a coroutine that has not gone anywhere is opening, unless the initial yield
does not divide its code. -/
theorem opening_or_begun
    (next : frame.next = 0)
    (regions : frame.tryRegions = [])
    (completions : frame.completions = #[]) :
    frame.Opening ∨ frame.Begun := by
  by_cases divided : frame.coroutine.isSome ∧ ∃ border, frame.template.Divided border
  · obtain ⟨owned, border, divides⟩ := divided
    exact Or.inl ⟨owned, ⟨border, divides, next ▸ Nat.zero_le border⟩, regions, completions⟩
  · exact Or.inr ⟨fun border owned divides => absurd ⟨owned, border, divides⟩ divided,
      fun border owned divides => absurd ⟨owned, border, divides⟩ divided⟩

/-- A frame that has begun does not open any more. -/
theorem Begun.not_opening (begun : frame.Begun) : ¬ frame.Opening := by
  rintro ⟨owned, ⟨border, divided, early⟩, -, -⟩
  exact Nat.not_lt.2 early (begun.next border owned divided)

end Frame
/-! ## Parked frames -/

/-- The coroutine waits to be resumed. -/
def CoroutineState.isSuspended : CoroutineState -> Bool
  | .suspendedStart | .suspendedYield => true
  | .running | .completed => false

/-- A frame is fit to be parked for a coroutine. -/
structure Frame.Shelves (frame : Frame) (id : ObjectId) : Prop where
  coroutine : frame.coroutine = some id
  begun : frame.Begun

/-- The coroutine of an object holds a frame exactly while it is suspended, and the frame
is its own and runs code of its kind. -/
structure Coroutine.Shelved (coroutine : Coroutine) (id : ObjectId) : Prop where
  parked : coroutine.frame.isSome = coroutine.state.isSuspended
  owned : ∀ frame, coroutine.frame = some frame -> frame.Shelves id
  suited : ∀ frame, coroutine.frame = some frame -> coroutine.kind.Suits frame.template

namespace Heap

variable {first second third before after heap : Heap ObjectKind}

/-- No coroutine comes up, changes or goes away. -/
def Calm (before after : Heap ObjectKind) : Prop :=
  ∀ id coroutine, after.payload? id = some (.coroutine coroutine) ↔
    before.payload? id = some (.coroutine coroutine)

/-- A coroutine that comes up or changes has a frame as it should, and one that has
completed does not begin anew. -/
def Tends (before after : Heap ObjectKind) : Prop :=
  ∀ id coroutine, after.payload? id = some (.coroutine coroutine) ->
    before.payload? id = some (.coroutine coroutine) ∨
      coroutine.Shelved id ∧
        ∀ earlier, before.payload? id = some (.coroutine earlier) ->
          earlier.state = .completed -> coroutine.state = .completed

/-- The free list is in order, and every coroutine holds a frame as it should. -/
structure Orderly (heap : Heap ObjectKind) : Prop where
  tidy : heap.Tidy
  shelved : ∀ id coroutine, heap.payload? id = some (.coroutine coroutine) ->
    coroutine.Shelved id

/-- Where coroutines are tended a heap stays orderly. -/
theorem Orderly.tends
    (orderly : before.Orderly)
    (tidy : after.Tidy)
    (tends : before.Tends after) :
    after.Orderly where
  tidy := tidy
  shelved id coroutine present := by
    rcases tends id coroutine present with old | ⟨shelved, _⟩
    · exact orderly.shelved id coroutine old
    · exact shelved

namespace Calm

theorem trans (earlier : first.Calm second) (later : second.Calm third) :
    first.Calm third :=
  fun id coroutine => (later id coroutine).trans (earlier id coroutine)

theorem of_payload (same : ∀ id, after.payload? id = before.payload? id) : before.Calm after :=
  fun id _ => by rw [same id]

@[refl] theorem refl (heap : Heap ObjectKind) : heap.Calm heap :=
  of_payload fun _ => rfl

theorem tends (calm : before.Calm after) : before.Tends after :=
  fun id coroutine present => Or.inl ((calm id coroutine).1 present)

/-- Allocating anything but a coroutine leaves the coroutines alone. -/
theorem allocate
    (tidy : heap.Tidy)
    (prototype : Option ObjectId)
    {kind : ObjectKind}
    (still : ∀ coroutine, kind ≠ .coroutine coroutine) :
    heap.Calm (heap.allocate prototype kind).2 := by
  intro id coroutine
  unfold payload?
  rw [tidy.get?_allocate]
  split
  · next same =>
      rw [← same, tidy.allocated_dead]
      constructor
      · intro present
        exact absurd (Option.some.inj present) (still coroutine)
      · intro impossible
        cases impossible
  · rfl

/-- So does changing internal slots if coroutines keep theirs. -/
theorem modifyPayload
    (heap : Heap ObjectKind)
    (id : ObjectId)
    {change : ObjectKind -> ObjectKind}
    (still : ∀ kind, heap.payload? id = some kind -> ∀ coroutine,
      change kind = .coroutine coroutine ↔ kind = .coroutine coroutine) :
    heap.Calm (heap.modifyPayload id change) := by
  intro other coroutine
  rw [payload?_modifyPayload]
  split
  · next same =>
      subst same
      cases present : heap.payload? id with
      | none => exact Iff.rfl
      | some kind =>
          rw [Option.map_some, Option.some.injEq, Option.some.injEq]
          exact still kind present coroutine
  · exact Iff.rfl

end Calm
end Heap

namespace Machine

variable {σ : Type} {machine before after : Machine σ} {id : ObjectId} {coroutine : Coroutine}
variable {state : CoroutineState} {frame : Option Frame}

theorem coroutine?_eq_some {coroutine : Coroutine} :
    machine.coroutine? id = some coroutine ↔
      machine.heap.payload? id = some (.coroutine coroutine) := by
  unfold coroutine? kind?
  split
  · next found present =>
      rw [present, Option.some.injEq, Option.some.injEq, ObjectKind.coroutine.injEq]
  · next other =>
      constructor
      · intro impossible
        cases impossible
      · intro present
        exact absurd present (other coroutine)

/-! ## Running coroutines -/

/-- A coroutine runs. -/
def Runs
    (machine : Machine σ)
    (id : ObjectId) : Prop :=
  ∃ coroutine, machine.coroutine? id = some coroutine ∧ coroutine.state = .running

/-- The coroutines that the frames on the stack belong to. -/
def owners (machine : Machine σ) : List ObjectId :=
  machine.frames.toList.filterMap Frame.coroutine

/-- The coroutines that the frames on the stack belong to, with the code that they run. -/
def routines (machine : Machine σ) : List Routine :=
  machine.frames.toList.filterMap Frame.routine?

theorem map_routines (machine : Machine σ) : machine.routines.map Routine.id = machine.owners := by
  unfold routines owners
  rw [List.map_filterMap]
  refine congrArg (List.filterMap · _) (funext fun frame => ?_)
  unfold Frame.routine?
  cases frame.coroutine <;> rfl

/-- The coroutines that run have one frame each on the stack, but for one whose frame
native code holds, and no other coroutine has one there. Each of them runs code of its
kind. -/
structure Manned
    (loose : Option Routine)
    (machine : Machine σ) : Prop where
  runs : ∀ id, machine.Runs id ↔ id ∈ (loose.toList ++ machine.routines).map Routine.id
  distinct : ((loose.toList ++ machine.routines).map Routine.id).Nodup
  suited : ∀ routine ∈ loose.toList ++ machine.routines, ∀ coroutine,
    machine.coroutine? routine.id = some coroutine -> coroutine.kind.Suits routine.template

/-- Where the coroutines are left alone they are the same. -/
theorem coroutine?_of_calm
    (calm : before.heap.Calm after.heap)
    (id : ObjectId)
    (coroutine : Coroutine) :
    after.coroutine? id = some coroutine ↔ before.coroutine? id = some coroutine := by
  rw [coroutine?_eq_some, coroutine?_eq_some]
  exact calm id coroutine

/-- Where the coroutines are left alone the same ones run. -/
theorem runs_of_calm (calm : before.heap.Calm after.heap) (id : ObjectId) :
    after.Runs id ↔ before.Runs id := by
  unfold Runs
  simp only [coroutine?_of_calm calm]

namespace Manned

variable {loose later : Option Routine} {routine : Routine}

/-- Frames that move between the stack and native code still are the same frames. -/
theorem rearrange
    (manned : before.Manned loose)
    (calm : before.heap.Calm after.heap)
    (same : (later.toList ++ after.routines).Perm (loose.toList ++ before.routines)) :
    after.Manned later where
  runs id := by
    rw [runs_of_calm calm, manned.runs, (same.map _).mem_iff]
  distinct := (same.map _).nodup_iff.2 manned.distinct
  suited routine member coroutine present :=
    manned.suited routine (same.mem_iff.1 member) coroutine
      ((coroutine?_of_calm calm _ _).1 present)

theorem same
    (manned : before.Manned loose)
    (calm : before.heap.Calm after.heap)
    (frames : after.frames = before.frames) :
    after.Manned loose := by
  refine manned.rearrange calm ?_
  unfold routines
  rw [frames]

/-- The coroutine whose frame native code holds runs and has no frame on the stack. -/
theorem held (manned : machine.Manned (some routine)) :
    machine.Runs routine.id ∧ routine.id ∉ machine.owners := by
  rw [← machine.map_routines]
  exact ⟨(manned.runs _).2 (.head _), (List.nodup_cons.1 manned.distinct).1⟩

theorem runs_iff (manned : machine.Manned none) : machine.Runs id ↔ id ∈ machine.owners := by
  rw [← machine.map_routines]
  exact manned.runs id

theorem not_mem_owners (manned : machine.Manned none) (rests : ¬ machine.Runs id) :
    id ∉ machine.owners :=
  fun member => rests (manned.runs_iff.2 member)

end Manned

/-! ## Changing the state of a coroutine -/

theorem payload?_park
    (machine : Machine σ)
    (id other : ObjectId)
    (state : CoroutineState)
    (frame : Option Frame) :
    (machine.park id state frame).heap.payload? other = some (.coroutine coroutine) ↔
      ∃ earlier, machine.heap.payload? other = some (.coroutine earlier) ∧
        coroutine = if id = other then { earlier with state, frame } else earlier := by
  unfold park modifyHeap
  dsimp only
  rw [Heap.payload?_modifyPayload]
  split
  · next same =>
      subst same
      cases machine.heap.payload? id with
      | none => simp
      | some kind => cases kind <;> simp [eq_comm]
  · simp

/-- Parking leaves the kinds of coroutines as they are. -/
theorem kind_of_park
    {machine : Machine σ}
    {id other : ObjectId}
    (present : (machine.park id state frame).coroutine? other = some coroutine) :
    ∃ earlier, machine.coroutine? other = some earlier ∧ coroutine.kind = earlier.kind := by
  rw [coroutine?_eq_some, payload?_park] at present
  obtain ⟨earlier, held, rfl⟩ := present
  refine ⟨earlier, coroutine?_eq_some.2 held, ?_⟩
  split <;> rfl

theorem runs_park
    (machine : Machine σ)
    (id : ObjectId)
    (state : CoroutineState)
    (frame : Option Frame)
    (other : ObjectId) :
    (machine.park id state frame).Runs other ↔
      if id = other then (machine.coroutine? id).isSome ∧ state = .running
      else machine.Runs other := by
  unfold Runs
  simp only [coroutine?_eq_some, payload?_park, Option.isSome_iff_exists]
  split
  · next same =>
      subst same
      constructor
      · rintro ⟨_, ⟨earlier, present, rfl⟩, running⟩
        exact ⟨⟨earlier, present⟩, running⟩
      · rintro ⟨⟨earlier, present⟩, running⟩
        exact ⟨_, ⟨earlier, present, rfl⟩, running⟩
  · constructor
    · rintro ⟨coroutine, ⟨_, present, rfl⟩, running⟩
      exact ⟨_, present, running⟩
    · rintro ⟨coroutine, present, running⟩
      exact ⟨coroutine, ⟨coroutine, present, rfl⟩, running⟩

/-- Parking tends the coroutines if the frame is the right one, and unless it wakes one
that has completed. -/
theorem tends_park
    (parked : frame.isSome = state.isSuspended)
    (owned : ∀ held, frame = some held -> held.Shelves id)
    (suited : ∀ held, frame = some held -> ∀ coroutine,
      machine.coroutine? id = some coroutine -> coroutine.kind.Suits held.template)
    (stays : ∀ coroutine, machine.coroutine? id = some coroutine ->
      coroutine.state = .completed -> state = .completed) :
    machine.heap.Tends (machine.park id state frame).heap := by
  intro other coroutine present
  obtain ⟨earlier, held, rfl⟩ := (machine.payload?_park id other state frame).1 present
  split
  · next same =>
      subst same
      refine Or.inr ⟨⟨parked, owned, fun frame same => ?_⟩, fun before old completed => ?_⟩
      · exact suited frame same earlier (coroutine?_eq_some.2 held)
      · exact stays before (coroutine?_eq_some.2 old) completed
  · exact Or.inl held

namespace Manned

variable {state : CoroutineState} {frame : Option Frame} {routine : Routine}

/-- Parking changes no kind. -/
theorem suited_park
    {routines : List Routine}
    (suited : ∀ routine ∈ routines, ∀ coroutine,
      machine.coroutine? routine.id = some coroutine -> coroutine.kind.Suits routine.template)
    (state : CoroutineState)
    (frame : Option Frame) :
    ∀ routine ∈ routines, ∀ coroutine,
      (machine.park id state frame).coroutine? routine.id = some coroutine ->
        coroutine.kind.Suits routine.template := by
  intro routine member coroutine present
  obtain ⟨earlier, held, same⟩ := kind_of_park present
  rw [same]
  exact suited routine member earlier held

/-- Native code takes the frame of a coroutine that does not run yet. -/
theorem wake
    {coroutine : Coroutine}
    (manned : machine.Manned none)
    (present : machine.coroutine? routine.id = some coroutine)
    (suits : coroutine.kind.Suits routine.template)
    (rests : ¬ machine.Runs routine.id) :
    (machine.park routine.id .running frame).Manned (some routine) where
  runs other := by
    have exists_ : (machine.coroutine? routine.id).isSome = true := by rw [present]; rfl
    rw [runs_park, manned.runs other]
    show _ ↔ other ∈ routine.id :: machine.routines.map Routine.id
    rw [List.mem_cons, @eq_comm _ other routine.id]
    split
    · next same => exact ⟨fun _ => Or.inl same, fun _ => ⟨exists_, rfl⟩⟩
    · next other => exact ⟨Or.inr, fun member => member.resolve_left other⟩
  distinct := by
    have apart := manned.not_mem_owners rests
    rw [← machine.map_routines] at apart
    exact List.nodup_cons.2 ⟨apart, manned.distinct⟩
  suited := by
    refine suited_park (fun other member found here => ?_) _ _
    cases member with
    | head =>
        cases present.symm.trans here
        exact suits
    | tail _ member => exact manned.suited other member found here

/-- The coroutine whose frame native code holds stops running. -/
theorem stop (manned : machine.Manned (some routine)) (stops : state ≠ .running) :
    (machine.park routine.id state frame).Manned none where
  runs other := by
    have apart := manned.held.2
    rw [← machine.map_routines] at apart
    rw [runs_park]
    show _ ↔ other ∈ machine.routines.map Routine.id
    split
    · next same =>
        subst same
        exact ⟨fun running => absurd running.2 stops, fun member => absurd member apart⟩
    · next differs =>
        rw [manned.runs other]
        show other ∈ routine.id :: machine.routines.map Routine.id ↔ _
        rw [List.mem_cons]
        exact ⟨fun member => member.resolve_left (Ne.symm differs), Or.inr⟩
  distinct := (List.nodup_cons.1 manned.distinct).2
  suited := suited_park (fun other member => manned.suited other (.tail _ member)) _ _

/-- A coroutine that did not run does not run afterwards either. -/
theorem rest
    (manned : machine.Manned none)
    (rests : ¬ machine.Runs id)
    (stops : state ≠ .running) :
    (machine.park id state frame).Manned none where
  runs other := by
    have apart := manned.not_mem_owners rests
    rw [← machine.map_routines] at apart
    rw [runs_park]
    show _ ↔ other ∈ machine.routines.map Routine.id
    split
    · next same =>
        subst same
        exact ⟨fun running => absurd running.2 stops, fun member => absurd member apart⟩
    · exact manned.runs other
  distinct := manned.distinct
  suited := suited_park manned.suited _ _

/-- Native code holds the frame of a coroutine that it has just made. -/
theorem spawn
    (manned : machine.Manned none)
    (tidy : machine.heap.Tidy)
    (prototype : Option ObjectId)
    {kind : CoroutineKind}
    {template : Template}
    (suits : kind.Suits template) :
    (machine.allocate prototype
      (.coroutine { state := .running, frame := none, kind })).2.Manned
        (some ⟨(machine.allocate prototype
          (.coroutine { state := .running, frame := none, kind })).1, template⟩) := by
  have dead := tidy.allocated_dead prototype
    (.coroutine { state := .running, frame := none, kind })
  have found := tidy.get?_allocate prototype
    (.coroutine { state := .running, frame := none, kind })
  have rests : ¬ machine.Runs (machine.heap.allocate prototype
      (.coroutine { state := .running, frame := none, kind })).1 := by
    rintro ⟨coroutine, present, _⟩
    rw [coroutine?_eq_some, Heap.payload?, dead] at present
    cases present
  have present : ∀ other coroutine, (machine.allocate prototype
      (.coroutine { state := .running, frame := none, kind })).2.coroutine? other =
        some coroutine ↔
      if (machine.heap.allocate prototype
          (.coroutine { state := .running, frame := none, kind })).1 = other then
        coroutine = { state := .running, frame := none, kind }
      else machine.coroutine? other = some coroutine := by
    intro other coroutine
    rw [coroutine?_eq_some, coroutine?_eq_some]
    show (machine.heap.allocate _ _).2.payload? other = _ ↔ _
    unfold Heap.payload?
    rw [found other]
    split
    · exact ⟨fun same => by cases same; rfl, fun same => same ▸ rfl⟩
    · exact Iff.rfl
  have apart := manned.not_mem_owners rests
  rw [← machine.map_routines] at apart
  refine ⟨fun other => ?_, List.nodup_cons.2 ⟨apart, manned.distinct⟩, ?_⟩
  · have running : machine.Runs other ↔ other ∈ machine.routines.map Routine.id :=
      manned.runs other
    show _ ↔ other ∈ _ :: machine.routines.map Routine.id
    rw [List.mem_cons, @eq_comm _ other, ← running]
    unfold Runs
    simp only [present]
    split
    · next same => exact ⟨fun _ => Or.inl same, fun _ => ⟨_, rfl, rfl⟩⟩
    · next differs => exact ⟨Or.inr, fun running => running.resolve_left differs⟩
  · intro routine member coroutine here
    rw [present] at here
    cases member with
    | head =>
        split at here
        · subst here
          exact suits
        · next differs => exact absurd rfl differs
    | tail _ member =>
        have differs : ¬ (machine.heap.allocate prototype
            (.coroutine { state := .running, frame := none, kind })).1 = routine.id :=
          fun same => apart (same ▸ List.mem_map_of_mem member)
        rw [if_neg differs] at here
        exact manned.suited routine member coroutine here

end Manned

/-- A new coroutine runs, so it holds no frame. -/
theorem tends_spawn
    (tidy : machine.heap.Tidy)
    (prototype : Option ObjectId)
    (kind : CoroutineKind) :
    machine.heap.Tends (machine.allocate prototype
      (.coroutine { state := .running, frame := none, kind })).2.heap := by
  intro id coroutine present
  have dead := tidy.allocated_dead prototype
    (.coroutine { state := .running, frame := none, kind })
  have stands : ((machine.heap.allocate prototype
      (.coroutine { state := .running, frame := none, kind })).2.get? id).map
        HeapObject.payload = some (.coroutine coroutine) := present
  rw [tidy.get?_allocate] at stands
  split at stands
  · next same =>
      cases stands
      refine Or.inr ⟨⟨rfl, fun _ impossible => ?_, fun _ impossible => ?_⟩,
        fun earlier old => ?_⟩
      · cases impossible
      · cases impossible
      rw [← same, Heap.payload?, dead] at old
      cases old
  · exact Or.inl stands

end Machine
end ScriptVM

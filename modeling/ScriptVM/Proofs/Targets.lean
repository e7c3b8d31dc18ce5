import ScriptVM.Proofs.FrameStack

/-!
# Targets within the code

Where a frame can go by itself: its next instruction, the targets of the try regions it
is in, and the jumps that its finally bodies will resume. Routing a throw, a return or a
jump through a frame finds no other targets than these, and no move of a frame finds others
than these and those of the instructions of its code.
-/

namespace ScriptVM

/-- The targets of a try region lie within a limit. -/
abbrev TryRegion.AimsWithin (limit : Nat) : TryRegion -> Prop :=
  TryRegion.Aims fun target => target <= limit

/-- The target of a pending jump lies within a limit. -/
abbrev Completion.AimsWithin (limit : Nat) : Completion -> Prop :=
  Completion.Aims fun target => target <= limit

/-- Where a throw goes inside a frame. -/
def Catch.target : Catch -> Nat
  | .catchBody target | .finallyBody target => target

namespace Frame

/-- All places where a frame can go by itself lie within a limit. -/
structure AimsWithin
    (limit : Nat)
    (frame : Frame) : Prop where
  next : frame.next <= limit
  regions : ∀ region ∈ frame.tryRegions, region.AimsWithin limit
  completions : ∀ completion ∈ frame.completions.toList, completion.AimsWithin limit

theorem AimsWithin.aims {limit : Nat} {frame : Frame} (within : frame.AimsWithin limit) :
    frame.Aims fun target => target <= limit :=
  ⟨within.regions, within.completions⟩

/-- A frame stays where it is or goes on somewhere allowed, and nothing else about it
changes. -/
def Steered
    (allowed : Nat -> Prop)
    (before after : Frame) : Prop :=
  ∃ next tryRegions completions,
    after = { before with next, tryRegions, completions } ∧
      (next = before.next ∨ allowed next) ∧ after.Aims allowed

variable {allowed : Nat -> Prop} {frame : Frame} {turned : Frame} {instruction : Instruction}
variable {target : Nat}

namespace Steered

theorem aims {before after : Frame} (steered : before.Steered allowed after) :
    after.Aims allowed := by
  obtain ⟨_, _, _, _, _, aims⟩ := steered
  exact aims

theorem trans
    {first second third : Frame}
    (earlier : first.Steered allowed second)
    (later : second.Steered allowed third) :
    first.Steered allowed third := by
  obtain ⟨_, _, _, rfl, went, _⟩ := earlier
  obtain ⟨next, regions, completions, rfl, goes, aims⟩ := later
  refine ⟨next, regions, completions, rfl, ?_, aims⟩
  rcases goes with same | reached
  · exact went.imp_left same.trans |>.imp_right (same ▸ ·)
  · exact Or.inr reached

theorem within
    (aims : frame.Aims allowed)
    {regions : List TryRegion}
    (known : ∀ region ∈ regions, region.Aims allowed)
    {completions : Array Completion}
    (fewer : completions.toList ⊆ frame.completions.toList) :
    frame.Steered allowed { frame with tryRegions := regions, completions } :=
  ⟨frame.next, regions, completions, rfl, Or.inl rfl, known, fun completion member =>
    aims.completions completion (fewer member)⟩

end Steered

namespace Aims

theorem jump (aims : frame.Aims allowed) {target : Nat} (reached : allowed target) :
    frame.Steered allowed { frame with next := target } :=
  ⟨target, frame.tryRegions, frame.completions, rfl, Or.inr reached, aims.regions,
    aims.completions⟩

theorem withRegions
    (aims : frame.Aims allowed)
    {regions : List TryRegion}
    (known : ∀ region ∈ regions, region.Aims allowed) :
    frame.Steered allowed { frame with tryRegions := regions } :=
  .within aims known fun _ member => member

theorem truncate (aims : frame.Aims allowed) (depth : Nat) :
    frame.Steered allowed (frame.truncate depth) := by
  refine .within aims aims.regions ?_
  rw [Array.take_eq_extract, Array.toList_extract, List.extract_eq_take_drop]
  exact fun _ member => List.mem_of_mem_drop (List.mem_of_mem_take member)

theorem enterFinally
    (aims : frame.Aims allowed)
    {target : Nat}
    (reached : allowed target)
    {completion : Completion}
    (known : completion.Aims allowed) :
    frame.Steered allowed (frame.enterFinally target completion) := by
  refine ⟨target, _, _, rfl, Or.inr reached, ?_, ?_⟩
  · intro region member
    cases member with
    | head => trivial
    | tail _ outer => exact aims.regions region outer
  · intro pending member
    unfold Frame.enterFinally at member
    rw [Array.toList_push, List.mem_append, List.mem_singleton] at member
    rcases member with old | rfl
    · exact aims.completions pending old
    · exact known

/-- Ending a finally body leaves its region and drops its completion. -/
theorem endFinally
    (aims : frame.Aims allowed)
    {height : Nat}
    {outer : List TryRegion}
    (standing : frame.tryRegions = .finallyBody height :: outer) :
    frame.Steered allowed ({ frame with tryRegions := outer }.truncate height) := by
  have left := aims.withRegions fun other member => aims.regions other (by
    rw [standing]
    exact .tail _ member)
  exact left.trans (left.aims.truncate height)

end Aims

/-! ## Routing -/

/-- Where a frame goes if only some regions are left. -/
theorem routeThrowThrough_aims
    (regions : List TryRegion)
    (aims : frame.Aims allowed)
    (known : ∀ region ∈ regions, region.Aims allowed) :
    frame.Steered allowed (frame.routeThrowThrough regions).2 ∧
      ∀ handler, (frame.routeThrowThrough regions).1 = some handler ->
        allowed handler.target := by
  induction frame, regions using routeThrowThrough.induct with
  | case1 frame =>
      exact ⟨aims.withRegions known, fun handler impossible => by cases impossible⟩
  | case2 frame catchTarget finallyTarget outer =>
      have region := known _ (.head _)
      refine ⟨aims.withRegions fun other member => ?_, fun handler found => ?_⟩
      · cases member with
        | head => exact ⟨(fun _ impossible => by cases impossible), region.2⟩
        | tail _ later => exact known other (.tail _ later)
      · cases found
        exact region.1 catchTarget rfl
  | case3 frame catchTarget outer =>
      refine ⟨aims.withRegions fun other later => known other (.tail _ later), ?_⟩
      intro handler found
      cases found
      exact (known _ (.head _)).1 catchTarget rfl
  | case4 frame finallyTarget outer =>
      refine ⟨aims.withRegions fun other later => known other (.tail _ later), ?_⟩
      intro handler found
      cases found
      exact (known _ (.head _)).2 finallyTarget rfl
  | case5 frame outer step =>
      exact step aims fun other later => known other (.tail _ later)
  | case6 frame depth outer step =>
      have truncated := aims.truncate depth
      obtain ⟨steered, handlers⟩ :=
        step truncated.aims fun other later => known other (.tail _ later)
      exact ⟨truncated.trans steered, handlers⟩

theorem routeReturnThrough_aims
    (value : Value)
    (regions : List TryRegion)
    (aims : frame.Aims allowed)
    (known : ∀ region ∈ regions, region.Aims allowed) :
    frame.Steered allowed (frame.routeReturnThrough value regions).2 := by
  induction frame, regions using routeReturnThrough.induct with
  | case1 frame => exact aims.withRegions known
  | case2 frame catchTarget finallyTarget outer =>
      have left := aims.withRegions fun other later => known other (.tail _ later)
      exact left.trans (left.aims.enterFinally ((known _ (.head _)).2 finallyTarget rfl) trivial)
  | case3 frame catchTarget outer step =>
      exact step aims fun other later => known other (.tail _ later)
  | case4 frame depth outer step =>
      have truncated := aims.truncate depth
      exact truncated.trans
        (step truncated.aims fun other later => known other (.tail _ later))

theorem routeJumpThrough_aims
    (reached : allowed target)
    (depth : Nat)
    (regions : List TryRegion)
    (aims : frame.Aims allowed)
    (known : ∀ region ∈ regions, region.Aims allowed) :
    frame.Steered allowed (frame.routeJumpThrough target depth regions).2 := by
  induction frame, depth, regions using routeJumpThrough.induct with
  | case1 frame regions => exact aims.withRegions known
  | case2 frame depth => exact aims.withRegions known
  | case3 frame depth catchTarget finallyTarget outer =>
      have left := aims.withRegions fun other later => known other (.tail _ later)
      exact left.trans (left.aims.enterFinally ((known _ (.head _)).2 finallyTarget rfl) reached)
  | case4 frame depth catchTarget outer step =>
      exact step aims fun other later => known other (.tail _ later)
  | case5 frame depth height outer step =>
      have truncated := aims.truncate height
      exact truncated.trans
        (step truncated.aims fun other later => known other (.tail _ later))

theorem leave_aims
    (reached : allowed target)
    (depth : Nat)
    (aims : frame.Aims allowed) :
    frame.Steered allowed (frame.leave target depth) := by
  have routed := routeJumpThrough_aims reached depth frame.tryRegions aims aims.regions
  unfold leave
  split
  · next left equation => rwa [equation] at routed
  · next left equation =>
      rw [equation] at routed
      exact routed.trans (routed.aims.jump reached)

/-! ## Turns -/

/-- What a turn does to where a frame can go: it stays where it is, goes somewhere allowed, or
back before an instruction that delegates. -/
structure Goes
    (allowed : Nat -> Prop)
    (before after : Frame) : Prop where
  next : after.next = before.next ∨ allowed after.next ∨
    ∃ destination iterator, before.HasFetched (.yieldStar destination iterator) ∧
      after.next = before.next - 1
  aims : after.Aims allowed
  attached : after.attached = before.attached
  resumes : ∀ register, after.resumeRegister = some register ->
    before.resumeRegister = some register ∨
      ∃ instruction, before.template.Contains instruction ∧ (register, 1) ∈ instruction.registers

theorem Steered.goes {before after : Frame} (steered : before.Steered allowed after) :
    before.Goes allowed after := by
  obtain ⟨_, _, _, rfl, went, aims⟩ := steered
  exact ⟨went.imp_right Or.inl, aims, rfl, fun _ same => Or.inl same⟩

/-- A turn goes nowhere else than the frame and the instruction that it fetched say. -/
theorem Turn.goes
    (turn : frame.Turn turned)
    (aims : frame.Aims allowed)
    (code : ∀ instruction, frame.HasFetched instruction ->
      ∀ target ∈ instruction.targets, allowed target) :
    frame.Goes allowed turned := by
  have thrown := routeThrowThrough_aims frame.tryRegions aims aims.regions
  cases turn with
  | jump instruction target fetched aimed =>
      exact (aims.jump (code instruction fetched target aimed)).goes
  | enterTry catchTarget finallyTarget fetched =>
      have region : (TryRegion.handler catchTarget finallyTarget).Aims allowed := by
        refine ⟨fun target aimed => ?_, fun target aimed => ?_⟩ <;> subst aimed
        · exact code _ fetched target (List.mem_append_left _ (.head _))
        · exact code _ fetched target (List.mem_append_right _ (.head _))
      refine (aims.withRegions fun other member => ?_).goes
      cases member with
      | head => exact region
      | tail _ outer => exact aims.regions other outer
  | exitTry =>
      exact (aims.withRegions fun other member =>
        aims.regions other (List.mem_of_mem_tail member)).goes
  | gotoFinally target fetched =>
      have entered : frame.Steered allowed (frame.enterFinally target .normal) :=
        aims.enterFinally (code _ fetched target (.head _)) trivial
      exact entered.goes
  | leave target depth fetched =>
      exact (leave_aims (code _ fetched target (.head _)) depth aims).goes
  | endFinally height outer standing => exact (aims.endFinally standing).goes
  | endJump height outer target depth standing pending =>
      have reached : allowed target := aims.completions (.jump target depth)
        (Array.mem_toList_iff.2 (Array.mem_of_getElem? pending))
      have ended := aims.endFinally standing
      exact (ended.trans (leave_aims reached depth ended.aims)).goes
  | catchBody routed target value route =>
      unfold routeThrow at route
      rw [route] at thrown
      have caught := (thrown.1.trans (thrown.1.aims.jump (thrown.2 _ rfl))).goes
      exact ⟨caught.next, ⟨caught.aims.regions, caught.aims.completions⟩, caught.attached,
        caught.resumes⟩
  | finallyBody routed target exception route =>
      unfold routeThrow at route
      rw [route] at thrown
      have entered : routed.Steered allowed (routed.enterFinally target (.throw exception)) :=
        thrown.1.aims.enterFinally (thrown.2 _ rfl) trivial
      exact (thrown.1.trans entered).goes
  | «return» _ value route =>
      have routing := routeReturnThrough_aims value frame.tryRegions aims aims.regions
      unfold routeReturn at route
      rw [route] at routing
      exact routing.goes
  | resumeInto instruction register fetched named =>
      refine ⟨Or.inl rfl, ⟨aims.regions, aims.completions⟩, rfl, fun chosen same => ?_⟩
      cases same
      exact Or.inr ⟨instruction, fetched.contains, named⟩
  | delegating destination iterator fetched =>
      exact ⟨Or.inr (Or.inr ⟨destination, iterator, fetched, rfl⟩),
        ⟨aims.regions, aims.completions⟩, rfl, fun _ same => Or.inl same⟩
  | takeDelegation | argumentsObject =>
      exact ⟨Or.inl rfl, ⟨aims.regions, aims.completions⟩, rfl, fun _ same => Or.inl same⟩

/-! ## Divided code -/

/-- What a frame past the border has fetched does not lead back. -/
theorem Begun.forward
    (begun : frame.Begun)
    {border : Nat}
    (owned : frame.coroutine.isSome)
    (divided : frame.template.Divided border)
    (fetched : frame.HasFetched instruction) :
    ∀ target ∈ instruction.targets, border < target := by
  intro target aimed
  obtain ⟨offset, stands, found⟩ := fetched
  have past := begun.next border owned divided
  rcases Nat.lt_or_eq_of_le (Nat.lt_succ_iff.1 (stands ▸ past)) with after | same
  · exact divided.body offset instruction after found target aimed
  · subst same
    cases found.symm.trans divided.initial
    cases aimed

/-- What an opening frame has fetched is plain and leads no further than to the border. -/
theorem Opening.plain (opening : frame.Opening) (fetched : frame.HasFetched instruction) :
    instruction.isPlain = true ∧ ∃ border, frame.template.Divided border ∧
      frame.next <= border ∧ ∀ target ∈ instruction.targets, target <= border := by
  obtain ⟨border, divided, early⟩ := opening.before
  obtain ⟨offset, stands, found⟩ := fetched
  obtain ⟨plain, near⟩ := divided.opening offset instruction (by omega) found
  exact ⟨plain, border, divided, early, near⟩

theorem Opening.absurd
    {goal : Prop}
    (opening : frame.Opening)
    (fetched : frame.HasFetched instruction)
    (leaves : instruction.isPlain = false) :
    goal := by
  rw [(opening.plain fetched).1] at leaves
  cases leaves

/-- No turn takes an opening frame past the initial yield. -/
theorem Turn.opening (turn : frame.Turn turned) (opening : frame.Opening) :
    turned.Opening := by
  have regions := opening.regions
  cases turn with
  | jump instruction target fetched aimed =>
      obtain ⟨-, border, divided, -, near⟩ := opening.plain fetched
      exact ⟨opening.owned, ⟨border, divided, near target aimed⟩, regions, opening.completions⟩
  | enterTry _ _ fetched | gotoFinally _ fetched | leave _ _ fetched
  | delegating _ _ fetched =>
      exact opening.absurd fetched rfl
  | exitTry =>
      refine ⟨opening.owned, opening.before, ?_, opening.completions⟩
      exact (congrArg List.tail regions : frame.tryRegions.tail = _)
  | endFinally _ _ standing | endJump _ _ _ _ standing =>
      rw [regions] at standing
      cases standing
  | catchBody _ _ _ route | finallyBody _ _ _ route =>
      unfold routeThrow at route
      rw [regions] at route
      cases route
  | «return» _ _ route =>
      unfold routeReturn at route
      rw [regions] at route
      cases route
  | resumeInto | takeDelegation | argumentsObject =>
      exact ⟨opening.owned, opening.before, regions, opening.completions⟩

/-- No turn takes a frame that has begun back. -/
theorem Turn.begun (turn : frame.Turn turned) (begun : frame.Begun) :
    turned.Begun := by
  have same := turn.sameActivation
  have goes : ∀ border, frame.coroutine.isSome -> frame.template.Divided border ->
      frame.Goes (fun target => border < target) turned := fun border owned divided =>
    turn.goes (begun.aims border owned divided) fun _ fetched =>
      begun.forward owned divided fetched
  refine ⟨fun border owned divided => ?_, fun border owned divided => ?_⟩ <;>
    rw [same.coroutine] at owned <;> rw [same.template] at divided
  · rcases (goes border owned divided).next with stays | reached |
      ⟨_, _, ⟨offset, stands, found⟩, next⟩
    · rw [stays]
      exact begun.next border owned divided
    · exact reached
    · have past := begun.next border owned divided
      have apart : offset ≠ border := by
        rintro rfl
        cases found.symm.trans divided.initial
      omega
  · exact (goes border owned divided).aims

/-- A turn keeps a frame at its place in the run. -/
theorem Turn.continues (turn : frame.Turn turned) :
    frame.Continues turned where
  returnTo := turn.sameActivation.returnTo
  routine := by
    unfold routine?
    rw [turn.sameActivation.coroutine, turn.sameActivation.template]
  due due := by
    unfold Due
    rw [turn.sameActivation.coroutine, turn.sameActivation.function,
      turn.sameActivation.template]
    exact due
  opening := turn.opening
  begun := turn.begun
  constructs _ := ⟨turn.sameActivation.construct, turn.sameActivation.scope⟩

/-- So does fetching anything but the initial yield of a coroutine. -/
theorem continues_advance
    (found : frame.template.instruction? frame.next = some instruction)
    (further : frame.coroutine.isSome -> instruction ≠ .initialYield) :
    frame.Continues { frame with next := frame.next + 1 } where
  returnTo := rfl
  routine := rfl
  due := id
  opening opening := by
    obtain ⟨border, divided, early⟩ := opening.before
    refine ⟨opening.owned, ⟨border, divided, ?_⟩, opening.regions, opening.completions⟩
    refine Nat.lt_of_le_of_ne early fun same => further opening.owned ?_
    rw [same] at found
    exact Option.some.inj (found.symm.trans divided.initial)
  begun begun := by
    refine ⟨fun border owned divided => Nat.lt_succ_of_lt (begun.next border owned divided),
      fun border owned divided => ?_⟩
    have aims := begun.aims border owned divided
    exact ⟨aims.regions, aims.completions⟩
  constructs _ := ⟨rfl, rfl⟩

/-- A frame that fetches its initial yield has begun if it was opening or had begun. -/
theorem begun_advance
    (found : frame.template.instruction? frame.next = some .initialYield)
    (staged : frame.Opening ∨ frame.Begun) :
    Begun { frame with next := frame.next + 1 } := by
  refine ⟨fun border owned divided => ?_, fun border owned divided => ?_⟩
  · rw [← divided.once frame.next found]
    exact Nat.lt_succ_self _
  · rcases staged with opening | begun
    · refine ⟨fun region member => ?_, fun completion member => ?_⟩
      · have listed : region ∈ frame.tryRegions := member
        rw [opening.regions] at listed
        cases listed
      · have listed : completion ∈ frame.completions.toList := member
        rw [opening.completions] at listed
        cases listed
    · have aims := begun.aims border owned divided
      exact ⟨aims.regions, aims.completions⟩

end Frame
end ScriptVM

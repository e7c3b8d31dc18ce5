import ScriptVM.Proofs.Reachable

/-!
# Try regions and completions

The finally bodies that run in a frame keep their completions in order, and a completion that
leaves regions runs one finally body after the other.
-/

/-!
## Try regions in order

The completions of the finally bodies that run in a frame lie below each other, those of
outer bodies deeper. Every move of a frame keeps them so: a body that is entered pushes
its completion on top, and one that is left takes everything from its own completion on
with it.
-/

namespace ScriptVM

namespace TryRegion

/-- The catch body of a region that is active. -/
def catchTarget? : TryRegion -> Option Nat
  | .handler catchTarget _ => catchTarget
  | .finallyBody _ => none

/-- The finally body that leaving a region enters. -/
def finallyTarget? : TryRegion -> Option Nat
  | .handler _ finallyTarget => finallyTarget
  | .finallyBody _ => none

/-- The completions of the finally bodies among some regions lie below a height, each
below those of the bodies inside of it. -/
def OrderedBelow : Nat -> List TryRegion -> Prop
  | _, [] => True
  | height, .handler _ _ :: outer => OrderedBelow height outer
  | height, .finallyBody depth :: outer => depth < height ∧ OrderedBelow depth outer

@[simp] theorem orderedBelow_nil (height : Nat) : OrderedBelow height [] := trivial

@[simp] theorem orderedBelow_finallyBody (height depth : Nat) (outer : List TryRegion) :
    OrderedBelow height (.finallyBody depth :: outer) ↔
      depth < height ∧ OrderedBelow depth outer := .rfl

namespace OrderedBelow

variable {low high : Nat} {regions : List TryRegion} {region : TryRegion}

theorem mono (higher : low <= high) (ordered : OrderedBelow low regions) :
    OrderedBelow high regions := by
  induction regions with
  | nil => trivial
  | cons region outer step =>
      cases region with
      | handler catchTarget finallyTarget => exact step ordered
      | finallyBody depth => exact ⟨Nat.lt_of_lt_of_le ordered.1 higher, ordered.2⟩

theorem tail (ordered : OrderedBelow high (region :: regions)) : OrderedBelow high regions := by
  cases region with
  | handler catchTarget finallyTarget => exact ordered
  | finallyBody depth => exact ordered.2.mono (Nat.le_of_lt ordered.1)

theorem lt_of_mem
    {depth : Nat}
    (ordered : OrderedBelow high regions)
    (member : .finallyBody depth ∈ regions) :
    depth < high := by
  induction regions with
  | nil => cases member
  | cons region outer step =>
      cases member with
      | head => exact ordered.1
      | tail _ later => exact step ordered.tail later

end OrderedBelow
end TryRegion

namespace Frame

/-- The running finally bodies of a frame have their completions, each below those of the
bodies inside of it. -/
def Ordered (frame : Frame) : Prop :=
  TryRegion.OrderedBelow frame.completions.size frame.tryRegions

variable {frame : Frame} {depth : Nat}

theorem size_completions_truncate
    (frame : Frame)
    (within : depth <= frame.completions.size) :
    (frame.truncate depth).completions.size = depth := by
  simp [truncate, Nat.min_eq_left within]

/-- Nothing is pending outside of the regions that a frame is still in. -/
theorem Ordered.truncate
    {outer : List TryRegion}
    (ordered : TryRegion.OrderedBelow frame.completions.size (.finallyBody depth :: outer)) :
    TryRegion.OrderedBelow (frame.truncate depth).completions.size outer := by
  rw [size_completions_truncate frame (Nat.le_of_lt ordered.1)]
  exact ordered.2

theorem Ordered.enterFinally
    (ordered : frame.Ordered)
    (target : Nat)
    (completion : Completion) :
    (frame.enterFinally target completion).Ordered := by
  unfold Ordered Frame.enterFinally
  simp only [Array.size_push, TryRegion.orderedBelow_finallyBody]
  exact ⟨Nat.lt_succ_self _, ordered⟩

theorem ordered_routeThrowThrough
    (regions : List TryRegion)
    (ordered : TryRegion.OrderedBelow frame.completions.size regions) :
    (frame.routeThrowThrough regions).2.Ordered := by
  induction frame, regions using routeThrowThrough.induct with
  | case1 frame => trivial
  | case2 frame catchTarget finallyTarget outer => exact ordered
  | case3 frame catchTarget outer => exact ordered
  | case4 frame finallyTarget outer => exact ordered
  | case5 frame outer step => exact step ordered
  | case6 frame depth outer step => exact step (Ordered.truncate ordered)

theorem ordered_routeReturnThrough
    (value : Value)
    (regions : List TryRegion)
    (ordered : TryRegion.OrderedBelow frame.completions.size regions) :
    (frame.routeReturnThrough value regions).2.Ordered := by
  induction frame, regions using routeReturnThrough.induct with
  | case1 frame => trivial
  | case2 frame catchTarget finallyTarget outer =>
      have inner : Frame.Ordered { frame with tryRegions := outer } := ordered
      exact inner.enterFinally _ _
  | case3 frame catchTarget outer step => exact step ordered
  | case4 frame depth outer step => exact step (Ordered.truncate ordered)

theorem ordered_routeJumpThrough
    (target depth : Nat)
    (regions : List TryRegion)
    (ordered : TryRegion.OrderedBelow frame.completions.size regions) :
    (frame.routeJumpThrough target depth regions).2.Ordered := by
  induction frame, depth, regions using routeJumpThrough.induct with
  | case1 frame regions => exact ordered
  | case2 frame depth => trivial
  | case3 frame depth catchTarget finallyTarget outer =>
      have inner : Frame.Ordered { frame with tryRegions := outer } := ordered
      exact inner.enterFinally _ _
  | case4 frame depth catchTarget outer step => exact step ordered
  | case5 frame depth height outer step => exact step (Ordered.truncate ordered)

theorem Ordered.leave (ordered : frame.Ordered) (target depth : Nat) :
    (frame.leave target depth).Ordered := by
  have routed := ordered_routeJumpThrough target depth frame.tryRegions ordered
  unfold Frame.leave
  split
  · next entered equation => rwa [equation] at routed
  · next left equation =>
      rw [equation] at routed
      exact routed

/-- Every turn of a frame keeps its regions in order. -/
theorem Turn.ordered {turned : Frame} (turn : frame.Turn turned) (ordered : frame.Ordered) :
    turned.Ordered := by
  cases turn with
  | exitTry =>
      show TryRegion.OrderedBelow frame.completions.size frame.tryRegions.tail
      unfold Ordered at ordered
      cases regions : frame.tryRegions with
      | nil => trivial
      | cons region outer =>
          rw [regions] at ordered
          exact ordered.tail
  | gotoFinally target => exact ordered.enterFinally target .normal
  | leave target depth => exact ordered.leave target depth
  | endFinally height outer standing =>
      unfold Ordered at ordered
      rw [standing] at ordered
      exact Ordered.truncate ordered
  | endJump height outer target depth standing =>
      unfold Ordered at ordered
      rw [standing] at ordered
      have ended : Frame.Ordered ({ frame with tryRegions := outer }.truncate height) :=
        Ordered.truncate ordered
      exact ended.leave target depth
  | catchBody routed target value route =>
      have kept := ordered_routeThrowThrough frame.tryRegions ordered
      unfold routeThrow at route
      rw [route] at kept
      exact kept
  | finallyBody routed target exception route =>
      have kept := ordered_routeThrowThrough frame.tryRegions ordered
      unfold routeThrow at route
      rw [route] at kept
      exact Ordered.enterFinally kept target (.throw exception)
  | «return» _ value route =>
      have kept := ordered_routeReturnThrough value frame.tryRegions ordered
      unfold routeReturn at route
      rw [route] at kept
      exact kept
  | _ => exact ordered

/-- So does every move. -/
theorem Move.ordered {moved : Frame} (move : frame.Move moved) (ordered : frame.Ordered) :
    moved.Ordered := by
  cases move with
  | advance => exact ordered
  | turn _ turn => exact turn.ordered ordered

theorem Fresh.ordered {cells : Cells} (fresh : frame.Fresh cells) :
    frame.Ordered := by
  unfold Ordered
  rw [fresh.tryRegions]
  trivial

theorem Prepared.ordered
    {prepared : Frame}
    (change : frame.Prepared prepared)
    (ordered : frame.Ordered) :
    prepared.Ordered := by
  cases change <;> exact ordered

end Frame

/-! ## Lives of frames -/

variable {σ : Type} {sight : Sight σ} {frame : Frame}

namespace Frame

/-- One step of an activation: a change while it is the innermost one, a preparation for its next
run, or registers that are captured or detached. -/
inductive Becomes : Frame -> Frame -> Prop
  | move (before after : Frame) : before.Move after -> Becomes before after
  | prepare (before after : Frame) : before.Prepared after -> Becomes before after
  | attach (frame : Frame) (attached : List (Register × UpvalueId)) :
      Becomes frame { frame with attached }

/-- A frame that came of a fresh one, step by step. -/
inductive Lived : Frame -> Prop
  | fresh (cells : Cells) (frame : Frame) : frame.Fresh cells -> Lived frame
  | step (before after : Frame) : Lived before -> before.Becomes after -> Lived after

/-- Whatever becomes of a frame, its regions stay in order. -/
theorem Lived.ordered {frame : Frame} (lived : frame.Lived) :
    frame.Ordered := by
  induction lived with
  | fresh cells frame fresh => exact fresh.ordered
  | step before after _ becomes ordered =>
      cases becomes with
      | move _ move => exact move.ordered ordered
      | prepare _ prepared => exact prepared.ordered ordered
      | attach => exact ordered

end Frame

/-- Every frame of a stage has a life. -/
structure Stage.Lived (stage : Stage σ) : Prop where
  stack : ∀ frame ∈ stage.machine.stack, frame.Lived
  loose : ∀ frame, stage.origins.frame frame -> frame.Lived

namespace Stage.Lived

variable {origins : Origins} {frame : Frame} {before after : Machine σ} {below : List Frame}

/-- Only the stack and the frames off the stack matter. -/
theorem same
    {before after : Stage σ}
    (lived : before.Lived)
    (frames : after.origins.frame = before.origins.frame)
    (stack : after.machine.stack ⊆ before.machine.stack) :
    after.Lived where
  stack frame member := lived.stack frame (stack member)
  loose frame known := lived.loose frame (by rwa [frames] at known)

/-- One more frame off the stack. -/
theorem withFrame
    {machine : Machine σ}
    (lived : Lived ⟨origins, machine⟩)
    (life : frame.Lived) :
    Lived ⟨origins.withFrame frame, machine⟩ where
  stack := lived.stack
  loose := by
    rintro other (known | rfl)
    · exact lived.loose other known
    · exact life

/-- A frame comes on top of some of the frames that there were. -/
theorem push
    (lived : Lived ⟨origins, before⟩)
    (kept : below ⊆ before.stack)
    (stack : after.stack = below ++ [frame])
    (life : frame.Lived) :
    Lived ⟨origins, after⟩ where
  stack other member := by
    rw [stack, List.mem_append, List.mem_singleton] at member
    rcases member with lower | rfl
    · exact lived.stack other (kept lower)
    · exact life
  loose := lived.loose

/-- The innermost frame takes a step. -/
theorem stepTop
    (lived : Lived ⟨origins, before⟩)
    {top changed : Frame}
    (standing : before.stack = below ++ [top])
    (stack : after.stack = below ++ [changed])
    (becomes : top.Becomes changed) :
    Lived ⟨origins, after⟩ := by
  have life : top.Lived := lived.stack top (by rw [standing]; simp)
  refine lived.push ?_ stack (.step top changed life becomes)
  rw [standing]
  exact List.subset_append_left _ _

end Stage.Lived

/-- A transition goes on with the lives of all frames. -/
theorem Transition.lived
    {before after : Stage σ}
    (lived : before.Lived)
    (transition : Transition before after) :
    after.Lived := by
  cases transition with
  | consult origins machine id name template slot =>
      obtain ⟨caches, same⟩ := machine.cachedLookup_machine id name template.id slot
      rw [same]
      exact lived.same rfl (List.Subset.refl _)
  | remember origins machine id name template slot =>
      obtain ⟨caches, same⟩ := machine.rememberOwn_machine id name template.id slot
      rw [same]
      exact lived.same rfl (List.Subset.refl _)
  | «open» origins machine frame fresh => exact lived.withFrame (.fresh _ frame fresh)
  | prepare origins machine old frame known prepared =>
      exact lived.withFrame (.step old frame (lived.loose old known) (.prepare old frame prepared))
  | push origins machine frame known =>
      exact lived.push (List.Subset.refl _) (machine.stack_pushFrame frame)
        (lived.loose frame known)
  | call origins machine frame fresh =>
      exact lived.push (List.Subset.refl _) (machine.stack_pushFrame frame) (.fresh _ frame fresh)
  | replace origins machine top frame standing fresh =>
      refine lived.push (List.dropLast_sublist _).subset ?_ (.fresh _ frame fresh)
      rw [Machine.stack_pushFrame, Machine.stack_popFrame]
  | pop origins machine =>
      refine lived.same rfl ?_
      rw [Machine.stack_popFrame]
      exact (List.dropLast_sublist _).subset
  | take origins machine top known standing =>
      obtain ⟨below, stack⟩ := Machine.stack_of_top? standing
      have left : Stage.Lived ⟨origins, machine.takeFrame⟩ := by
        refine lived.same rfl ?_
        rw [Machine.stack_takeFrame]
        exact (List.dropLast_sublist _).subset
      exact left.withFrame (lived.stack top (by rw [stack]; simp))
  | move origins machine top moved standing move =>
      obtain ⟨below, stack⟩ := Machine.stack_of_top? standing
      exact lived.stepTop stack (Machine.stack_modifyTop _ stack) (.move top moved move)
  | capture origins machine top nested standing =>
      obtain ⟨below, stack⟩ := Machine.stack_of_top? standing
      obtain ⟨attached, captured, -⟩ := Machine.stack_captureClosure nested stack
      exact lived.stepTop stack captured (.attach top attached)
  | detach origins machine first =>
      cases standing : machine.top? with
      | none =>
          rw [Machine.detachFrom_of_no_top first standing]
          exact lived
      | some top =>
          obtain ⟨below, stack⟩ := Machine.stack_of_top? standing
          obtain ⟨attached, detached, -⟩ := Machine.stack_detachFrom first stack
          exact lived.stepTop stack detached (.attach top attached)
  | collect origins machine kept =>
      refine lived.same rfl ?_
      rw [machine.stack_collectGarbage kept]
      exact List.Subset.refl _
  | _ => exact lived.same rfl (List.Subset.refl _)

/-- Wherever an embedder looks, every frame has a life. -/
theorem Sight.lived_of_holds
    (visible : sight.Visible)
    (held : sight.machine.Holds frame) :
    frame.Lived := by
  have start : ∀ intrinsics config world,
      (Stage.blank intrinsics config world : Stage σ).Lived :=
    fun _ _ _ => ⟨fun _ member => absurd member List.not_mem_nil,
      fun _ impossible => impossible.elim⟩
  obtain ⟨origins, coherent, -, lived⟩ :=
    Machine.Reached.invariant start (fun _ _ old transition => transition.lived old)
      visible.reached.2
  rcases held with running | ⟨id, coroutine, present, parked⟩
  · exact lived.stack frame running
  · exact lived.loose frame (coherent.objects id _ present frame parked)

/-- Wherever an embedder looks, the regions of every frame are in order. -/
theorem Sight.ordered_of_holds
    (visible : sight.Visible)
    (held : sight.machine.Holds frame) :
    frame.Ordered :=
  (Sight.lived_of_holds visible held).ordered

/-!
## Completions and the regions of a frame

Which regions a return, a throw or a jump leaves, and one region at a time: past one that
has no finally body to run a completion goes on as if it had not been there, and into the
finally body of any other it goes with the rest of its way pending.
-/

/-! ## What a completion leaves -/

namespace Completion

/-- A completion leaves a region that it meets. -/
def crosses : Completion -> TryRegion -> Bool
  | .normal, _ => false
  | .return _, _ => true
  | .throw _, region => region.catchTarget?.isNone
  | .jump _ depth, _ => depth != 0

/-- What is left of a completion behind a region. -/
def past : Completion -> Completion
  | .jump target depth => .jump target (depth - 1)
  | completion => completion

/-- The regions that a completion leaves: a return all of them, a throw those inside of
the innermost one with a catch body, a jump as many as it says. -/
def crossed : Completion -> List TryRegion -> List TryRegion
  | .normal, _ => []
  | .return _, regions => regions
  | .throw _, regions => regions.takeWhile fun region => region.catchTarget?.isNone
  | .jump _ depth, regions => regions.take depth

/-- The regions that a completion stays in. -/
def uncrossed (completion : Completion) (regions : List TryRegion) : List TryRegion :=
  regions.drop (completion.crossed regions).length

/-- The finally bodies on the way of a completion, innermost first. -/
def finallyTargets (completion : Completion) (regions : List TryRegion) : List Nat :=
  (completion.crossed regions).filterMap TryRegion.finallyTarget?

variable {completion : Completion} {region : TryRegion}

@[simp] theorem crossed_nil (completion : Completion) : completion.crossed [] = [] := by
  cases completion <;> simp [crossed]

theorem crossed_of_crosses (crosses : completion.crosses region) (outer : List TryRegion) :
    completion.crossed (region :: outer) = region :: completion.past.crossed outer := by
  cases completion with
  | normal => cases crosses
  | «return» value => rfl
  | throw exception => exact List.takeWhile_cons_of_pos crosses
  | jump target depth =>
      cases depth with
      | zero => cases crosses
      | succ depth => rfl

theorem crossed_of_not_crosses (stays : ¬ completion.crosses region) (outer : List TryRegion) :
    completion.crossed (region :: outer) = [] := by
  cases completion with
  | normal => rfl
  | «return» value => exact absurd rfl stays
  | throw exception => exact List.takeWhile_cons_of_neg stays
  | jump target depth =>
      cases depth with
      | zero => rfl
      | succ depth => exact absurd rfl stays

theorem uncrossed_of_crosses (crosses : completion.crosses region) (outer : List TryRegion) :
    completion.uncrossed (region :: outer) = completion.past.uncrossed outer := by
  simp [uncrossed, crossed_of_crosses crosses]

theorem finallyTargets_of_crosses
    (crosses : completion.crosses region)
    (outer : List TryRegion) :
    completion.finallyTargets (region :: outer) =
      region.finallyTarget?.toList ++ completion.past.finallyTargets outer := by
  unfold finallyTargets
  rw [crossed_of_crosses crosses]
  cases found : region.finallyTarget? with
  | none => simp [found]
  | some target => simp [found]

end Completion

/-! ## Frames behind their regions -/

namespace Frame

/-- Two states of a frame that differ in where it stands, the regions it is in and what is
pending. -/
def Rerouted (before after : Frame) : Prop :=
  ∃ next tryRegions completions, after = { before with next, tryRegions, completions }

namespace Rerouted

@[refl] theorem refl (frame : Frame) : frame.Rerouted frame :=
  ⟨frame.next, frame.tryRegions, frame.completions, rfl⟩

theorem trans
    {first second third : Frame}
    (earlier : first.Rerouted second)
    (later : second.Rerouted third) :
    first.Rerouted third := by
  obtain ⟨_, _, _, rfl⟩ := earlier
  obtain ⟨next, regions, completions, rfl⟩ := later
  exact ⟨next, regions, completions, rfl⟩

end Rerouted

/-- A frame has left its innermost region, and ran the finally body of that. -/
def beyond (frame : Frame) (outer : List TryRegion) : TryRegion -> Frame
  | .handler _ (some target) => { frame with tryRegions := outer, next := target + 1 }
  | .handler _ none => { frame with tryRegions := outer }
  | .finallyBody depth => { frame with tryRegions := outer }.truncate depth

variable {frame : Frame} {region : TryRegion} {outer : List TryRegion}

theorem rerouted_beyond (frame : Frame) (outer : List TryRegion) (region : TryRegion) :
    frame.Rerouted (frame.beyond outer region) := by
  match region with
  | .handler _ (some target) => exact ⟨target + 1, outer, frame.completions, rfl⟩
  | .handler _ none => exact ⟨frame.next, outer, frame.completions, rfl⟩
  | .finallyBody depth => exact ⟨frame.next, outer, _, rfl⟩

@[simp] theorem tryRegions_beyond
    (frame : Frame)
    (outer : List TryRegion)
    (region : TryRegion) :
    (frame.beyond outer region).tryRegions = outer := by
  match region with
  | .handler _ (some target) => rfl
  | .handler _ none => rfl
  | .finallyBody depth => rfl

theorem ordered_beyond (ordered : TryRegion.OrderedBelow frame.completions.size (region :: outer)) :
    (frame.beyond outer region).Ordered := by
  match region with
  | .handler _ (some target) => exact ordered
  | .handler _ none => exact ordered
  | .finallyBody depth =>
      exact Ordered.truncate ordered

/-- How a frame is left behind: the regions it was in are gone, the completions of the
running bodies among them are dropped, and all others are kept. -/
structure Leaves
    (frame : Frame)
    (crossed remaining : List TryRegion)
    (left : Frame) : Prop where
  rerouted : frame.Rerouted left
  regions : left.tryRegions = remaining
  shorter : left.completions.size <= frame.completions.size
  discarded : ∀ depth, .finallyBody depth ∈ crossed -> left.completions.size <= depth
  kept : ∀ index, (∀ depth, .finallyBody depth ∈ crossed -> index < depth) ->
    left.completions[index]? = frame.completions[index]?
  running : ∀ depth, .finallyBody depth ∈ remaining ->
    depth < left.completions.size ∧ left.completions[depth]? = frame.completions[depth]?

namespace Leaves

theorem nothing (ordered : frame.Ordered) :
    frame.Leaves [] frame.tryRegions frame where
  rerouted := .refl frame
  regions := rfl
  shorter := Nat.le_refl _
  discarded _ member := absurd member List.not_mem_nil
  kept _ _ := rfl
  running _ member := ⟨TryRegion.OrderedBelow.lt_of_mem ordered member, rfl⟩

theorem getElem?_truncate (frame : Frame) {depth index : Nat} (below : index < depth) :
    (frame.truncate depth).completions[index]? = frame.completions[index]? := by
  simp only [truncate, Array.take_eq_extract, Array.getElem?_extract]
  split
  · rw [Nat.zero_add]
  · next beyond => rw [Array.getElem?_eq_none (by omega)]

/-- One more region around those that a frame leaves. -/
theorem cross
    {crossed remaining : List TryRegion}
    {left : Frame}
    (ordered : TryRegion.OrderedBelow frame.completions.size (region :: outer))
    (leaves : (frame.beyond outer region).Leaves crossed remaining left) :
    frame.Leaves (region :: crossed) remaining left := by
  have rerouted : frame.Rerouted left :=
    (frame.rerouted_beyond outer region).trans leaves.rerouted
  have later : ∀ depth, .finallyBody depth ∈ crossed -> left.completions.size <= depth :=
    leaves.discarded
  match region, ordered, leaves with
  | .handler catchTarget finallyTarget, ordered, leaves =>
      have same : (frame.beyond outer (.handler catchTarget finallyTarget)).completions =
          frame.completions := by
        cases finallyTarget <;> rfl
      have shorter := leaves.shorter
      have kept := leaves.kept
      have running := leaves.running
      rw [same] at shorter kept running
      refine ⟨rerouted, leaves.regions, shorter, ?_, ?_, running⟩
      · intro depth member
        cases member with
        | tail _ member => exact later depth member
      · intro index below
        exact kept index fun depth member => below depth (.tail _ member)
  | .finallyBody depth, ordered, leaves =>
      have size : (frame.beyond outer (.finallyBody depth)).completions.size = depth :=
        size_completions_truncate _ (Nat.le_of_lt ordered.1)
      have shorter : left.completions.size <= depth := size ▸ leaves.shorter
      have same : ∀ index, index < depth ->
          (frame.beyond outer (.finallyBody depth)).completions[index]? =
            frame.completions[index]? :=
        fun index below => getElem?_truncate { frame with tryRegions := outer } below
      refine ⟨rerouted, leaves.regions, ?_, ?_, ?_, ?_⟩
      · exact Nat.le_trans shorter (Nat.le_of_lt ordered.1)
      · intro other member
        cases member with
        | head => exact shorter
        | tail _ member => exact later other member
      · intro index below
        rw [← same index (below depth (.head _))]
        exact leaves.kept index fun other member => below other (.tail _ member)
      · intro other member
        obtain ⟨within, unchanged⟩ := leaves.running other member
        exact ⟨within, unchanged.trans (same other (Nat.lt_of_lt_of_le within shorter))⟩

end Leaves

/-! ## Routing looks at the regions it is given -/

theorem routeThrowThrough_withRegions (frame : Frame) (tryRegions regions : List TryRegion) :
    { frame with tryRegions }.routeThrowThrough regions =
      frame.routeThrowThrough regions := by
  induction frame, regions using routeThrowThrough.induct with
  | case5 frame outer step => exact step
  | case6 frame depth outer step => exact step
  | _ => rfl

theorem routeReturnThrough_withRegions
    (frame : Frame)
    (tryRegions : List TryRegion)
    (value : Value)
    (regions : List TryRegion) :
    { frame with tryRegions }.routeReturnThrough value regions =
      frame.routeReturnThrough value regions := by
  induction frame, regions using routeReturnThrough.induct with
  | case3 frame catchTarget outer step => exact step
  | case4 frame depth outer step => exact step
  | _ => rfl

theorem routeJumpThrough_withRegions
    (frame : Frame)
    (tryRegions : List TryRegion)
    (target depth : Nat)
    (regions : List TryRegion) :
    { frame with tryRegions }.routeJumpThrough target depth regions =
      frame.routeJumpThrough target depth regions := by
  induction frame, depth, regions using routeJumpThrough.induct with
  | case4 frame depth catchTarget outer step => exact step
  | case5 frame depth height outer step => exact step
  | _ => rfl

end Frame

/-! ## Machines whose innermost frame is behind a region -/

/-- An exception that no stack is attached to any more. -/
def Exception.HasStack : Exception -> Prop
  | .value _ => True
  | .fault raised => raised.stack ≠ []

/-- The exception of a throw has its stack. -/
def Completion.HasStack : Completion -> Prop
  | .throw exception => exception.HasStack
  | _ => True

theorem Completion.HasStack.past {completion : Completion} (stacked : completion.HasStack) :
    completion.past.HasStack := by
  cases completion <;> exact stacked

/-- What the catch body of a region leaves of it: its finally body. -/
def TryRegion.rearmed : TryRegion -> List TryRegion
  | .handler (some _) (some finallyTarget) => [.handler none (some finallyTarget)]
  | _ => []

namespace Machine

theorem attachStack_of_hasStack
    (machine : Machine σ)
    {exception : Exception}
    (stacked : exception.HasStack) :
    machine.attachStack exception = exception := by
  cases exception with
  | value value => rfl
  | fault fault =>
      unfold attachStack
      simp [List.isEmpty_iff, show fault.stack ≠ [] from stacked]

theorem hasStack_attachStack
    {machine : Machine σ}
    (running : 0 < machine.frames.size)
    (exception : Exception) :
    (machine.attachStack exception).HasStack := by
  cases exception with
  | value value => trivial
  | fault fault =>
      unfold attachStack
      dsimp only
      split
      · show machine.captureStack ≠ []
        intro empty
        have none : machine.captureStack.length = 0 := by rw [empty]; rfl
        simp [captureStack] at none
        simp [none] at running
      · next present => exact fun empty => present (by rw [empty]; rfl)

variable {machine : Machine σ} {frame moved : Frame}

theorem exceptionValue_modifyTop
    (machine : Machine σ)
    (change : Frame -> Frame)
    (exception : Exception) :
    (machine.modifyTop change).exceptionValue exception =
      ((machine.exceptionValue exception).1,
        (machine.exceptionValue exception).2.modifyTop change) := by
  cases exception with
  | value value => rfl
  | fault fault =>
      simp only [exceptionValue, errorObject]
      split <;> rfl

theorem top?_exceptionValue (machine : Machine σ) (exception : Exception) :
    (machine.exceptionValue exception).2.top? = machine.top? := by
  have quiet : Exec.Quietly Origins.none machine (machine.exceptionValue exception).2 :=
    .ofPasses (Discipline.passes_exceptionValue machine exception)
  exact top?_of_sameCalls quiet.same

theorem popFrame_modifyTop
    (standing : machine.top? = some frame)
    (rerouted : frame.Rerouted moved) :
    (machine.modifyTop fun _ => moved).popFrame = machine.popFrame := by
  obtain ⟨below, stack⟩ := stack_of_top? standing
  have changed := stack_modifyTop (fun _ => moved) stack
  have found : (machine.modifyTop fun _ => moved).frames.back? = some moved :=
    top?_of_stack changed
  have old : machine.frames.back? = some frame := standing
  have left : (machine.modifyTop fun _ => moved).frames.pop = machine.frames.pop := by
    apply Array.toList_inj.1
    rw [Array.toList_pop, Array.toList_pop]
    show (machine.modifyTop fun _ => moved).stack.dropLast = machine.stack.dropLast
    rw [changed, stack, List.dropLast_concat, List.dropLast_concat]
  obtain ⟨next, regions, completions, rfl⟩ := rerouted
  unfold popFrame
  rw [found, old]
  dsimp only
  rw [left]
  rfl

/-! ## Completions of the innermost frame -/

/-- Carry out a completion of the innermost frame. -/
def complete (machine : Machine σ) (base : Nat) :
    Completion -> Except Exception Flow × Machine σ
  | .normal => (.ok .continue, machine)
  | .return value => machine.returnFrom base value machine.frames.size
  | .throw exception => (.error exception, machine)
  | .jump target depth =>
      (.ok .continue, machine.modifyTop fun frame => frame.leave target depth)

/-- Hand the result of a frame that was popped to where it returns. -/
def handOn (machine : Machine σ) (base : Nat) (frame : Frame) (value : Value) :
    Except Exception Flow × Machine σ :=
  match machine.constructResult frame value with
  | .error exception => (.error exception, machine)
  | .ok value =>
      if machine.frames.size <= base then (.ok (.exit (.returned value)), machine)
      else
        match frame.returnTo with
        | .boundary => (.ok (.exit (.returned value)), machine)
        | .caller destination => (.ok .continue, machine.setRegister destination value)
        | .tailReturn => machine.returnFrom base value machine.frames.size

/-- How a run goes on after an instruction. -/
def settle (base : Nat) : Except Exception Flow × Machine σ ->
    EStateM.Result (Stop σ) (Machine σ) (Option FrameExit)
  | (.ok .continue, machine) => .ok none machine
  | (.ok (.exit exit), machine) => .ok (some exit) machine
  | (.error exception, machine) =>
      let exception := machine.attachStack exception
      match machine.unwind exception (machine.frames.size - base) with
      | (true, machine) => .ok none machine
      | (false, machine) => .error (.thrown exception) machine

theorem size_modifyTop (machine : Machine σ) (change : Frame -> Frame) :
    (machine.modifyTop change).frames.size = machine.frames.size := by
  simp [modifyTop]

theorem top?_modifyTop (standing : machine.top? = some frame) (change : Frame -> Frame) :
    (machine.modifyTop change).top? = some (change frame) := by
  obtain ⟨below, stack⟩ := stack_of_top? standing
  exact top?_of_stack (stack_modifyTop change stack)

section

variable (standing : machine.top? = some frame)
include standing

/-- A second choice of the innermost frame replaces the first. -/
theorem modifyTop_const
    (first : Frame)
    (second : Frame -> Frame) :
    (machine.modifyTop fun _ => first).modifyTop second =
      machine.modifyTop fun _ => second first :=
  modifyTop_modifyTop (fun _ => first) second standing

/-- A return that no finally body is on the way of pops its frame and hands on its
result. -/
theorem returnFrom_of_routed
    (base count : Nat)
    (value : Value) :
    machine.returnFrom base value (count + 1) =
      match frame.routeReturn value with
      | (true, routed) => (.ok .continue, machine.modifyTop fun _ => routed)
      | (false, _) =>
          match machine.popFrame.constructResult frame value with
          | .error exception => (.error exception, machine.popFrame)
          | .ok value =>
              if machine.popFrame.frames.size <= base then
                (.ok (.exit (.returned value)), machine.popFrame)
              else
                match frame.returnTo with
                | .boundary => (.ok (.exit (.returned value)), machine.popFrame)
                | .caller destination =>
                    (.ok .continue, machine.popFrame.setRegister destination value)
                | .tailReturn => machine.popFrame.returnFrom base value count := by
  have found : machine.frames.back? = some frame := standing
  rewrite [returnFrom, found]
  rfl

/-- A return only depends on how it is routed through the innermost frame. -/
theorem returnFrom_modifyTop
    (rerouted : frame.Rerouted moved)
    {value : Value}
    (routes : moved.routeReturn value = frame.routeReturn value)
    (base count : Nat) :
    (machine.modifyTop fun _ => moved).returnFrom base value (count + 1) =
      machine.returnFrom base value (count + 1) := by
  rw [returnFrom_of_routed (top?_modifyTop standing fun _ => moved),
    returnFrom_of_routed standing, routes, popFrame_modifyTop standing rerouted]
  obtain ⟨next, regions, completions, rfl⟩ := rerouted
  split
  · next routed _ => rw [modifyTop_const standing]
  · rfl

/-- A throw only depends on how it is routed through the innermost frame. -/
theorem unwind_modifyTop
    (rerouted : frame.Rerouted moved)
    (routes : moved.routeThrow = frame.routeThrow)
    (exception : Exception)
    (count : Nat) :
    (machine.modifyTop fun _ => moved).unwind exception (count + 1) =
      machine.unwind exception (count + 1) := by
  have found : machine.frames.back? = some frame := standing
  have changed : (machine.modifyTop fun _ => moved).frames.back? = some moved :=
    top?_modifyTop standing fun _ => moved
  rw [unwind, unwind, found, changed]
  dsimp only
  rw [routes, popFrame_modifyTop standing rerouted, exceptionValue_modifyTop]
  split
  · next target routed _ =>
      dsimp only
      have same : (machine.exceptionValue exception).2.top? = some frame := by
        rwa [top?_exceptionValue]
      rw [modifyTop_const same]
  · rw [modifyTop_const standing]
  · rfl

/-- A throw that leaves the innermost frame goes on from the frame below. -/
theorem unwind_of_uncaught
    (uncaught : frame.routeThrow.1 = none)
    (exception : Exception)
    (count : Nat) :
    machine.unwind exception (count + 1) = machine.popFrame.unwind exception count := by
  have found : machine.frames.back? = some frame := standing
  rw [unwind, found]
  dsimp only
  split
  · next routed => rw [routed] at uncaught; cases uncaught
  · next routed => rw [routed] at uncaught; cases uncaught
  · rfl

end

variable {region : TryRegion} {outer : List TryRegion} {completion : Completion} {base : Nat}

section Crossed

variable
    (standing : machine.top? = some frame)
    (regions : frame.tryRegions = region :: outer)
    (above : base < machine.frames.size)
    (stacked : completion.HasStack)
    (crosses : completion.crosses region)
include standing regions above stacked crosses

/-- A completion goes past a region that has no finally body to run. -/
theorem settle_complete_of_skipped
    (bodiless : region.finallyTarget? = none) :
    settle base (machine.complete base completion) =
      settle base ((machine.modifyTop fun _ => frame.beyond outer region).complete base
        completion.past) := by
  have rerouted := frame.rerouted_beyond outer region
  cases completion with
  | normal => cases crosses
  | «return» value =>
      have routes : (frame.beyond outer region).routeReturn value =
          frame.routeReturn value := by
        unfold Frame.routeReturn
        rw [Frame.tryRegions_beyond, regions]
        match region, bodiless with
        | .handler _ none, _ => exact frame.routeReturnThrough_withRegions outer value outer
        | .finallyBody depth, _ =>
            exact (frame.truncate depth).routeReturnThrough_withRegions outer value outer
      obtain ⟨count, size⟩ := Nat.exists_eq_add_one.2 (Nat.zero_lt_of_lt above)
      show settle base (machine.returnFrom base value machine.frames.size) =
        settle base (Machine.returnFrom _ base value _)
      rw [size_modifyTop, size, returnFrom_modifyTop standing rerouted routes]
  | throw exception =>
      have routes : (frame.beyond outer region).routeThrow = frame.routeThrow := by
        unfold Frame.routeThrow
        rw [Frame.tryRegions_beyond, regions]
        match region, bodiless, crosses with
        | .handler none none, _, _ => exact frame.routeThrowThrough_withRegions outer outer
        | .finallyBody depth, _, _ =>
            exact (frame.truncate depth).routeThrowThrough_withRegions outer outer
      obtain ⟨count, size⟩ := Nat.exists_eq_add_one.2 (Nat.sub_pos_of_lt above)
      show settle base (.error exception, machine) = settle base (.error exception, _)
      unfold settle
      dsimp only
      rw [attachStack_of_hasStack _ stacked, attachStack_of_hasStack _ stacked,
        size_modifyTop, size, unwind_modifyTop standing rerouted routes]
  | jump target depth =>
      have routes : (frame.beyond outer region).routeJumpThrough target (depth - 1) outer =
          frame.routeJumpThrough target depth (region :: outer) := by
        match depth, region, bodiless, crosses with
        | depth + 1, .handler _ none, _, _ =>
            exact frame.routeJumpThrough_withRegions outer target depth outer
        | depth + 1, .finallyBody height, _, _ =>
            exact (frame.truncate height).routeJumpThrough_withRegions outer target depth outer
      have left : frame.leave target depth =
          (frame.beyond outer region).leave target (depth - 1) := by
        unfold Frame.leave
        rw [Frame.tryRegions_beyond, regions, routes]
      show settle base (.ok .continue, machine.modifyTop fun top => top.leave target depth) =
        settle base (.ok .continue, (machine.modifyTop fun _ => frame.beyond outer region).modifyTop
          fun top => top.leave target (depth - 1))
      have moved : machine.modifyTop (fun top => top.leave target depth) =
          machine.modifyTop fun _ => (frame.beyond outer region).leave target (depth - 1) :=
        modifyTop_congr standing left
      rw [modifyTop_const standing, moved]

/-- A completion enters the finally body of a region that it leaves. -/
theorem settle_complete_of_entered
    {target : Nat}
    (body : region.finallyTarget? = some target) :
    settle base (machine.complete base completion) =
      .ok none (machine.modifyTop fun _ =>
        { frame with tryRegions := outer }.enterFinally target completion.past) := by
  cases completion with
  | normal => cases crosses
  | «return» value =>
      have routed : frame.routeReturn value = (true,
          { frame with tryRegions := outer }.enterFinally target (.return value)) := by
        unfold Frame.routeReturn
        rw [regions]
        match region, body with
        | .handler _ (some _), rfl => rfl
      obtain ⟨count, size⟩ := Nat.exists_eq_add_one.2 (Nat.zero_lt_of_lt above)
      show settle base (machine.returnFrom base value machine.frames.size) = _
      rw [size, returnFrom_of_routed standing, routed]
      rfl
  | throw exception =>
      have routed : frame.routeThrow =
          (some (.finallyBody target), { frame with tryRegions := outer }) := by
        unfold Frame.routeThrow
        rw [regions]
        match region, body, crosses with
        | .handler none (some _), rfl, _ => rfl
      obtain ⟨count, size⟩ := Nat.exists_eq_add_one.2 (Nat.sub_pos_of_lt above)
      have found : machine.frames.back? = some frame := standing
      show settle base (.error exception, machine) = _
      unfold settle
      dsimp only
      rw [attachStack_of_hasStack _ stacked, size, unwind, found]
      dsimp only
      rw [routed]
      rfl
  | jump goal depth =>
      have left : frame.leave goal depth =
          { frame with tryRegions := outer }.enterFinally target (.jump goal (depth - 1)) := by
        unfold Frame.leave
        rw [regions]
        match depth, region, body, crosses with
        | depth + 1, .handler _ (some _), rfl, _ => rfl
      have moved : machine.modifyTop (fun top => top.leave goal depth) =
          machine.modifyTop fun _ =>
            { frame with tryRegions := outer }.enterFinally target (.jump goal (depth - 1)) :=
        modifyTop_congr standing left
      show settle base (.ok .continue, machine.modifyTop fun top => top.leave goal depth) = _
      rw [moved]
      rfl

end Crossed

/-- Ending a finally body carries out the completion that entered it. -/
theorem endFinally_of_entered
    (standing : machine.top? = some moved)
    {depth : Nat}
    (regions : moved.tryRegions = .finallyBody depth :: outer)
    (pending : moved.completions[depth]? = some completion) :
    machine.endFinally base =
      (machine.modifyTop fun _ => { moved with tryRegions := outer }.truncate depth).complete
        base completion := by
  have found : machine.frames.back? = some moved := standing
  have ended : (machine.modifyTop fun frame =>
      { frame with tryRegions := outer }.truncate depth) =
        machine.modifyTop fun _ => { moved with tryRegions := outer }.truncate depth :=
    modifyTop_congr standing rfl
  unfold endFinally
  rw [found]
  dsimp only
  rw [regions]
  dsimp only
  rw [pending, ended]
  cases completion <;> rfl

end Machine

end ScriptVM

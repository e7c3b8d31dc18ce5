import ScriptVM.Proofs.Lifetimes

/-!
# Beginnings and ends of lifetimes

Frames that begin and end, registers that are closed, and registers that are captured. The
machine goes on realizing the lifetimes, and captured variables keep their names.
-/

namespace ScriptVM

namespace Realizes

variable {cells : Cells} {values : Lifetime -> Value} {begun : Nat} {names : Naming}
  {parts : List Part}

/-! ## Frames that begin and end -/

/-- A fresh frame begins an activation. -/
theorem enter
    (realizes : Realizes cells values begun names parts)
    {size : Nat}
    {frame : Frame}
    {captured : List Lifetime}
    (window : frame.window = (cells.openWindow size).1)
    (unattached : frame.attached = [])
    (named : frame.upvalues.toList.map names = captured.map some) :
    Realizes (cells.openWindow size).2
      (fun lifetime => if lifetime.activation = begun then .undefined else values lifetime)
      (begun + 1) names ((frame, { number := begun, size, captured }) :: parts) where
  plays part member := by
    rcases List.mem_cons.1 member with rfl | old
    · refine
        { known := ?_, size := ?_, registers := fun register _ => ?_, captured := named
          within := fun entry present => ?_, attached := fun entry present => ?_
          named := fun entry present => ?_ }
      · rw [window]
        unfold Cells.openWindow
        dsimp only
        rw [Array.size_push]
        exact Nat.lt_succ_self _
      · rw [window]
        exact cells.size_window_openWindow size
      · rw [window, Cells.register_openWindow]
        exact (if_pos rfl).symm
      all_goals
        rw [unattached] at present
        cases present
    · have plays := realizes.plays part old
      refine
        { known := ?_, size := ?_, registers := fun register below => ?_
          captured := plays.captured, within := plays.within
          attached := plays.attached, named := plays.named }
      · unfold Cells.openWindow
        dsimp only
        rw [Array.size_push]
        exact Nat.lt_succ_of_lt plays.known
      · rw [Cells.window_openWindow_of_lt plays.known, plays.size]
      · rw [Cells.register_openWindow_of_lt plays.known, plays.registers register below]
        exact (if_neg (Nat.ne_of_lt (realizes.numbered part old))).symm
  numbered part member := by
    rcases List.mem_cons.1 member with rfl | old
    · exact Nat.lt_succ_self _
    · exact Nat.lt_succ_of_lt (realizes.numbered part old)
  apart := by
    refine List.pairwise_cons.2 ⟨fun part member => ⟨fun same => ?_, ?_⟩, realizes.apart⟩
    · have known := (realizes.plays part member).known
      rw [← same, window] at known
      exact Nat.lt_irrefl _ known
    · exact (Nat.ne_of_lt (realizes.numbered part member)).symm
  injective := realizes.injective
  started found := Nat.lt_succ_of_lt (realizes.started found)
  detached {id lifetime} found loose := by
    have free : ¬ Attached parts id := fun ⟨part, member, held⟩ =>
      loose ⟨part, List.mem_cons_of_mem _ member, held⟩
    obtain ⟨kept, past⟩ := realizes.detached found free
    have earlier : lifetime.activation ≠ begun := Nat.ne_of_lt (realizes.started found)
    refine ⟨?_, fun part member => ?_⟩
    · rw [if_neg earlier]
      exact kept
    · rcases List.mem_cons.1 member with rfl | old
      · exact fun same => absurd same.symm earlier
      · exact past part old

variable {frame : Frame} {activation : Activation} {others : List Part} {lifetime : Lifetime}
variable {register : Register}

section

variable (realizes : Realizes cells values begun names ((frame, activation) :: others))
include realizes

theorem other_not_attached
    {part : Part}
    (member : part ∈ others)
    {entry : Register × UpvalueId}
    (attached : entry ∈ part.1.attached)
    {own : Register × UpvalueId}
    (held : own ∈ frame.attached) :
    own.2 ≠ entry.2 := by
  intro same
  have apart := (List.pairwise_cons.1 realizes.apart).1 part member
  have first := (realizes.plays _ (.head _)).named own held
  have second := (realizes.plays part (.tail _ member)).named entry attached
  rw [same, second] at first
  exact apart.2 (congrArg Lifetime.activation (Option.some.inj first)).symm

/-- Detaching variables of the first part leaves the other parts as they are. -/
theorem plays_detachFrom
    (first : Register)
    {renewed : Lifetime -> Value}
    (same : ∀ lifetime, lifetime.activation ≠ activation.number ->
      renewed lifetime = values lifetime)
    {part : Part}
    (member : part ∈ others) :
    part.1.Plays (frame.detachFrom cells first).2 renewed names part.2 := by
  have plays := realizes.plays part (.tail _ member)
  have apart := (List.pairwise_cons.1 realizes.apart).1 part member
  refine
    { known := ?_, size := ?_, registers := fun register below => ?_
      captured := plays.captured, within := plays.within
      attached := fun entry attached => ?_, named := plays.named }
  · rw [(frame.recaptures_detachFrom _ _).windows]
    exact plays.known
  · unfold Cells.window
    rw [(frame.recaptures_detachFrom _ _).windows]
    exact plays.size
  · rw [frame.register_detachFrom, plays.registers register below]
    exact (same _ apart.2.symm).symm
  · rw [frame.upvalues_detachFrom, if_neg]
    · exact plays.attached entry attached
    · rintro ⟨own, held, _, equal⟩
      exact realizes.other_not_attached member attached held equal

/-- A captured variable after the first part detached some of its own: those keep their
values. -/
theorem kept_detachFrom
    {first : Register}
    {id : UpvalueId}
    (named : names id = some lifetime)
    (loose : ¬ Attached ((frame, activation) :: others) id ∨
      ∃ entry ∈ frame.attached, first <= entry.1 ∧ entry.2 = id) :
    (frame.detachFrom cells first).2.upvalues[id.index]? =
      some (.detached (values lifetime)) := by
  rw [frame.upvalues_detachFrom, realizes.upvalue named]
  split
  · next leaves =>
      obtain ⟨entry, held, _, rfl⟩ := leaves
      rw [(realizes.plays _ (.head _)).attached entry held]
      rfl
  · next stays => exact (realizes.detached named (loose.resolve_right stays)).1

/-- Closing registers lets the captured variables go on without them. -/
theorem close
    (first : Register) :
    Realizes (frame.detachFrom cells first).2 (Scene.renew values activation first) begun names
      (((frame.detachFrom cells first).1, activation.close first) :: others) where
  plays part member := by
    rcases List.mem_cons.1 member with rfl | old
    · have plays := realizes.plays _ (.head _)
      have stays : ∀ entry ∈ (frame.detachFrom cells first).1.attached,
          entry ∈ frame.attached ∧ entry.1 < first := fun entry present =>
        (List.mem_filter.1 present).imp_right of_decide_eq_true
      refine
        { known := ?_, size := ?_, registers := fun register below => ?_
          captured := plays.captured
          within := fun entry present => plays.within entry (stays entry present).1
          attached := fun entry present => ?_, named := fun entry present => ?_ }
      · rw [(frame.recaptures_detachFrom _ _).windows]
        exact plays.known
      · unfold Cells.window
        rw [(frame.recaptures_detachFrom _ _).windows]
        exact plays.size
      · rw [frame.register_detachFrom, Scene.renew_close]
        exact plays.registers register below
      · obtain ⟨held, below⟩ := stays entry present
        rw [frame.upvalues_detachFrom, if_neg]
        · exact plays.attached entry held
        · rintro ⟨other, there, above, same⟩
          have named := plays.named other there
          rw [same, plays.named entry held] at named
          rw [Activation.lifetime_inj.1 (Option.some.inj named)] at below
          exact Nat.not_le_of_lt below above
      · obtain ⟨held, below⟩ := stays entry present
        rw [Activation.lifetime_close_of_lt below]
        exact plays.named entry held
    · exact realizes.plays_detachFrom first
        (fun lifetime apart => Scene.renew_of_number_ne apart first) old
  numbered part member := by
    rcases List.mem_cons.1 member with rfl | old
    · exact realizes.numbered (frame, activation) (.head _)
    · exact realizes.numbered part (.tail _ old)
  apart := List.pairwise_cons.2 ((List.pairwise_cons.1 realizes.apart).imp_left id)
  injective := realizes.injective
  started := realizes.started
  detached {id lifetime} named loose := by
    have leaves : ¬ Attached ((frame, activation) :: others) id ∨
        ∃ entry ∈ frame.attached, first <= entry.1 ∧ entry.2 = id := by
      refine or_iff_not_imp_left.2 fun held => ?_
      obtain ⟨part, member, entry, attached, same⟩ := not_not.1 held
      rcases List.mem_cons.1 member with rfl | old
      · refine ⟨entry, attached, Nat.le_of_not_lt fun below => loose ?_, same⟩
        exact ⟨_, .head _, entry, List.mem_filter.2 ⟨attached, decide_eq_true below⟩, same⟩
      · exact absurd ⟨part, .tail _ old, entry, attached, same⟩ loose
    have past : ∀ part ∈ (((frame.detachFrom cells first).1, activation.close first) :: others),
        part.2.Past lifetime := by
      intro part member
      rcases leaves with free | ⟨entry, held, above, rfl⟩
      · have gone := (realizes.detached named free).2
        rcases List.mem_cons.1 member with rfl | old
        · exact fun same => Nat.lt_of_lt_of_le (gone _ (.head _) same)
            (activation.closings_le_close first _)
        · exact gone part (.tail _ old)
      · obtain rfl := realizes.lifetime_of_attached (.head _) held named
        rcases List.mem_cons.1 member with rfl | old
        · exact Activation.past_close_lifetime above
        · exact fun same =>
            absurd same.symm ((List.pairwise_cons.1 realizes.apart).1 part old).2
    refine ⟨?_, past⟩
    rw [Scene.renew_of_past (past _ (.head _))]
    exact realizes.kept_detachFrom named leaves

end

/-- Popping a frame ends its activation. -/
theorem pop (realizes : Realizes cells values begun names ((frame, activation) :: others)) :
    Realizes (frame.detachFrom cells 0).2 values begun names others where
  plays part member := realizes.plays_detachFrom 0 (fun _ _ => rfl) member
  numbered part member := realizes.numbered part (.tail _ member)
  apart := (List.pairwise_cons.1 realizes.apart).2
  injective := realizes.injective
  started := realizes.started
  detached {id lifetime} named loose := by
    have leaves : ¬ Attached ((frame, activation) :: others) id ∨
        ∃ entry ∈ frame.attached, 0 <= entry.1 ∧ entry.2 = id := by
      refine or_iff_not_imp_left.2 fun held => ?_
      obtain ⟨part, member, entry, attached, same⟩ := not_not.1 held
      rcases List.mem_cons.1 member with rfl | old
      · exact ⟨entry, attached, Nat.zero_le _, same⟩
      · exact absurd ⟨part, old, entry, attached, same⟩ loose
    refine ⟨realizes.kept_detachFrom named leaves, fun part member => ?_⟩
    rcases leaves with free | ⟨entry, held, _, rfl⟩
    · exact (realizes.detached named free).2 part (.tail _ member)
    · obtain rfl := realizes.lifetime_of_attached (.head _) held named
      exact fun same =>
        absurd same.symm ((List.pairwise_cons.1 realizes.apart).1 part member).2

/-! ## Captures -/

/-- The naming calls one more captured variable by a lifetime. -/
def named (names : Naming) (fresh : UpvalueId) (lifetime : Lifetime) : Naming :=
  fun id => if id = fresh then some lifetime else names id

section

variable (realizes : Realizes cells values begun names ((frame, activation) :: others))
include realizes

/-- A register that is captured for the first time in its lifetime gets a variable of its
own. -/
theorem attach
    (within : register < activation.size)
    (unattached : ∀ entry ∈ frame.attached, entry.1 ≠ register) :
    let fresh : UpvalueId := ⟨cells.upvalues.size⟩
    let later := named names fresh (activation.lifetime register)
    later.Extends names ∧ later fresh = some (activation.lifetime register) ∧
      Realizes (cells.addUpvalue (.attached frame.window register)).2 values begun later
        (({ frame with attached := frame.attached ++ [(register, fresh)] }, activation) ::
          others) := by
  intro fresh later
  have plays := realizes.plays _ (.head _)
  have own : later fresh = some (activation.lifetime register) := if_pos rfl
  have grown : later.Extends names := by
    intro id lifetime called
    refine (if_neg ?_).trans called
    rintro rfl
    exact Nat.lt_irrefl _ (realizes.lt_of_named called)
  have cases : ∀ {id lifetime}, later id = some lifetime ->
      id = fresh ∧ lifetime = activation.lifetime register ∨ names id = some lifetime := by
    intro id lifetime called
    by_cases new : id = fresh
    · subst new
      exact Or.inl ⟨rfl, Option.some.inj (called.symm.trans own)⟩
    · exact Or.inr ((if_neg new).symm.trans called)
  -- Otherwise the register would be attached, or its lifetime would have passed.
  have unnamed : ∀ id, names id ≠ some (activation.lifetime register) := by
    intro id called
    by_cases held : Attached ((frame, activation) :: others) id
    · obtain ⟨part, member, entry, attached, rfl⟩ := held
      have same := realizes.lifetime_of_attached member attached called
      rcases List.mem_cons.1 member with rfl | old
      · exact unattached entry attached (Activation.lifetime_inj.1 same).symm
      · exact ((List.pairwise_cons.1 realizes.apart).1 part old).2
          (congrArg Lifetime.activation same)
    · exact ((realizes.detached called held).2 _ (.head _)).ne register rfl
  refine ⟨grown, own, ?_⟩
  refine
    { plays := fun part member => ?_, numbered := fun part member => ?_
      apart := List.pairwise_cons.2 ((List.pairwise_cons.1 realizes.apart).imp_left id)
      injective := fun {id other lifetime} called same => ?_
      started := fun {id lifetime} called => ?_
      detached := fun {id lifetime} called loose => ?_ }
  · rcases List.mem_cons.1 member with rfl | old
    · exact (plays.grow grown _).attach within Array.getElem?_push_size own
    · exact (realizes.plays part (.tail _ old)).grow grown _
  · rcases List.mem_cons.1 member with rfl | old
    · exact realizes.numbered (frame, activation) (.head _)
    · exact realizes.numbered part (.tail _ old)
  · rcases cases called with ⟨rfl, rfl⟩ | old
    · exact ((cases same).resolve_right (unnamed other)).1.symm
    · rcases cases same with ⟨rfl, rfl⟩ | earlier
      · exact absurd old (unnamed id)
      · exact realizes.injective old earlier
  · rcases cases called with ⟨rfl, rfl⟩ | old
    · exact realizes.numbered (frame, activation) (.head _)
    · exact realizes.started old
  · rcases cases called with ⟨rfl, rfl⟩ | old
    · exact absurd ⟨_, .head _, (register, fresh), List.mem_append_right _ (.head _), rfl⟩ loose
    · have free : ¬ Attached ((frame, activation) :: others) id := by
        rintro ⟨part, member, entry, attached, same⟩
        refine loose ?_
        rcases List.mem_cons.1 member with rfl | there
        · exact ⟨_, .head _, entry, List.mem_append_left _ attached, same⟩
        · exact ⟨part, .tail _ there, entry, attached, same⟩
      obtain ⟨holds, past⟩ := realizes.detached old free
      refine ⟨Cells.getElem?_addUpvalue holds _, fun part member => ?_⟩
      rcases List.mem_cons.1 member with rfl | there
      · exact past (frame, activation) (.head _)
      · exact past part (.tail _ there)

/-- Capturing a register gives a captured variable that is named by what the register stands
for, and every captured variable keeps its name. -/
theorem capture
    (within : register < activation.size) :
    ∃ later : Naming, later.Extends names ∧
      later (frame.capture cells register).1 = some (activation.lifetime register) ∧
      Realizes (frame.capture cells register).2.2 values begun later
        (((frame.capture cells register).2.1, activation) :: others) := by
  unfold Frame.capture
  split
  · next id found =>
      obtain ⟨front, back, split, _⟩ := List.lookup_eq_some_iff.1 found
      have attached : (register, id) ∈ frame.attached := by
        rw [split]
        exact List.mem_append_right _ (.head _)
      exact ⟨names, fun called => called, (realizes.plays _ (.head _)).named _ attached, realizes⟩
  · next missing =>
      refine ⟨_, realizes.attach within fun entry member same => ?_⟩
      have differs := List.lookup_eq_none_iff.1 missing entry member
      rw [same, bne_self_eq_false] at differs
      cases differs

end

/-- One more capture is resolved before others. -/
theorem map_cons_resolved
    {later : Naming}
    {id : UpvalueId}
    (own : later id = some lifetime)
    {ids : Option (List UpvalueId)}
    {lifetimes : Option (List Lifetime)}
    (resolved : ids.map (List.map later) = lifetimes.map (List.map some)) :
    (ids.map (id :: ·)).map (List.map later) =
      (lifetimes.map (lifetime :: ·)).map (List.map some) := by
  cases ids with
  | none =>
      cases lifetimes with
      | none => rfl
      | some lifetimes => cases resolved
  | some ids =>
      cases lifetimes with
      | none => cases resolved
      | some lifetimes =>
          have tails : ids.map later = lifetimes.map some := Option.some.inj resolved
          simp only [Option.map_some, List.map_cons, own, tails]

/-- The captures of a nested function give captured variables that are named by what the
activation captures. They cannot be resolved exactly if the activation lacks one. -/
theorem resolveCaptures
    (captures : List Capture)
    (realizes : Realizes cells values begun names ((frame, activation) :: others))
    (fits : ∀ capture ∈ captures, capture.Fits activation.size) :
    ∃ later : Naming, later.Extends names ∧
      (Machine.resolveCaptures frame cells captures).1.map (List.map later) =
        (captures.mapM activation.capture?).map (List.map some) ∧
      Realizes (Machine.resolveCaptures frame cells captures).2.2 values begun later
        (((Machine.resolveCaptures frame cells captures).2.1, activation) :: others) := by
  induction captures generalizing frame cells names with
  | nil => exact ⟨names, fun called => called, rfl, realizes⟩
  | cons capture rest step =>
      have others_fit : ∀ capture ∈ rest, capture.Fits activation.size :=
        fun capture member => fits capture (.tail _ member)
      have mapM_cons : (capture :: rest).mapM activation.capture? =
          (activation.capture? capture).bind fun lifetime =>
            (rest.mapM activation.capture?).map (lifetime :: ·) := by
        rw [List.mapM_cons]
        cases activation.capture? capture with
        | none => rfl
        | some lifetime => cases rest.mapM activation.capture? <;> rfl
      rw [mapM_cons]
      cases capture with
      | register register =>
          obtain ⟨middle, first, own, between⟩ := realizes.capture (fits _ (.head _))
          obtain ⟨later, second, resolved, after⟩ := step between others_fit
          exact ⟨later, fun called => second (first called),
            map_cons_resolved (second own) resolved, after⟩
      | upvalue index =>
          have listed := congrArg (·[index]?) (realizes.plays _ (.head _)).captured
          dsimp only at listed
          rw [List.getElem?_map, List.getElem?_map, Array.getElem?_toList] at listed
          unfold Machine.resolveCaptures
          dsimp only [Activation.capture?]
          cases found : frame.upvalues[index]? with
          | none =>
              rw [found] at listed
              rw [Option.map_eq_none_iff.1 listed.symm]
              exact ⟨names, fun called => called, rfl, realizes⟩
          | some id =>
              rw [found] at listed
              obtain ⟨lifetime, present, same⟩ := Option.map_eq_some_iff.1 listed.symm
              rw [present]
              obtain ⟨later, grown, resolved, after⟩ := step realizes others_fit
              exact ⟨later, grown, map_cons_resolved (grown same.symm) resolved, after⟩

end Realizes
end ScriptVM

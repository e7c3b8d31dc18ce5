import ScriptVM.Proofs.PromiseEvolutions
import ScriptVM.Proofs.Sessions

/-!
# Latches

The functions that resolve a promise only ever use latches that have been made. So the latch of
a new pair of functions belongs to no other function.
-/

namespace ScriptVM

variable {σ : Type} {collects : Bool}

namespace Machine

/-- The latches of all functions have been made. -/
def Latched (machine : Machine σ) : Prop :=
  ∀ id callee promise latch reject, machine.kind? id = some (.native callee) ->
    callee.behavior = .resolving promise latch reject ->
    latch.index < machine.cells.latches.size

variable {before after : Machine σ}

/-- Latches stay made if every function is an old one or uses a latch that has been made. -/
theorem Latched.change
    (latched : before.Latched)
    (size : before.cells.latches.size ≤ after.cells.latches.size)
    (natives : ∀ id callee promise latch reject, after.kind? id = some (.native callee) ->
      callee.behavior = .resolving promise latch reject ->
      before.kind? id = some (.native callee) ∨
        latch.index < after.cells.latches.size) :
    after.Latched := fun id callee promise latch reject present behaves =>
  (natives id callee promise latch reject present behaves).elim
    (fun old => Nat.lt_of_lt_of_le (latched id callee promise latch reject old behaves) size)
    fun made => made

theorem Latched.adds
    {id : ObjectId}
    {kind : ObjectKind}
    (latched : before.Latched)
    (adds : before.Adds after id kind)
    (made : ∀ callee promise latch reject, kind = .native callee ->
      callee.behavior = .resolving promise latch reject ->
      latch.index < before.cells.latches.size) :
    after.Latched := by
  refine latched.change (Nat.le_of_eq (by rw [adds.cells])) fun other callee promise latch reject present
    behaves => ?_
  rw [adds.kind?] at present
  split at present
  · rw [adds.cells]
    exact .inr (made callee promise latch reject (Option.some.inj present) behaves)
  · exact .inl present

theorem Latched.rewrites
    {promise : ObjectId}
    {record : PromiseRecord Value Reaction}
    {jobs : List (Job σ)}
    (latched : before.Latched)
    (rewrites : before.Rewrites after promise record jobs) :
    after.Latched := by
  refine latched.change (Nat.le_of_eq (by rw [rewrites.cells])) fun id callee _ _ _ present _ => ?_
  rw [rewrites.kind?] at present
  split at present
  · cases present
  · exact .inl present

theorem Latched.aside (latched : before.Latched) (aside : before.Aside after) :
    after.Latched := by
  refine latched.change (Nat.le_of_eq (by rw [aside.shared.latches]))
    fun id callee promise latch reject present behaves => .inl ?_
  refine (aside.kinds id _ ?_).1 present
  show callee.behavior.settles? ≠ none
  rw [behaves]
  exact nofun

end Machine

/-- All functions use latches that have been made. -/
def latchesMade (σ : Type) : Evolution σ where
  holds machine := machine.heap.Tidy ∧ machine.Latched
  leads _ _ := True
  refl _ _ := trivial
  trans _ _ := trivial

namespace latchesMade

variable {machine before after : Machine σ}

theorem passes_adds
    {id : ObjectId}
    {kind : ObjectKind}
    (adds : before.heap.Tidy -> before.Adds after id kind)
    (made : ∀ callee promise latch reject, kind = .native callee ->
      callee.behavior = .resolving promise latch reject ->
      latch.index < before.cells.latches.size) :
    (latchesMade σ).Passes before after :=
  fun ⟨tidy, latched⟩ => ⟨⟨(adds tidy).tidy, latched.adds (adds tidy) made⟩, trivial⟩

/-- Beside the heap, latches are at most added or set. -/
theorem passes_beside
    (heap : after.heap = before.heap)
    (size : before.cells.latches.size ≤ after.cells.latches.size) :
    (latchesMade σ).Passes before after := by
  refine fun ⟨tidy, latched⟩ => ⟨⟨heap ▸ tidy, latched.change size fun _ _ _ _ _ present _ => ?_⟩,
    trivial⟩
  unfold Machine.kind? at present ⊢
  rw [heap] at present
  exact .inl present

theorem passes_mayRewrite (changes : before.heap.Tidy -> before.MayRewrite after) :
    (latchesMade σ).Passes before after := by
  intro ⟨tidy, latched⟩
  rcases changes tidy with rfl | ⟨_, _, _, rewrites⟩
  · exact ⟨⟨tidy, latched⟩, trivial⟩
  · exact ⟨⟨rewrites.tidy, latched.rewrites rewrites⟩, trivial⟩

theorem passes_createFunction
    (machine : Machine σ)
    (promise : ObjectId)
    {latch : LatchId}
    (made : latch.index < machine.cells.latches.size)
    (reject : Bool) :
    (latchesMade σ).Passes machine (machine.createNative
      { name := "", behavior := .resolving promise latch reject } 1).2 := by
  refine passes_adds (fun tidy => .createNative tidy _ 1) ?_
  rintro _ _ _ _ ⟨⟩ ⟨⟩
  exact made

instance lawful : (latchesMade σ).Lawful where
  tidy holds := holds.1
  quiet still := fun ⟨_, latched⟩ => ⟨⟨still.tidy, latched.aside still.toAside⟩, trivial⟩
  takeUnhandled _ := passes_beside rfl (Nat.le_refl _)
  fresh _ := trivial
  allocatePromise _ prototype :=
    passes_adds (fun tidy => .allocatePromise tidy prototype)
      fun _ _ _ _ => ObjectKind.noConfusion
  settlePromise _ promise settlement value _ := passes_mayRewrite fun tidy =>
    Machine.mayRewrite_settlePromise tidy promise settlement value
  registerReaction _ promise reaction _ := passes_mayRewrite fun tidy =>
    Machine.mayRewrite_registerReaction tidy promise reaction
  registers _ _ := trivial
  adopt _ _ _ _ _ := passes_beside rfl (Nat.le_refl _)
  createResolvingFunctions machine promise _ := by
    have size : machine.cells.latches.size < machine.cells.addLatch.2.latches.size := by
      simp [Cells.addLatch]
    have added : (latchesMade σ).Passes machine
        { machine with cells := machine.cells.addLatch.2 } :=
      passes_beside rfl (Nat.le_of_lt size)
    exact (added.trans (passes_createFunction _ promise size false)).trans
      (passes_createFunction _ promise size true)
  createElement _ _ _ _ _ _ := passes_adds (fun tidy => .createNative tidy _ 1) (by
    rintro _ _ _ _ ⟨⟩ ⟨⟩)
  addAggregate _ _ := passes_beside rfl (Nat.le_refl _)
  updateAggregate machine id _ _ := passes_beside rfl (by
    unfold Cells.updateAggregate
    split <;> exact Nat.le_refl _)

instance parking : (latchesMade σ).discipline.Parking where
  allocateCoroutine _ prototype coroutine _ :=
    passes_adds (fun tidy => .allocate tidy prototype (.coroutine coroutine))
      fun _ _ _ _ => ObjectKind.noConfusion
  park _ id _ _ := fun ⟨tidy, latched⟩ => ⟨⟨tidy.modify id _,
    latched.change (Nat.le_refl _) fun _ _ _ _ _ present _ =>
      .inl ((Machine.kind?_park_of_unlike fun _ => ObjectKind.noConfusion).1 present)⟩, trivial⟩
  awaits _ := trivial

instance hosted : (latchesMade σ).Hosted where
  avoids _ := Machine.avoids_of_forall (fun _ => id) _
  pushHost _ _ _ := passes_beside rfl (Nat.le_refl _)
  enqueueTask _ _ _ := passes_beside rfl (Nat.le_refl _)
  enqueueMicrotask _ _ _ := passes_beside rfl (Nat.le_refl _)
  reschedule _ _ _ _ := passes_beside rfl (Nat.le_refl _)
  finish env _ _ := fun ⟨tidy, latched⟩ =>
    have aside := Machine.aside_checkpointFinished tidy env
    ⟨⟨aside.tidy, latched.aside aside⟩, trivial⟩
  takeMicrotask _ _ _ _ := passes_beside rfl (Nat.le_refl _)
  works _ _ inner sound := Evolution.keeps_work_of_forall (fun _ => trivial)
    (passes_beside rfl (Nat.le_refl _)) inner sound
  settlers receiver arguments _ _ settles sound :=
    Evolution.keeps_settler_of_forall (fun _ => trivial)
      (fun _ _ => passes_beside rfl (Nat.le_of_eq Array.size_setIfInBounds.symm)) settles sound
      receiver arguments
  resolves _ _ := trivial
  rejects _ _ := trivial
  discards _ _ := passes_beside rfl (Nat.le_refl _)
  collects kept _ := by
    suffices obedient : Exec.Obeys (latchesMade σ).discipline
        (Exec.change fun machine => machine.collectGarbage kept) from obedient.obeys
    refine .change _ fun machine ⟨tidy, latched⟩ => ?_
    obtain ⟨collected, kinds, cells, _, _⟩ := Machine.collectGarbage_keeps tidy kept
    exact ⟨⟨collected, latched.change (Nat.le_of_eq (by rw [cells])) fun id _ _ _ _ present _ =>
      .inl (kinds id _ present)⟩, trivial⟩

end latchesMade

/-! ## Sessions -/

/-- A moment of a session is one that an embedder comes across. -/
theorem Sight.InSession.seen {sight : Sight σ} (session : sight.InSession collects) :
    ∃ config world, sight.SeenWithout (fun _ => False) (Builtins.newMachine config world) := by
  cases session with
  | new config world => exact ⟨config, world, .between .start⟩
  | during careful ran =>
      exact ⟨_, _, .during .start (HostProgram.avoids_of_forall (fun _ => id) _) ran⟩
  | returned careful ran =>
      exact ⟨_, _, .between (.returned .start (HostProgram.avoids_of_forall (fun _ => id) _) ran)⟩
  | threw careful ran =>
      exact ⟨_, _, .between (.threw .start (HostProgram.avoids_of_forall (fun _ => id) _) ran)⟩

theorem Sight.InSession.latched {sight : Sight σ} (session : sight.InSession collects) :
    sight.machine.Latched := by
  obtain ⟨config, world, seen⟩ := session.seen
  have holds : (latchesMade σ).holds (Builtins.newMachine config world) := by
    refine ⟨Builtins.newMachine_tidy config world, fun id callee promise latch reject present
      behaves => absurd ?_ (Builtins.newMachine_plain config world id _ present)⟩
    show callee.behavior.settles? ≠ none
    rw [behaves]
    exact nofun
  exact (Evolution.passes_seenWithout (fun _ => id) seen holds).1.2

end ScriptVM

import ScriptVM.Proofs.Balance
import ScriptVM.Proofs.Soundness

/-!
# Inferring that computations are sound

That a computation is sound is inferred from its parts, with what is known of their answers.
-/

namespace ScriptVM

variable {σ α β : Type} {collects : Bool}

open Machine

namespace Machine

variable {machine : Machine σ}

/-- A native call more or less makes no difference to what is vouched for. -/
theorem accepts_withNativeDepth (nativeDepth : Nat) {item : Item} :
    Accepts { machine with nativeDepth } item ↔ machine.Accepts item := by
  cases item <;> exact Iff.rfl

theorem vouches_withNativeDepth
    [Carrier α]
    (nativeDepth : Nat)
    {data : α}
    (vouched : machine.Vouches data) :
    Vouches { machine with nativeDepth } data :=
  ⟨fun item member => (accepts_withNativeDepth nativeDepth).2 (vouched.accepts item member)⟩

theorem Consistent.withNativeDepth
    (consistent : machine.Consistent collects)
    (nativeDepth : Nat) :
    Consistent collects { machine with nativeDepth } where
  tidy := consistent.tidy
  objects live := vouches_withNativeDepth nativeDepth (consistent.objects live)
  frames := vouches_withNativeDepth nativeDepth consistent.frames
  microtasks := vouches_withNativeDepth nativeDepth consistent.microtasks
  rejections := vouches_withNativeDepth nativeDepth consistent.rejections
  unhandled := vouches_withNativeDepth nativeDepth consistent.unhandled
  intrinsics := consistent.intrinsics
  tied := consistent.tied.mono (fun stands => frameAt_of_same stands rfl rfl) fun stands => stands
  attended := consistent.attended.congr rfl rfl
  resumes := consistent.resumes.of_same rfl rfl

theorem Acyclic.withNativeDepth (acyclic : machine.Acyclic) (nativeDepth : Nat) :
    Acyclic { machine with nativeDepth } :=
  acyclic.mono (fun linked => linked) fun stands _ => stands

end Machine

namespace Exec

variable {machine : Machine σ} {holds : Machine σ -> α -> Prop}

/-! ## Native calls -/

/-- A native call ends where the computation did, one level up again. -/
theorem keeps_leaveNative
    {machine inside middle : Machine σ}
    {env : Env σ}
    (deeper : inside = { machine with nativeDepth := machine.nativeDepth + 1 })
    (shallow : ∀ (after : Machine σ) answer nativeDepth, holds after answer ->
      holds { after with nativeDepth } answer)
    (outcome : Except Exception α)
    (follows : inside.Follows collects env.watch True middle)
    (held : ∀ answer, outcome = .ok answer -> holds middle answer)
    (vouched : ∀ exception, outcome = .error exception -> middle.Vouches exception) :
    machine.Keeps collects env.watch True holds
      ((do
        update fun machine => { machine with nativeDepth := machine.nativeDepth - 1 }
        ofExcept outcome : Exec σ α) env middle) := by
  have left : machine.Follows collects env.watch True
      { middle with nativeDepth := middle.nativeDepth - 1 } := by
    have later := follows.later trivial
    subst deeper
    exact ⟨follows.consistent.withNativeDepth _,
      fun _ => ⟨⟨fun accepted => (accepts_withNativeDepth _).2
        (later.accepts ((accepts_withNativeDepth _).2 accepted)), fun present =>
        later.natures present, Nat.le_sub_one_of_lt (Nat.lt_of_succ_le later.nativeDepth)⟩,
        fun held => (later.inHand (held.of_same rfl rfl)).of_same rfl rfl⟩,
      fun heeds acyclic =>
        (follows.acyclic heeds (acyclic.withNativeDepth _)).withNativeDepth _⟩
  refine keeps_updateThen _ (.of_follows left) ?_
  cases outcome with
  | ok answer => exact ⟨left, shallow middle answer _ (held answer rfl)⟩
  | error exception => exact ⟨left, vouches_withNativeDepth _ (vouched exception rfl)⟩

/-- A native call does what the computation does one level deeper. -/
theorem Ensures.withNativeDepth
    [consistent : machine.Consistent collects]
    {computation : Exec σ α}
    (shallow : ∀ (after : Machine σ) answer nativeDepth, holds after answer ->
      holds { after with nativeDepth } answer)
    (inner : ∀ inside : Machine σ,
      inside = { machine with nativeDepth := machine.nativeDepth + 1 } ->
      inside.Consistent collects -> Later machine inside -> inside.Nested ->
      Ensures collects True inside computation holds) :
    Ensures collects True machine (Exec.withNativeDepth computation) holds := by
  intro env sound
  by_cases room : machine.nativeDepth < machine.config.maxNativeDepth
  · rw [withNativeDepth_of_room computation env room]
    have deeper : Consistent collects { machine with nativeDepth := machine.nativeDepth + 1 } :=
      consistent.withNativeDepth _
    have enters : machine.Follows collects env.watch True
        { machine with nativeDepth := machine.nativeDepth + 1 } :=
      ⟨deeper, fun _ => ⟨.of_same rfl rfl rfl (Nat.le_succ _), fun held => held.of_same rfl rfl⟩,
        fun _ acyclic => acyclic.withNativeDepth _⟩
    have kept := (inner _ rfl deeper (enters.later trivial) ⟨Nat.succ_pos _⟩).attempt env sound
    refine keeps_updateThen _ (.of_follows enters) ?_
    cases ran : Exec.attempt computation env
        { machine with nativeDepth := machine.nativeDepth + 1 } with
    | error stop middle =>
        rw [ran] at kept
        rw [bind_of_error _ ran]
        exact .since enters kept.error
    | ok outcome middle =>
        rw [ran] at kept
        rw [bind_of_ok _ ran]
        refine keeps_leaveNative rfl shallow outcome kept.1 (fun answer same => ?_)
          fun exception same => ?_
        · subst same
          exact kept.2
        · subst same
          exact kept.2
  · rw [withNativeDepth_of_full computation env (Nat.not_lt.1 room)]
    exact ⟨.refl machine, inferInstance⟩

/-! ## Outcomes -/

/-- Where a computation may have come to, and with which answer. -/
structure Outcome (collects : Bool) (machine : Machine σ) (α : Type) [Carrier α] where
  answer : α
  after : Machine σ
  consistent : after.Consistent collects
  later : Later machine after
  vouches : after.Vouches answer

/-- Where a native call may be under way. -/
structure Inside (collects : Bool) (machine : Machine σ) where
  inside : Machine σ
  consistent : inside.Consistent collects
  later : Later machine inside
  nested : inside.Nested

/-- Where a computation may have named an object that cannot be called. -/
structure Named (collects : Bool) (machine : Machine σ) where
  id : ObjectId
  after : Machine σ
  consistent : after.Consistent collects
  later : Later machine after
  vouches : after.Vouches (Value.object id)

/-- Where a computation may have named a promise. -/
structure Promised (collects : Bool) (machine : Machine σ) where
  id : ObjectId
  after : Machine σ
  consistent : after.Consistent collects
  later : Later machine after
  vouches : after.Vouches (PromiseHandle.mk id)

attribute [instance] Outcome.consistent Outcome.later Outcome.vouches
attribute [instance] Inside.consistent Inside.later Inside.nested
attribute [instance] Named.consistent Named.later Named.vouches
attribute [instance] Promised.consistent Promised.later Promised.vouches

/-! ## Sequences -/

section

variable {machine : Machine σ} [consistent : machine.Consistent collects] {next : α -> Exec σ β}
variable (receiver callee : Value) (key : PropertyKey) (computation : Exec σ α)
  (arguments : List Value)

omit consistent in
theorem Sound.bind
    [Carrier α]
    [Carrier β]
    {first : Exec σ α}
    (earlier : Sound collects machine first)
    (later : ∀ answer after, after.Consistent collects -> Later machine after ->
      after.Vouches answer -> Sound collects after (next answer)) :
    Sound collects machine (first >>= next) :=
  ⟨.bind earlier.ensures fun answer after consistent carried vouched =>
    (later answer after consistent (carried trivial) vouched).ensures⟩

omit consistent in
/-- Whatever the answer is known to be. -/
theorem Sound.bindEnsures
    [Carrier β]
    {first : Exec σ α}
    {holds : Machine σ -> α -> Prop}
    (earlier : Ensures collects True machine first holds)
    (later : ∀ answer after, after.Consistent collects -> Later machine after ->
      holds after answer -> Sound collects after (next answer)) :
    Sound collects machine (first >>= next) :=
  ⟨.bind earlier fun answer after consistent carried held =>
    (later answer after consistent (carried trivial) held).ensures⟩

omit consistent in
theorem Sound.ask
    [Carrier α]
    {query : Machine σ -> β}
    {next : β -> Exec σ α}
    (sound : Sound collects machine (next (query machine))) :
    Sound collects machine (Exec.ask query >>= next) :=
  ⟨.ask sound.ensures⟩

instance (priority := low) sound_bind
    [Carrier α]
    [Carrier β]
    (first : Exec σ α)
    (next : α -> Exec σ β)
    [earlier : Sound collects machine first]
    [later : ∀ outcome : Outcome collects machine α,
      Sound collects outcome.after (next outcome.answer)] :
    Sound collects machine (first >>= next) :=
  .bind earlier fun answer after consistent goes vouched =>
    later ⟨answer, after, consistent, goes, vouched⟩

/-- The answer is present or not. -/
instance (priority := 600) sound_bind_option
    [Carrier α]
    [Carrier β]
    (first : Exec σ (Option α))
    (next : Option α -> Exec σ β)
    [earlier : Sound collects machine first]
    [absent : ∀ outcome : Outcome collects machine Unit,
      Sound collects outcome.after (next none)]
    [present : ∀ outcome : Outcome collects machine α,
      Sound collects outcome.after (next (some outcome.answer))] :
    Sound collects machine (first >>= next) :=
  .bind earlier fun answer after consistent goes vouched => by
    cases answer with
    | none => exact absent ⟨(), after, consistent, goes, inferInstance⟩
    | some answer => exact present ⟨answer, after, consistent, goes, vouches_some.1 vouched⟩

/-- The answer is a pair. -/
instance (priority := 600) sound_bind_pair
    {γ : Type}
    [Carrier α]
    [Carrier β]
    [Carrier γ]
    (first : Exec σ (α × β))
    (next : α × β -> Exec σ γ)
    [earlier : Sound collects machine first]
    [later : ∀ outcome : Outcome collects machine (α × β),
      Sound collects outcome.after (next (outcome.answer.1, outcome.answer.2))] :
    Sound collects machine (first >>= next) :=
  .bind earlier fun answer after consistent goes vouched =>
    later ⟨answer, after, consistent, goes, vouched⟩

omit consistent in
instance [Carrier α] (query : Machine σ -> β) (next : β -> Exec σ α)
    [sound : Sound collects machine (next (query machine))] :
    Sound collects machine (Exec.ask query >>= next) :=
  .ask sound

omit consistent in
instance [Carrier α] (first : Exec σ ObjectId) (next : ObjectId -> Exec σ α)
    [earlier : Names collects machine first]
    [later : ∀ named : Named collects machine, Sound collects named.after (next named.id)] :
    Sound collects machine (first >>= next) :=
  .bindEnsures earlier.ensures fun id after consistent goes vouched =>
    later ⟨id, after, consistent, goes, vouched⟩

omit consistent in
instance promises_bind
    [Carrier α]
    (first : Exec σ ObjectId)
    (next : ObjectId -> Exec σ α)
    [earlier : Promises collects machine first]
    [later : ∀ promised : Promised collects machine,
      Sound collects promised.after (next promised.id)] :
    Sound collects machine (first >>= next) :=
  .bindEnsures earlier.ensures fun id after consistent goes vouched =>
    later ⟨id, after, consistent, goes, vouched⟩

omit consistent in
/-- Both branches go on in the same way. -/
theorem Sound.join
    [Carrier α]
    [Carrier β]
    {condition : Prop}
    [Decidable condition]
    {first second : Exec σ α}
    (earlier : Sound collects machine (if condition then first else second))
    (later : ∀ answer after, after.Consistent collects -> Later machine after ->
      after.Vouches answer -> Sound collects after (next answer)) :
    Sound collects machine (if condition then first >>= next else second >>= next) := by
  have joined := Sound.bind earlier later
  split
  · next holds => rwa [if_pos holds] at joined
  · next fails => rwa [if_neg fails] at joined

/-! ## Single steps -/

instance sound_pure
    [Carrier α]
    (answer : α)
    [vouched : machine.Vouches answer] : Sound collects machine (pure answer : Exec σ α) :=
  ⟨.pure answer vouched⟩

instance sound_raise
    [Carrier α]
    (exception : Exception)
    [machine.Vouches exception] : Sound collects machine (raise exception : Exec σ α) :=
  ⟨.raise exception⟩

instance [Carrier α] (misstep : Misstep) (frame : Frame) :
    Sound collects machine (stray misstep frame : Exec σ α) :=
  ⟨.stray misstep frame⟩

/-- Nothing comes after an exception. -/
instance [Carrier β] (exception : Exception) (next : α -> Exec σ β)
    [vouched : machine.Vouches exception] : Sound collects machine (raise exception >>= next) :=
  have raises : Ensures collects True machine (raise exception : Exec σ α) fun _ _ => False :=
    .raise exception
  ⟨.bind raises fun _ _ _ _ impossible => impossible.elim⟩

instance [Carrier α] (message : Machine σ -> String) :
    Sound collects machine (typeError message : Exec σ α) :=
  .ask (sound_raise _)

instance [Carrier β] (message : Machine σ -> String) (next : α -> Exec σ β) :
    Sound collects machine (typeError message >>= next) :=
  have raises : Ensures collects True machine (typeError message : Exec σ α) fun _ _ => False :=
    .ask (.raise _)
  ⟨.bind raises fun _ _ _ _ impossible => impossible.elim⟩

instance sound_ofExcept
    [Carrier α]
    (outcome : Except Exception α)
    [vouched : machine.Vouches outcome] : Sound collects machine (ofExcept outcome) :=
  ⟨.ofExcept outcome (fun _ same => vouches_ok.1 (same ▸ vouched))
    fun _ same => vouches_error.1 (same ▸ vouched)⟩

instance [Carrier α] (query : Machine σ -> α) [vouched : machine.Vouches (query machine)] :
    Sound collects machine (ask query) :=
  ⟨fun _ _ => ⟨.refl machine, vouched⟩⟩

omit consistent in
instance [Carrier α] (operation : Machine σ -> α × Machine σ)
    [descends : machine.Descends collects (operation machine).2]
    [vouched : (operation machine).2.Vouches (operation machine).1] :
    Sound collects machine (change operation) :=
  ⟨.change operation descends.sustains vouched⟩

omit consistent in
instance (operation : Machine σ -> Machine σ)
    [descends : machine.Descends collects (operation machine)] :
    Sound collects machine (update operation) :=
  ⟨.update operation descends.sustains inferInstance⟩

omit consistent in
instance names_change
    (operation : Machine σ -> ObjectId × Machine σ)
    [descends : machine.Descends collects (operation machine).2]
    [vouched : (operation machine).2.Vouches (Value.object (operation machine).1)] :
    Names collects machine (change operation) :=
  ⟨.change operation descends.sustains vouched⟩

omit consistent in
instance (operation : Machine σ -> ObjectId × Machine σ)
    [descends : machine.Descends collects (operation machine).2]
    [vouched : (operation machine).2.Vouches (PromiseHandle.mk (operation machine).1)] :
    Promises collects machine (change operation) :=
  ⟨.change operation descends.sustains vouched⟩

instance (referent : Referent) : Sound collects machine (use referent) :=
  ⟨(Ensures.use referent).imp fun _ _ _ => inferInstance⟩

instance : Sound collects machine pause :=
  ⟨Ensures.pause.imp fun _ _ _ => inferInstance⟩

omit consistent in
/-! ## Composite steps -/

instance [Carrier α] (condition : Prop) [Decidable condition] (first second : Exec σ α)
    [holds : Sound collects machine first] [fails : Sound collects machine second] :
    Sound collects machine (if condition then first else second) := by
  split
  · exact holds
  · exact fails

instance sound_map
    [Carrier α]
    [Carrier β]
    (transform : α -> β)
    (computation : Exec σ α)
    [sound : Sound collects machine computation]
    [vouches : ∀ outcome : Outcome collects machine α,
      outcome.after.Vouches (transform outcome.answer)] :
    Sound collects machine (transform <$> computation) := by
  rw [map_eq_pure_bind]
  infer_instance

instance [Carrier α] [sound : Sound collects machine computation] :
    Sound collects machine (attempt computation) :=
  ⟨sound.ensures.attempt.imp fun after outcome held => by
    cases outcome with
    | ok answer => exact vouches_ok.2 held
    | error exception => exact vouches_error.2 held⟩

instance [Carrier α] [Carrier β] (next : Except Exception α -> Exec σ β)
    [sound : Sound collects machine computation]
    [settles : ∀ outcome : Outcome collects machine α,
      Sound collects outcome.after (next (.ok outcome.answer))]
    [throws : ∀ outcome : Outcome collects machine Exception,
      Sound collects outcome.after (next (.error outcome.answer))] :
    Sound collects machine (attempt computation >>= next) :=
  .bindEnsures sound.ensures.attempt fun outcome after consistent goes held => by
    cases outcome with
    | ok answer => exact settles ⟨answer, after, consistent, goes, held⟩
    | error exception => exact throws ⟨exception, after, consistent, goes, held⟩

instance {γ : Type} [Carrier α] [Carrier γ] (step : γ -> Exec σ (γ ⊕ α)) (state : γ)
    [vouched : machine.Vouches state]
    [once : ∀ outcome : Outcome collects machine γ,
      Sound collects outcome.after (step outcome.answer)] :
    Sound collects machine (iterate step state) :=
  ⟨.iterate (fun after state => after.Vouches state)
    (fun state after consistent goes vouched =>
      (once ⟨state, after, consistent, goes trivial, vouched⟩).ensures.imp
        fun after outcome held => by
        cases outcome with
        | inl state => exact vouches_inl.1 held
        | inr answer => exact vouches_inr.1 held)
    state vouched⟩

instance [Carrier β] (values : List β) (body : β -> Exec σ PUnit) [machine.Vouches values]
    [once : ∀ outcome : Outcome collects machine β,
      Sound collects outcome.after (body outcome.answer)] :
    Sound collects machine (values.forM body) :=
  ⟨(Ensures.forM (fun value after consistent goes vouched =>
      (once ⟨value, after, consistent, goes, vouched⟩).ensures.imp fun _ _ _ => trivial)
    values).imp fun _ _ _ => inferInstance⟩

instance {γ : Type} [Carrier β] [Carrier γ] (values : List β) (body : β -> Exec σ γ)
    [machine.Vouches values]
    [once : ∀ outcome : Outcome collects machine β,
      Sound collects outcome.after (body outcome.answer)] :
    Sound collects machine (values.mapM body) :=
  ⟨.mapM (fun value after consistent goes vouched =>
      (once ⟨value, after, consistent, goes, vouched⟩).ensures) values⟩

instance {γ : Type} [Carrier β] [Carrier γ] (value : Option β) (body : β -> Exec σ γ)
    [vouched : machine.Vouches value]
    [once : ∀ outcome : Outcome collects machine β,
      Sound collects outcome.after (body outcome.answer)] :
    Sound collects machine (value.mapM body) := by
  cases value with
  | none => exact sound_pure none
  | some value =>
      have : machine.Vouches value := vouches_some.1 vouched
      have taken : Sound collects machine (body value) :=
        once ⟨value, machine, consistent, .refl machine, this⟩
      exact sound_map some (body value)

instance [Carrier α]
    [inner : ∀ native : Inside collects machine, Sound collects native.inside computation] :
    Sound collects machine (withNativeDepth computation) :=
  ⟨.withNativeDepth (fun _ _ _ => vouches_withNativeDepth _)
    fun inside _ consistent goes nested => (inner ⟨inside, consistent, goes, nested⟩).ensures⟩

instance : Sound collects machine checkCallDepth := by
  unfold checkCallDepth
  infer_instance

/-! ## Invocations -/

/-- Invocations that run no queued jobs. -/
theorem sound_perform
    (invocation : Invocation)
    (carries : invocation.Carries collects machine)
    [vouched : machine.Vouches invocation] : Sound collects machine (perform invocation) :=
  ⟨fun _ sound => (sound.performs invocation machine consistent vouched).weaken
    (fun _ => carries) fun _ _ _ held => held⟩

instance [first : machine.Vouches receiver] [second : machine.Vouches arguments] :
    Sound collects machine (perform (.call callee receiver arguments)) :=
  have : machine.Vouches (Invocation.call callee receiver arguments) :=
    (vouches_append _ _ rfl).2 ⟨first, second⟩
  sound_perform (.call callee receiver arguments) trivial

instance (newTarget : Value) [first : machine.Vouches callee] [second : machine.Vouches arguments]
    [third : machine.Vouches newTarget] :
    Sound collects machine (perform (.construct callee arguments newTarget)) :=
  have : machine.Vouches (Invocation.construct callee arguments newTarget) := by
    simp only [vouches_iff, items, List.forall_mem_append] at first second third ⊢
    exact ⟨⟨first, second⟩, third⟩
  sound_perform (.construct callee arguments newTarget) trivial

instance (id : ObjectId) [vouched : machine.Vouches receiver] :
    Sound collects machine (perform (.get id key receiver)) :=
  have : machine.Vouches (Invocation.get id key receiver) := ⟨vouched.accepts⟩
  sound_perform (.get id key receiver) trivial

instance (id : ObjectId) (value : Value) [first : machine.Vouches value]
    [second : machine.Vouches receiver] :
    Sound collects machine (perform (.set id key value receiver)) :=
  have : machine.Vouches (Invocation.set id key value receiver) :=
    (vouches_append _ _ rfl).2 ⟨first, second⟩
  sound_perform (.set id key value receiver) trivial

instance (id : ObjectId) : Sound collects machine (perform (.has id key)) :=
  have : machine.Vouches (Invocation.has id key) := vouches_of_nil rfl
  sound_perform (.has id key) trivial

instance (target : Value) : Sound collects machine (perform (.delete target key)) :=
  have : machine.Vouches (Invocation.delete target key) := vouches_of_nil rfl
  sound_perform (.delete target key) trivial

instance (id : ObjectId) : Sound collects machine (perform (.prototypeOf id)) :=
  have : machine.Vouches (Invocation.prototypeOf id) := vouches_of_nil rfl
  sound_perform (.prototypeOf id) trivial

instance (value target : Value) [first : machine.Vouches value] [second : machine.Vouches target] :
    Sound collects machine (perform (.instanceOf value target)) :=
  have : machine.Vouches (Invocation.instanceOf value target) :=
    (vouches_append _ _ rfl).2 ⟨first, second⟩
  sound_perform (.instanceOf value target) trivial

instance [machine.Vouches receiver] [machine.Vouches arguments] :
    Sound collects machine (call callee receiver arguments) := by
  unfold call
  infer_instance

/-! ## Steps on objects -/

instance (exception : Exception) [machine.Vouches exception] :
    Sound collects machine (exceptionValue exception) := by
  unfold exceptionValue
  infer_instance

instance sound_defineRaw
    (id : ObjectId)
    (key : PropertyKey)
    (property : Property)
    [machine.Vouches property] : Sound collects machine (defineRaw id key property) := by
  unfold defineRaw
  infer_instance

instance (elements : List Value) [machine.Vouches elements] :
    Sound collects machine (createArray elements) := by
  unfold createArray
  infer_instance

instance names_allocate
    (prototype : Option ObjectId)
    (kind : ObjectKind)
    [kind.Plain]
    [kind.Frameless]
    [machine.Vouches prototype]
    [machine.Vouches kind] :
    Names collects machine (allocate prototype kind : Exec σ ObjectId) := by
  unfold allocate
  infer_instance

end

end Exec
end ScriptVM

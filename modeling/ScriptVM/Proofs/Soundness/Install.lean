import ScriptVM.Proofs.Reachable
import ScriptVM.Proofs.Soundness.Builtins

/-!
# New machines

What installs the built-ins is sound as a computation of a machine that has the prototypes of
objects and functions so far. So a new machine is consistent, and no chain of prototypes goes
round.
-/

namespace ScriptVM

variable {σ α β : Type} {collects : Bool} {machine : Machine σ}

open Machine Exec

/-! ## New objects -/

namespace Machine

/-- What is live in the earlier machine has the same prototype in the later one. -/
def LinksAlike (before after : Machine σ) : Prop :=
  ∀ id kind, before.kind? id = some kind ->
    after.heap.prototypeOf id = before.heap.prototypeOf id

/-- Nothing that was there before leads to an object that is new. -/
theorem LinksAlike.apart
    {after : Machine σ}
    (alike : machine.LinksAlike after)
    [machine.Consistent collects]
    {id older : ObjectId}
    (new : machine.kind? id = none)
    (old : machine.Vouches older) :
    ¬ after.Leads older id := by
  intro leads
  induction leads with
  | self =>
      obtain ⟨kind, present⟩ := vouches_id.1 old
      rw [new] at present
      cases present
  | @link older parent last _ linked _ step =>
      obtain ⟨kind, present⟩ := vouches_id.1 old
      rw [alike older kind present] at linked
      exact step new (.of_some linked)

/-- Properties are no prototypes. -/
theorem prototypeOf_define
    (machine : Machine σ)
    (id other : ObjectId)
    (key : PropertyKey)
    (property : Property) :
    (machine.heap.define id key property).prototypeOf other =
      machine.heap.prototypeOf other := by
  obtain ⟨change, alters, furnishes⟩ := machine.heap.alters_define id key property
  unfold Heap.prototypeOf
  rw [alters.get?]
  split
  · cases machine.heap.get? other with
    | none => rfl
    | some object => exact furnishes.prototype object
  · rfl

end Machine

/-! ## Installing on a machine -/

namespace Builtins

/-- Install something on the heap of a machine. -/
@[irreducible] def Install.onMachine (computation : Install α) : Exec σ α :=
  fun _ machine =>
    let (answer, heap) :=
      (computation.run machine.intrinsics.functionPrototype).run machine.heap
    .ok answer { machine with heap }

theorem onMachine_bind (first : Install α) (next : α -> Install β) :
    ((first >>= next).onMachine : Exec σ β) = first.onMachine >>= fun answer =>
      (next answer).onMachine := by
  unfold Install.onMachine
  rfl

theorem onMachine_pure (answer : α) :
    ((pure answer : Install α).onMachine : Exec σ α) = pure answer := by
  unfold Install.onMachine
  rfl

theorem onMachine_read :
    ((read : Install ObjectId).onMachine : Exec σ ObjectId) =
      ask fun machine => machine.intrinsics.functionPrototype := by
  unfold Install.onMachine
  rfl

/-- What is installed at once. -/
theorem ensures_onMachine
    {computation : Install α}
    {holds : Machine σ -> α -> Prop}
    (answer : α)
    (heap : Heap ObjectKind)
    (does : (computation.run machine.intrinsics.functionPrototype).run machine.heap =
      (answer, heap))
    (sustains : machine.Sustains collects { machine with heap })
    (held : holds { machine with heap } answer) :
    Ensures collects True machine (computation.onMachine : Exec σ α) holds := by
  intro env _
  unfold Install.onMachine
  rw [does]
  exact ⟨.of_sustains sustains, held⟩

variable [consistent : machine.Consistent collects] {first : Install ObjectId} (config : Config)
variable (prototype global target : ObjectId) (arity : Nat) (key : PropertyKey) (name : String)
  (builtin : Builtin)
  {holds : Machine σ -> β -> Prop} {next : ObjectId -> Install β}

omit consistent in
instance sound_install_bind
    [Carrier α]
    [Carrier β]
    (first : Install α)
    (next : α -> Install β)
    [earlier : Sound collects machine (first.onMachine : Exec σ α)]
    [later : ∀ outcome : Outcome collects machine α,
      Sound collects outcome.after ((next outcome.answer).onMachine : Exec σ β)] :
    Sound collects machine ((first >>= next).onMachine : Exec σ β) := by
  rw [onMachine_bind]
  exact .bind earlier fun answer after consistent goes vouched =>
    later ⟨answer, after, consistent, goes, vouched⟩

instance sound_install_pure
    [Carrier α]
    (answer : α)
    [machine.Vouches answer] :
    Sound collects machine ((pure answer : Install α).onMachine : Exec σ α) := by
  rw [onMachine_pure]
  exact sound_pure answer

instance (property : Property) [machine.Vouches property] :
    Sound collects machine ((Install.define target key property).onMachine) :=
  ⟨ensures_onMachine () _ rfl (sustains_defineRaw target key property) inferInstance⟩

theorem sound_install_forM
    {step : β -> Install PUnit}
    (once : ∀ entry (after : Machine σ), after.Consistent collects ->
      Sound collects after ((step entry).onMachine : Exec σ PUnit))
    (entries : List β) : Sound collects machine ((entries.forM step).onMachine) := by
  induction entries generalizing machine with
  | nil => exact sound_install_pure PUnit.unit
  | cons entry rest more =>
      refine @sound_install_bind σ _ _ collects machine _ _ (step entry)
        (fun _ => rest.forM step) (once entry machine consistent) fun outcome => ?_
      exact more

/-! ## Objects and functions -/

/-- Install something on the way to an object or a function. -/
class Installs (collects : outParam Bool) (machine : Machine σ)
    (value : outParam (ObjectId -> Value)) (computation : Install ObjectId) : Prop where
  ensures : Ensures collects True machine (computation.onMachine : Exec σ ObjectId)
    fun after id => after.Vouches (value id)

instance [machine.Vouches prototype] : Installs collects machine .object (Install.object prototype) :=
  ⟨ensures_onMachine _ _ rfl (sustains_allocate (some prototype) .ordinary)
    (vouches_allocate_object (some prototype) .ordinary)⟩

instance [machine.Vouches prototype] :
    Installs collects machine .object (Install.allocate (some prototype) (.array {})) :=
  ⟨ensures_onMachine _ _ rfl (sustains_allocate (some prototype) (.array {}))
    (vouches_allocate_object (some prototype) (.array {}))⟩

instance (function : NativeFunction) [machine.Vouches function.behavior] :
    Installs collects machine .function (Install.native function arity) :=
  ⟨ensures_onMachine _ _ rfl (sustains_createNative function arity)
    (vouches_createNative function arity)⟩

instance : Installs collects machine .function (Install.function name builtin arity) := by
  unfold Install.function
  infer_instance

omit consistent in
/-- Go on with what was installed. -/
theorem ensures_install
    {value : ObjectId -> Value}
    [earlier : Installs collects machine value first]
    (later : ∀ id after, after.Consistent collects -> Later machine after ->
      after.Vouches (value id) ->
        Ensures collects True after ((next id).onMachine : Exec σ β) holds) :
    Ensures collects True machine ((first >>= next).onMachine : Exec σ β) holds := by
  rw [onMachine_bind]
  exact .bind earlier.ensures fun id after consistent goes named =>
    later id after consistent (goes trivial) named

omit consistent in
/-- Go on, whatever the answer was. -/
theorem ensures_installThen
    [Carrier α]
    {first : Install α}
    {next : α -> Install β}
    [earlier : Sound collects machine (first.onMachine : Exec σ α)]
    (later : ∀ answer after, after.Consistent collects -> Later machine after ->
      after.Vouches answer ->
        Ensures collects True after ((next answer).onMachine : Exec σ β) holds) :
    Ensures collects True machine ((first >>= next).onMachine : Exec σ β) holds := by
  rw [onMachine_bind]
  exact .after earlier later

omit consistent in
theorem ensures_installRead
    (ensures : Ensures collects True machine
      ((next machine.intrinsics.functionPrototype).onMachine : Exec σ β) holds) :
    Ensures collects True machine
      (((read : Install ObjectId) >>= next).onMachine : Exec σ β) holds := by
  rw [onMachine_bind, onMachine_read]
  exact .ask ensures

theorem ensures_installPure
    {answer : α}
    {holds : Machine σ -> α -> Prop}
    (held : holds machine answer) :
    Ensures collects True machine ((pure answer : Install α).onMachine : Exec σ α) holds := by
  rw [onMachine_pure]
  exact .pure answer held

instance (value : Value) [machine.Vouches value] :
    Sound collects machine ((Install.hidden target key value).onMachine) := by
  unfold Install.hidden
  infer_instance

instance (value : Value) [machine.Vouches value] :
    Sound collects machine ((Install.constant target key value).onMachine) := by
  unfold Install.constant
  infer_instance

instance (text : String) : Sound collects machine ((Install.tag target text).onMachine) := by
  unfold Install.tag
  infer_instance

instance : Installs collects machine .function (Install.methodAt target key name builtin arity) := by
  unfold Install.methodAt
  refine ⟨ensures_install fun id after _ _ _ => ?_⟩
  exact ensures_installThen fun _ _ _ _ _ => ensures_installPure inferInstance

instance (entries : List (String × Builtin × Nat)) :
    Sound collects machine ((Install.methods target entries).onMachine) := by
  unfold Install.methods
  refine sound_install_forM (fun (name, builtin, arity) after consistent => ?_) entries
  exact ⟨ensures_install fun _ _ _ _ _ =>
    ensures_installPure inferInstance⟩

/-! ## Constructors -/

include consistent in
/-- A native function is a new object. -/
theorem linksAlike_createNative
    (function : NativeFunction)
    (arity : Nat) : machine.LinksAlike (machine.createNative function arity).2 := by
  intro id kind present
  rw [createNative_eq]
  refine (prototypeOf_define _ _ id _ _).trans ((prototypeOf_define _ _ id _ _).trans ?_)
  show ((machine.heap.allocate _ _).2.get? id).bind HeapObject.prototype = _
  rw [consistent.tidy.get?_allocate]
  split
  · next same =>
      have dead : machine.kind? (machine.allocate (some machine.intrinsics.functionPrototype)
          (.native function)).1 = none := kind?_allocated _ _
      have : machine.kind? id = none := same ▸ dead
      rw [this] at present
      cases present
  · rfl

/-- Nothing leads to a constructor yet. -/
theorem ensures_constructor
    (name : String)
    (builtin : Builtin)
    (construct : BuiltinConstructor)
    (arity : Nat)
    (prototype : ObjectId)
    [machine.Vouches (Value.object prototype)] :
    Ensures collects True machine
      ((Install.constructor name builtin construct arity prototype).onMachine : Exec σ ObjectId)
      fun after id => after.Vouches (Value.function id) ∧
        ∀ older, machine.Vouches older -> ¬ after.Leads older id := by
  unfold Install.constructor
  have native : Ensures collects True machine
      ((Install.native { name, behavior := .builtin builtin, construct := some construct }
        arity).onMachine : Exec σ ObjectId)
      fun after id => after.Vouches (Value.function id) ∧
        machine.kind? id = none ∧ machine.LinksAlike after :=
    ensures_onMachine _ _ rfl (sustains_createNative _ arity)
      ⟨vouches_createNative _ arity, kind?_allocated _ _, linksAlike_createNative _ arity⟩
  have define : ∀ (middle : Machine σ) target key property, middle.Consistent collects ->
      middle.Vouches property -> machine.LinksAlike middle ->
      Ensures collects True middle
        ((Install.define target key property).onMachine : Exec σ Unit)
        fun after _ => machine.LinksAlike after :=
    fun middle target key property _ _ alike =>
      ensures_onMachine () _ rfl (sustains_defineRaw target key property) fun id kind present =>
          (prototypeOf_define middle target id key property).trans (alike id kind present)
  rw [onMachine_bind]
  refine .bind native fun id after _ later ⟨_, new, alike⟩ => ?_
  have := later trivial
  rw [onMachine_bind]
  refine .bind (define after _ _ _ inferInstance inferInstance alike) fun _ after _ later alike => ?_
  have := later trivial
  rw [onMachine_bind]
  refine .bind (define after _ _ _ inferInstance inferInstance alike) fun _ after _ later alike => ?_
  have := later trivial
  exact ensures_installPure ⟨inferInstance, fun older old => alike.apart new old⟩

instance (construct : BuiltinConstructor) [machine.Vouches (Value.object prototype)] :
    Installs collects machine .function
      (Install.constructor name builtin construct arity prototype) :=
  ⟨(ensures_constructor name builtin construct arity prototype).imp fun _ _ held => held.1⟩

/-! ## The built-ins -/

omit consistent in
theorem sound_installFunction
    [Carrier β]
    [earlier : Installs collects machine .function first]
    (later : ∀ id after, after.Consistent collects -> Later machine after ->
      after.Vouches (Value.function id) ->
        Sound collects after ((next id).onMachine : Exec σ β)) :
    Sound collects machine ((first >>= next).onMachine) :=
  ⟨ensures_install fun id after consistent goes named =>
    (later id after consistent goes named).ensures⟩

instance [machine.Vouches (Value.object prototype)] :
    Sound collects machine ((Install.objects global prototype).onMachine) := by
  unfold Install.objects
  exact sound_installFunction fun id after _ _ _ => inferInstance

omit consistent in
theorem sound_installRead
    [Carrier β]
    (sound : Sound collects machine
      ((next machine.intrinsics.functionPrototype).onMachine : Exec σ β)) :
    Sound collects machine (((read : Install ObjectId) >>= next).onMachine : Exec σ β) :=
  ⟨ensures_installRead sound.ensures⟩

omit consistent in
/-- Go on, whatever the answer was. -/
theorem sound_installThen
    [Carrier α]
    [Carrier β]
    {first : Install α}
    {next : α -> Install β}
    (earlier : Sound collects machine (first.onMachine : Exec σ α))
    (later : ∀ answer after, after.Consistent collects -> Later machine after ->
      after.Vouches answer -> Sound collects after ((next answer).onMachine : Exec σ β)) :
    Sound collects machine ((first >>= next).onMachine : Exec σ β) :=
  @sound_install_bind _ _ _ _ _ _ _ _ _ earlier fun outcome =>
    later outcome.answer outcome.after outcome.consistent outcome.later outcome.vouches

instance : Sound collects machine ((Install.functions global).onMachine) := by
  unfold Install.functions
  refine sound_installRead ?_
  refine sound_installFunction fun id after _ _ _ => ?_
  refine sound_installThen inferInstance fun _ after _ _ _ => ?_
  exact sound_installFunction fun id after _ _ _ => inferInstance

instance [machine.Vouches (Value.object prototype)] :
    Sound collects machine ((Install.arrays global prototype).onMachine) := by
  unfold Install.arrays
  refine sound_installFunction fun id after _ _ _ => ?_
  refine sound_installThen inferInstance fun _ after _ _ _ => ?_
  refine sound_installThen inferInstance fun _ after _ _ _ => ?_
  exact sound_installFunction fun id after _ _ _ => inferInstance

instance [machine.Vouches (Value.object prototype)] :
    Sound collects machine ((Install.symbols global prototype).onMachine) := by
  unfold Install.symbols
  refine sound_installFunction fun id after _ _ _ => ?_
  refine sound_installThen inferInstance fun _ after _ _ _ => ?_
  refine sound_installThen inferInstance fun _ after _ _ _ => ?_
  have names : Sound collects after
      ((SymbolId.wellKnown.forM fun (symbol, name) =>
        Install.constant id name (.symbol symbol)).onMachine : Exec σ Unit) :=
    sound_install_forM (fun (symbol, name) _ _ => inferInstance) SymbolId.wellKnown
  exact sound_installThen names fun _ after _ _ _ => inferInstance

instance [machine.Vouches (Value.object prototype)] :
    Sound collects machine ((Install.promises global prototype).onMachine) := by
  unfold Install.promises
  exact sound_installFunction fun id after _ _ _ => inferInstance

instance (kind : ErrorKind) :
    Sound collects machine ((Install.errorTexts kind prototype).onMachine) := by
  unfold Install.errorTexts
  infer_instance

instance : Sound collects machine ((Install.proxies global).onMachine) := by
  unfold Install.proxies
  exact sound_installFunction fun id after _ _ _ => inferInstance

instance [machine.Vouches (Value.object global)] :
    Sound collects machine ((Install.globals global).onMachine) := by
  unfold Install.globals
  infer_instance

theorem ensures_iterators (prototype : ObjectId) [machine.Vouches (Value.object prototype)] :
    Ensures collects True machine
      ((Install.iterators prototype).onMachine : Exec σ (ObjectId × ObjectId × ObjectId))
      fun after answer => after.Vouches (Value.object answer.1) ∧
        after.Vouches (Value.object answer.2.1) ∧ after.Vouches (Value.object answer.2.2) := by
  unfold Install.iterators
  refine ensures_install fun iterator after _ _ _ => ?_
  refine ensures_install fun _ after _ _ _ => ?_
  refine ensures_install fun arrayIterator after _ _ _ => ?_
  refine ensures_installThen fun _ after _ _ _ => ?_
  refine ensures_installThen fun _ after _ _ _ => ?_
  refine ensures_install fun generator after _ _ _ => ?_
  refine ensures_installThen fun _ after _ _ _ => ?_
  refine ensures_installThen fun _ after _ _ _ => ?_
  exact ensures_installPure ⟨inferInstance, inferInstance, inferInstance⟩

/-- The general error constructor and its prototype. -/
theorem ensures_errors
    (global objectPrototype : ObjectId)
    [machine.Vouches (Value.object objectPrototype)] :
    Ensures collects True machine
      ((Install.errors global objectPrototype).onMachine : Exec σ (ObjectId × ObjectId))
      fun after answer => after.Vouches (Value.function answer.1) ∧
        after.Vouches (Value.object answer.2) := by
  unfold Install.errors Install.errorConstructor
  refine ensures_install fun prototype after _ _ _ => ?_
  refine ensures_install fun id after _ _ _ => ?_
  refine ensures_installThen fun _ after _ _ _ => ?_
  refine ensures_installThen fun _ after _ _ _ => ?_
  refine ensures_installThen fun _ after _ _ _ => ?_
  exact ensures_installPure ⟨inferInstance, inferInstance⟩

/-- The constructor of a special kind of errors inherits from the general one, which does not
lead to it. -/
instance (parent parentPrototype : ObjectId) (kind : ErrorKind)
    [machine.Vouches (Value.function parent)] [machine.Vouches (Value.object parentPrototype)] :
    Installs collects machine .object
      (Install.errorKind global parent parentPrototype kind arity) := by
  unfold Install.errorKind Install.errorConstructor
  refine ⟨ensures_install fun prototype after _ _ _ => ?_⟩
  rw [onMachine_bind]
  refine .bind (ensures_constructor kind.name (.errorCall kind) (.error kind) arity prototype)
    fun id last _ later ⟨_, apart⟩ => ?_
  have := later trivial
  have linked : (last.modifyHeap fun heap => heap.setPrototype id (some parent)).Consistent
      collects ∧ Later last (last.modifyHeap fun heap => heap.setPrototype id (some parent)) :=
    Consistent.setPrototype id (some parent)
  have links : last.Sustains collects
      (last.modifyHeap fun heap => heap.setPrototype id (some parent)) :=
    ⟨linked.1, linked.2, fun acyclic => acyclic.setPrototype fun older same => by
      cases same
      exact apart parent inferInstance⟩
  have sets : Ensures collects True last
      ((modify fun heap => heap.setPrototype id (some parent) : Install Unit).onMachine :
        Exec σ Unit) fun after _ => Later last after :=
    ensures_onMachine () _ rfl links links.later
  rw [onMachine_bind]
  refine .bind sets fun _ after _ _ _ => ?_
  refine ensures_installThen fun _ after _ _ _ => ?_
  refine ensures_installThen fun _ after _ _ _ => ?_
  exact ensures_installPure inferInstance

/-- Everything that the machine itself refers to can be named, by the object form. -/
theorem ensures_everything (prototype : ObjectId) [machine.Vouches (Value.object prototype)] :
    Ensures collects True machine ((Install.everything prototype).onMachine : Exec σ Intrinsics)
      fun after intrinsics =>
        intrinsics.functionPrototype = machine.intrinsics.functionPrototype ∧
        ∀ id ∈ intrinsics.roots, after.Vouches (Value.object id) := by
  unfold Install.everything
  refine ensures_installRead ?_
  have functionPrototype : machine.Vouches
      (Value.object machine.intrinsics.functionPrototype) := inferInstance
  generalize machine.intrinsics.functionPrototype = function at functionPrototype ⊢
  refine ensures_install fun global after _ _ _ => ?_
  refine ensures_install fun arrayPrototype after _ _ _ => ?_
  refine ensures_install fun stringPrototype after _ _ _ => ?_
  refine ensures_install fun numberPrototype after _ _ _ => ?_
  refine ensures_install fun booleanPrototype after _ _ _ => ?_
  refine ensures_install fun symbolPrototype after _ _ _ => ?_
  refine ensures_install fun promisePrototype after _ _ _ => ?_
  rw [onMachine_bind]
  refine .bind (ensures_iterators prototype)
    fun ⟨iteratorPrototype, arrayIteratorPrototype, generatorPrototype⟩ after _ later ⟨_, _, _⟩ => ?_
  have := later trivial
  dsimp only
  refine ensures_installThen fun _ after _ _ _ => ?_
  refine ensures_installThen fun _ after _ _ _ => ?_
  refine ensures_installThen fun _ after _ _ _ => ?_
  refine ensures_installThen fun _ after _ _ _ => ?_
  refine ensures_installThen fun _ after _ _ _ => ?_
  rw [onMachine_bind]
  refine .bind (ensures_errors global prototype) fun ⟨error, errorPrototype⟩ after _ later ⟨_, _⟩ => ?_
  have := later trivial
  dsimp only
  refine ensures_install fun typeErrorPrototype after _ _ _ => ?_
  refine ensures_install fun referenceErrorPrototype after _ _ _ => ?_
  refine ensures_install fun rangeErrorPrototype after _ _ _ => ?_
  refine ensures_install fun syntaxErrorPrototype after _ _ _ => ?_
  refine ensures_install fun aggregateErrorPrototype after _ _ _ => ?_
  refine ensures_installThen fun _ after _ _ _ => ?_
  refine ensures_installThen fun _ after _ _ _ => ?_
  refine ensures_installPure ⟨rfl, fun id member => ?_⟩
  simp only [Intrinsics.roots, List.mem_cons, List.not_mem_nil, or_false] at member
  rcases member with rfl | rfl | rfl | rfl | rfl | rfl | rfl | rfl | rfl | rfl | rfl | rfl | rfl |
    rfl | rfl | rfl | rfl | rfl <;> infer_instance

/-! ## New machines -/

omit consistent in
/-- A machine that has only a heap is consistent if that is. -/
theorem consistent_onHeap
    {heap : Heap ObjectKind}
    {intrinsics : Intrinsics}
    (world : σ)
    (tidy : heap.Tidy)
    (objects : ∀ {id object}, heap.get? id = some object ->
      (Machine.onHeap heap intrinsics config world).Vouches object ∧
        object.payload.Frameless)
    (roots : ∀ id ∈ intrinsics.roots,
      (Machine.onHeap heap intrinsics config world).Tags (.object id)) :
    (Machine.onHeap heap intrinsics config world).Consistent collects := by
  have nothing : ∀ {place frame},
      ¬ (Machine.onHeap heap intrinsics config world).FrameAt place frame := by
    intro place frame held
    cases place with
    | inl height => cases frameAt_running.1 held
    | inr id =>
        obtain ⟨kind, present, parked⟩ := frameAt_parked.1 held
        obtain ⟨object, live, rfl⟩ := Option.map_eq_some_iff.1 present
        rw [(objects live).2.frameless] at parked
        cases parked
  have unresumed : ∀ {coroutine place},
      ¬ (Machine.onHeap heap intrinsics config world).ResumesAt coroutine place := by
    intro coroutine place waits
    cases waits with
    | @reaction promise _ _ stands =>
        unfold Machine.reactions at stands
        cases present : (Machine.onHeap heap intrinsics config world).kind? promise with
        | none =>
            rw [present] at stands
            cases stands
        | some kind =>
            obtain ⟨object, live, rfl⟩ := Option.map_eq_some_iff.1 present
            rw [present, Option.map_some, Option.getD_some, (objects live).2.unawaited] at stands
            cases stands
    | job stands => cases stands
  exact {
    tidy
    objects := fun live => (objects live).1
    frames := vouches_of_nil rfl
    microtasks := vouches_nil
    rejections := vouches_nil
    unhandled := vouches_nil
    intrinsics := roots
    tied := ⟨fun held => (nothing held).elim, fun held => (nothing held).elim⟩
    attended := by
      constructor
      · intro body member
        cases member
        contradiction
      · intro task member
        cases member
      · intro body member
        cases member
    resumes := ⟨fun waits => (unresumed waits).elim, fun waits => (unresumed waits).elim⟩ }

/-- The heap with the prototypes of objects and of functions. -/
def groundHeap : Heap ObjectKind :=
  ((({} : Heap ObjectKind).allocate none .ordinary).2.allocate (some ⟨0⟩)
    (.native { name := "", behavior := .builtin .emptyFunction })).2

theorem initialHeap_eq : initialHeap = ((Install.everything ⟨0⟩).run ⟨1⟩).run groundHeap := by
  unfold initialHeap
  -- What is installed is never looked at.
  generalize Install.everything = computation
  rfl

/-- The prototypes of objects and of functions stand for all other intrinsics at first. -/
def groundIntrinsics : Intrinsics where
  global := ⟨0⟩
  objectPrototype := ⟨0⟩
  functionPrototype := ⟨1⟩
  arrayPrototype := ⟨0⟩
  stringPrototype := ⟨0⟩
  numberPrototype := ⟨0⟩
  booleanPrototype := ⟨0⟩
  symbolPrototype := ⟨0⟩
  iteratorPrototype := ⟨0⟩
  arrayIteratorPrototype := ⟨0⟩
  generatorPrototype := ⟨0⟩
  promisePrototype := ⟨0⟩
  errorPrototype := ⟨0⟩
  typeErrorPrototype := ⟨0⟩
  referenceErrorPrototype := ⟨0⟩
  rangeErrorPrototype := ⟨0⟩
  syntaxErrorPrototype := ⟨0⟩
  aggregateErrorPrototype := ⟨0⟩

/-- A machine without any other built-ins. -/
def groundMachine (config : Config) (world : σ) : Machine σ :=
  .onHeap groundHeap groundIntrinsics config world

/-- What is on the heap at first. -/
theorem groundHeap_objects
    {id : ObjectId}
    {object : HeapObject ObjectKind}
    (live : groundHeap.get? id = some object) :
    id = ⟨1⟩ ∧ object.prototype = some ⟨0⟩ ∧ object.properties.entries = #[] ∧
        object.payload = .native { name := "", behavior := .builtin .emptyFunction } ∨
      id = ⟨0⟩ ∧ object.prototype = none ∧ object.properties.entries = #[] ∧
        object.payload = .ordinary := by
  have empty : ({} : Heap ObjectKind).Tidy := Heap.tidy_empty
  unfold groundHeap at live
  rw [(empty.allocate none .ordinary).get?_allocate, empty.get?_allocate] at live
  split at live
  · next same =>
      cases live
      exact Or.inl ⟨same.symm, rfl, rfl, rfl⟩
  · split at live
    · next same =>
        cases live
        exact Or.inr ⟨same.symm, rfl, rfl, rfl⟩
    · cases live

omit consistent in
theorem consistent_ground
    (world : σ) : (groundMachine config world).Consistent collects := by
  have object : (groundMachine config world).Tags (.object ⟨0⟩) :=
    ⟨.ordinary, rfl, fun callable => by cases callable⟩
  have function : (groundMachine config world).Tags (.object ⟨1⟩) :=
    ⟨.native { name := "", behavior := .builtin .emptyFunction }, rfl, fun _ => rfl⟩
  have empty : ({} : Heap ObjectKind).Tidy := Heap.tidy_empty
  have vouched : (groundMachine config world).Vouches (Value.object ⟨0⟩) := vouches_value.2 object
  refine consistent_onHeap config world ((empty.allocate _ _).allocate _ _)
    (fun {id held} live => ?_) fun id member => ?_
  · rcases groundHeap_objects live with ⟨_, prototype, entries, payload⟩ |
      ⟨_, prototype, entries, payload⟩
    · refine ⟨vouches_object.2 ⟨?_, ?_, ?_⟩, payload ▸ inferInstance⟩
      · rw [prototype]
        exact vouches_some.2 (@vouches_id_object _ _ ⟨0⟩ vouched)
      · rw [entries]
        exact vouches_of_nil rfl
      · rw [payload]
        exact vouches_of_nil rfl
    · refine ⟨vouches_object.2 ⟨?_, ?_, ?_⟩, payload ▸ inferInstance⟩
      · rw [prototype]
        exact vouches_none
      · rw [entries]
        exact vouches_of_nil rfl
      · rw [payload]
        exact vouches_of_nil rfl
  · simp only [Intrinsics.roots, groundIntrinsics, List.mem_cons, List.not_mem_nil, or_false]
      at member
    have either : id = ⟨0⟩ ∨ id = ⟨1⟩ := by
      rcases member with same | same | same | same | same | same | same | same | same | same |
        same | same | same | same | same | same | same | same <;> simp [same]
    rcases either with rfl | rfl
    · exact object
    · exact function

omit consistent in
theorem acyclic_ground
    (world : σ) : (groundMachine config world).Acyclic := by
  have first : (groundMachine config world).ChainEnds ⟨0⟩ := by
    refine .link fun prototype linked => ?_
    obtain ⟨object, live, links⟩ := Option.bind_eq_some_iff.1 linked
    rcases groundHeap_objects live with ⟨other, _⟩ | ⟨_, none, _⟩
    · cases other
    · rw [none] at links
      cases links
  intro id
  refine .link fun prototype linked => ?_
  obtain ⟨object, live, links⟩ := Option.bind_eq_some_iff.1 linked
  rcases groundHeap_objects live with ⟨_, above, _⟩ | ⟨_, none, _⟩
  · rw [above] at links
    cases links
    exact first
  · rw [none] at links
    cases links

end Builtins

/-! ## Replacing the intrinsics -/

namespace Machine

variable {intrinsics : Intrinsics}

/-- Only the prototype of functions tells how values name objects. -/
theorem accepts_withIntrinsics
    (same : intrinsics.functionPrototype = machine.intrinsics.functionPrototype)
    {item : Item} :
    Accepts { machine with intrinsics } item ↔ machine.Accepts item := by
  have tags : ∀ value, Tags { machine with intrinsics } value ↔ machine.Tags value := by
    intro value
    cases value with
    | object id =>
        show (∃ kind, machine.kind? id = some kind ∧
          (kind.isCallable = true -> id = intrinsics.functionPrototype)) ↔ _
        rw [same]
        rfl
    | _ => rfl
  cases item with
  | captured id =>
      unfold Accepts
      dsimp only
      split <;> simp only [tags]
  | object id | promise id => rfl
  | _ =>
      unfold Accepts
      simp only [tags]

theorem Consistent.withIntrinsics
    (consistent : machine.Consistent collects)
    (same : intrinsics.functionPrototype = machine.intrinsics.functionPrototype)
    (roots : ∀ id ∈ intrinsics.roots, machine.Vouches (Value.object id)) :
    Consistent collects { machine with intrinsics } := by
  have vouches : ∀ {α : Type} [Carrier α] {data : α}, machine.Vouches data ->
      Vouches { machine with intrinsics } data :=
    fun vouched => ⟨fun item member => (accepts_withIntrinsics same).2 (vouched.accepts item member)⟩
  refine ⟨consistent.tidy, fun live => vouches (consistent.objects live),
    vouches consistent.frames, vouches consistent.microtasks, vouches consistent.rejections,
    vouches consistent.unhandled, fun id member => vouches_value.1 (vouches (roots id member)),
    ?_, ⟨consistent.attended.hosts, consistent.attended.tasks, consistent.attended.microtasks⟩,
    consistent.resumes.of_same rfl rfl⟩
  exact consistent.tied.mono (fun held => frameAt_of_same held rfl rfl) fun stands => stands

end Machine

/-- What is installed on the first two prototypes leaves a consistent machine. -/
theorem Builtins.installed_settles
    (config : Config)
    (world : σ)
    (computation : Install Intrinsics)
    (installs : Ensures collects True (groundMachine config world)
      (computation.onMachine : Exec σ Intrinsics)
      fun after intrinsics =>
        intrinsics.functionPrototype = (groundMachine config world).intrinsics.functionPrototype ∧
        ∀ id ∈ intrinsics.roots, after.Vouches (Value.object id)) :
    let installed := (computation.run ⟨1⟩).run groundHeap
    Consistent collects
        { groundMachine config world with heap := installed.2, intrinsics := installed.1 } ∧
      Acyclic
        { groundMachine config world with heap := installed.2, intrinsics := installed.1 } := by
  let env : Env σ :=
    { fuel := 0, watch := fun _ => true, perform := fun _ machine => .error .outOfFuel machine }
  have kept := installs env ⟨fun _ _ _ _ => trivial⟩
  unfold Install.onMachine at kept
  obtain ⟨follows, same, roots⟩ := kept
  have acyclic := follows.acyclic (fun _ _ => rfl) (acyclic_ground config world)
  exact ⟨follows.consistent.withIntrinsics same roots,
    acyclic.mono (fun linked => linked) fun stands _ => stands⟩

theorem Builtins.newMachine_settles (collects : Bool) (config : Config) (world : σ) :
    (newMachine config world).Consistent collects ∧ (newMachine config world).Acyclic := by
  have ground : (groundMachine config world).Consistent collects := consistent_ground config world
  have vouched : (groundMachine config world).Vouches (Value.object ⟨0⟩) :=
    vouches_intrinsic (.head _)
  have settles := installed_settles config world (Install.everything ⟨0⟩) (ensures_everything ⟨0⟩)
  rw [← initialHeap_eq] at settles
  exact settles

end ScriptVM

import ScriptVM.Proofs.Balance
import ScriptVM.Proofs.Discipline.Operations

/-!
# Balance of operations

## Disciplines for which promises do not matter

Some disciplines let every change of a promise pass, every job that the machine queues and
every change of what functions share. So all that promises do is lawful for them.
-/

namespace ScriptVM

variable {σ α : Type}

/-- A closed discipline that lets every guarded change pass, whatever becomes of promises. -/
class Discipline.Indifferent (discipline : Discipline σ) : Prop extends discipline.Closed where
  next (machine : Machine σ) :
    discipline.knows machine -> discipline.unguarded machine.heap.nextId
  /-- A change only matters where what is known holds. -/
  known {before after : Machine σ} :
    (discipline.knows before -> discipline.passes before after) ->
    discipline.passes before after
  heap (machine : Machine σ) {heap : Heap ObjectKind} :
    GuardedChange discipline.unguarded machine.heap heap ->
    discipline.passes machine { machine with heap }
  setPromise (machine : Machine σ) (id : ObjectId)
    {old : PromiseRecord Value Reaction} (record : PromiseRecord Value Reaction) :
    machine.promise? id = some old -> discipline.passes machine (machine.setPromise id record)
  allocate (machine : Machine σ) (prototype : Option ObjectId) (kind : ObjectKind)
    [kind.Codeless] : discipline.passes machine (machine.allocate prototype kind).2
  cells (machine : Machine σ) {cells : Cells} :
    CellsChange machine.cells cells -> discipline.passes machine { machine with cells }
  tables (machine : Machine σ) (symbols : Array (Option String))
    (rejections : Rejections ObjectId) (unhandled : List Value)
    (journal : Array (PromiseEvent σ)) :
    discipline.passes machine { machine with symbols, rejections, unhandled, journal }
  /-- Queue a microtask of the machine itself. -/
  enqueue (machine : Machine σ) (job : Job σ) :
    (∀ body, job ≠ .host body) -> discipline.passes machine (machine.enqueueJob job)
  withNativeDepth {α : Type} {computation : Exec σ α} :
    discipline.obeys computation -> discipline.obeys (Exec.withNativeDepth computation)
  settlesAny (promise : ObjectId) : discipline.settles promise
  registersAny (reaction : Reaction) : discipline.registers reaction

variable {discipline : Discipline σ} [indifferent : discipline.Indifferent]

/-! ## Changes of a machine -/

namespace Discipline.Indifferent

variable (machine : Machine σ)

theorem passes_rejections (rejections : Rejections ObjectId) :
    discipline.passes machine { machine with rejections } :=
  indifferent.tables machine machine.symbols rejections machine.unhandled machine.journal

theorem passes_note (event : PromiseEvent σ) : discipline.passes machine (machine.note event) :=
  indifferent.tables machine machine.symbols machine.rejections machine.unhandled _

/-- What is reported after a checkpoint passes. -/
theorem passes_checkpointFinished (env : Env σ) (machine : Machine σ) :
    discipline.passes machine ((Machine.scheduler env).checkpointFinished machine) := by
  refine indifferent.trans ?_ (passes_note _ .finished)
  split
  · exact indifferent.tables machine machine.symbols _ _ machine.journal
  · exact indifferent.refl machine

theorem passes_enqueueReaction (reaction : Reaction) (settlement : Settlement) (value : Value) :
    discipline.passes machine
      (machine.enqueueJob (Machine.reactionJob reaction settlement value)) :=
  indifferent.enqueue machine _ nofun

theorem passes_enqueueReactions
    (reactions : List Reaction)
    (machine : Machine σ)
    (settlement : Settlement)
    (value : Value) :
    discipline.passes machine
      (reactions.foldl (fun machine reaction =>
        machine.enqueueJob (Machine.reactionJob reaction settlement value)) machine) := by
  induction reactions generalizing machine with
  | nil => exact indifferent.refl machine
  | cons reaction rest step =>
      exact indifferent.trans (passes_enqueueReaction machine reaction settlement value) (step _)

theorem passes_settlePromise (promise : ObjectId) (settlement : Settlement) (value : Value) :
    discipline.passes machine (machine.settlePromise promise settlement value).2 := by
  unfold Machine.settlePromise
  split
  · exact indifferent.refl machine
  · next record present =>
      dsimp only
      split
      · exact indifferent.refl machine
      · next reactions settled _ =>
          refine indifferent.trans (indifferent.setPromise machine promise settled present) ?_
          refine indifferent.trans (passes_note _ (.settled promise settlement value)) ?_
          split
          · exact indifferent.trans (passes_rejections _ _)
              (passes_enqueueReactions reactions _ settlement value)
          · exact passes_enqueueReactions reactions _ settlement value

theorem passes_registerReaction (promise : ObjectId) (reaction : Reaction) :
    discipline.passes machine (machine.registerReaction promise reaction).2 := by
  unfold Machine.registerReaction
  split
  · exact indifferent.refl machine
  · next record present =>
      have noted := indifferent.trans
        (indifferent.setPromise machine promise (record.register reaction).2 present)
        (passes_note _ (.registered promise reaction))
      dsimp only
      split
      · exact indifferent.trans noted (passes_rejections _ _)
      · exact indifferent.trans noted
          (indifferent.trans (passes_rejections _ _) (passes_enqueueReaction _ _ _ _))

theorem passes_createNative (native : NativeFunction) (arity : Nat) :
    discipline.passes machine (machine.createNative native arity).2 := by
  refine indifferent.known fun known => ?_
  have free : discipline.unguarded (machine.allocate
      (some machine.intrinsics.functionPrototype) (.native native)).1 :=
    (machine.heap.allocate_fst _ _) ▸ indifferent.next machine known
  have tells := machine.heap.tells_allocate (some machine.intrinsics.functionPrototype)
    (fun store => @ObjectKind.noConfusion _ (.native native) (.array store))
  exact indifferent.trans (indifferent.allocate machine _ (.native native))
    (indifferent.trans (indifferent.heap _ (.define _ _ _ _ free (tells _)))
      (indifferent.heap _ (.define _ _ _ _ free (Heap.tells_of_plain _ _ _))))

theorem passes_createResolvingFunctions (promise : ObjectId) :
    discipline.passes machine (machine.createResolvingFunctions promise).2 :=
  indifferent.trans (indifferent.cells machine (.share machine.cells _ _))
    (indifferent.trans (passes_createNative _ _ 1) (passes_createNative _ _ 1))

theorem passes_updateAggregate
    (id : AggregateId)
    (fallback : α)
    (operation : Aggregate Value -> α × Aggregate Value) :
    discipline.passes machine
      { machine with cells := (machine.cells.updateAggregate id fallback operation).2 } := by
  unfold Cells.updateAggregate
  split
  · exact indifferent.refl machine
  · exact indifferent.cells machine (.share machine.cells _ _)

instance (priority := low) lawful_of_indifferent : discipline.Lawful where
  next := indifferent.next
  fresh _ _ := indifferent.settlesAny _
  known := indifferent.known
  heap := indifferent.heap
  allocate machine prototype kind _ := indifferent.allocate machine prototype kind
  cells machine _ change _ := indifferent.cells machine change
  symbols machine symbols :=
    indifferent.tables machine symbols machine.rejections machine.unhandled machine.journal
  takeUnhandled machine := indifferent.tables machine machine.symbols machine.rejections [] _
  withNativeDepth := indifferent.withNativeDepth
  allocatePromise machine prototype :=
    indifferent.trans (indifferent.allocate machine (some prototype) (.promise {}))
      (passes_note _ _)
  settlePromise machine promise settlement value _ :=
    passes_settlePromise machine promise settlement value
  registerReaction machine promise reaction _ := passes_registerReaction machine promise reaction
  registers {reaction} _ _ := indifferent.registersAny reaction
  adopt machine promise thenable thenMethod _ :=
    indifferent.trans
      (indifferent.enqueue machine (.resolveThenable promise thenable thenMethod) nofun)
      (passes_note _ _)
  createResolvingFunctions machine promise _ := passes_createResolvingFunctions machine promise
  createElement machine _ _ _ _ _ :=
    passes_createNative machine _ 1
  addAggregate machine _ := indifferent.cells machine (.share machine.cells _ _)
  updateAggregate := passes_updateAggregate

instance settling (promise : ObjectId) : discipline.Settling promise :=
  ⟨indifferent.settlesAny promise⟩

end Discipline.Indifferent

/-! ## Functions that settle promises -/

namespace Exec

instance (promise : ObjectId) (reaction : Reaction) :
    Obeys discipline (registerReaction promise reaction : Exec σ Unit) :=
  obeys_registerReaction promise (indifferent.registersAny reaction)

instance (promise : ObjectId) (latch : LatchId) (reject : Bool) (value : Value) :
    Obeys discipline (callResolving promise latch reject value : Exec σ Unit) :=
  obeys_callResolving (fun machine => indifferent.cells machine (.share machine.cells _ _))
    promise reject value

theorem obeys_runSettler_of_indifferent
    {behavior : NativeBehavior}
    {promise : ObjectId}
    (settles : behavior.settles? = some promise)
    (receiver : Value)
    (arguments : List Value) :
    Obeys discipline (runNative behavior receiver arguments : Exec σ Value) :=
  obeys_runSettler settles
    (fun _ _ _ machine => indifferent.cells machine (.share machine.cells _ _)) receiver arguments

end Exec
end ScriptVM

/-!
## Balance of operations

Balance is a lawful discipline, since every guarded change of the heap is a transition, and
promises do not matter for it.
So all operations that obey every lawful discipline are balanced.
-/

namespace ScriptVM

variable {σ α : Type}

namespace Exec

/-- Quiet changes pass, and under the watch a fine result is a trace that settles with the
same calls under way. -/
def balance (watch : Sight σ -> Bool) : Discipline σ where
  knows _ := True
  unguarded _ := True
  passes before after := ∀ origins, Quietly origins before after
  keeps machine result := ∀ origins, Stage.Ready watch ⟨origins, machine⟩ ->
    Traced ⟨origins, machine⟩ (fun _ stage => Stage.SameCalls ⟨origins, machine⟩ stage) result
  watches other := other = watch

variable {watch : Sight σ -> Bool} {origins : Origins}

theorem balanced_iff (computation : Exec σ α) :
    Balanced computation ↔ ∀ watch, (balance watch).obeys computation := by
  constructor
  · rintro balanced _ env ⟨rfl, performs⟩ machine origins ready
    exact balanced.balancedIn env (fun invocation start => performs invocation _ _) _ ready
  · intro obeys
    exact ⟨fun env sound start ready => obeys env.watch env
      ⟨rfl, fun invocation machine origins => sound invocation ⟨origins, machine⟩⟩ _ _ ready⟩

/-- Replacing the record of a promise is quiet. -/
theorem Quietly.setPromise
    (machine : Machine σ)
    (id : ObjectId)
    {old : PromiseRecord Value Reaction}
    (record : PromiseRecord Value Reaction)
    (present : machine.promise? id = some old) :
    Quietly origins machine (machine.setPromise id record) := by
  have was : ∀ kind, machine.heap.payload? id = some kind -> kind = .promise old :=
    fun kind held => Option.some.inj (held.symm.trans (Machine.kind?_of_promise? present))
  have changes : HeapChange origins machine.heap
      (machine.heap.modifyPayload id fun _ => .promise record) := by
    refine .modifyPayload machine.heap id _ fun kind held => ?_
    rw [was kind held]
    exact ⟨.promise old record, fun covered => covered⟩
  have calm : machine.heap.Calm (machine.heap.modifyPayload id fun _ => .promise record) := by
    refine .modifyPayload machine.heap id fun kind held coroutine => ?_
    rw [was kind held]
    exact ⟨ObjectKind.noConfusion, ObjectKind.noConfusion⟩
  exact .heap machine changes fun _ => calm

instance : (balance watch).Indifferent where
  next _ _ := trivial
  known passes := passes trivial
  refl machine _ := .refl machine
  trans earlier later origins := (earlier origins).trans (later origins)
  heap machine _ change origins := .heap machine (change.heapChange origins) fun _ => change.calm
  allocate machine prototype _ codeless origins :=
    .allocate machine prototype (codeless.covered origins) codeless.still
  setPromise machine id _ record present origins := .setPromise machine id record present
  settlesAny _ := trivial
  registersAny _ := trivial
  cells machine _ change origins := .cells machine change
  tables machine symbols rejections unhandled journal origins :=
    ⟨.single (.tables origins machine symbols machine.jobs rejections unhandled machine.hosts
      journal machine.world), ⟨rfl, rfl⟩, fun _ => .refl machine.heap⟩
  enqueue machine job _ origins := .enqueueJob machine job
  relevant keeps := keeps trivial
  settles answer passes origins ready :=
    ⟨origins, (passes origins).leads, (passes origins).sameCalls ready.coherent⟩
  throws exception passes origins ready :=
    ⟨origins, (passes origins).leads, (passes origins).sameCalls ready.coherent⟩
  shows passes origins _ := ⟨.machine _, .machine origins (passes origins).leads⟩
  stops _ _ _ _ := trivial
  resume settled later origins ready := by
    obtain ⟨known, leads, same⟩ := settled origins ready
    exact .after_leads leads ((later known (ready.later leads same)).mono
      fun _ _ _ further => same.trans further)
  interrupts _ _ kept := kept
  catches _ kept := kept
  withNativeDepth obeys env sound machine origins ready := by
    obtain ⟨rfl, performs⟩ := sound
    have balanced : BalancedIn env _ :=
      fun start ready => obeys env ⟨rfl, performs⟩ start.machine start.origins ready
    exact balanced.withNativeDepth ⟨origins, machine⟩ ready

/-- Nor does it matter what becomes a property. -/
instance (id : ObjectId) (key : PropertyKey) (property : Property) :
    Obeys (balance watch) (defineRaw id key property : Exec σ Unit) :=
  .update _ fun machine _ => .defineRaw machine id key property

/-- What obeys every lawful discipline is balanced. -/
instance (priority := low) balanced_of_obeys
    (computation : Exec σ α)
    [obeys : ∀ watch, Obeys (balance watch) computation] :
    Balanced computation :=
  (balanced_iff computation).2 fun watch => (obeys watch).obeys

/-- What passes under balance is quiet, whatever came up before. -/
theorem Quietly.ofPasses
    {before after : Machine σ}
    (passes : (balance fun _ => false).passes before after) :
    Quietly origins before after :=
  passes origins

/-- Turning a constructor into a class is balanced. -/
instance (constructor : Value) (heritage : Option Value) :
    Balanced (createClass constructor heritage : Exec σ Unit) := by
  unfold createClass
  split
  · infer_instance
  · next id _ =>
      refine .bind inferInstance fun prototypes => ?_
      refine .bind inferInstance fun prototype => ?_
      refine .bind inferInstance fun _ => ?_
      refine .bind inferInstance fun _ => ?_
      refine balanced_update _ fun origins machine _ => ?_
      have linked : Quietly origins machine
          (machine.modifyHeap fun heap => heap.setPrototype id (some prototypes.2)) :=
        .heap machine (.setPrototype machine.heap id _) fun _ =>
          .of_payload fun other => machine.heap.payload?_setPrototype id other _
      exact linked.trans (.ofPasses (Discipline.passes_modifyClosure _ id _ fun _ =>
        ⟨_, _, rfl⟩))

end Exec
end ScriptVM

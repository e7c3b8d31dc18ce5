import ScriptVM.Builtins.Install
import ScriptVM.Proofs.Calls
import ScriptVM.Proofs.FreeLists
import ScriptVM.Proofs.Templates

/-!
# Visible sights

A sight is visible if some embedder can come across it: the machine of an embedder that
ran any number of host programs, or what the watch sees during the next one. Every
visible sight is the end of transitions that begin with an empty heap.
-/

namespace ScriptVM

variable {σ α β : Type}

/-! ## Installing the built-ins -/

/-- One change of the heap that needs no origins and leaves the coroutines alone. -/
structure Heap.Settles (before after : Heap ObjectKind) : Prop where
  change : HeapChange Origins.none before after
  calm : before.Tidy -> before.Calm after

theorem Heap.Settles.allocate
    (heap : Heap ObjectKind)
    (prototype : Option ObjectId)
    (kind : ObjectKind)
    [codeless : kind.Codeless] :
    heap.Settles (heap.allocate prototype kind).2 where
  change := .allocate heap prototype kind (codeless.covered _)
  calm tidy := .allocate tidy prototype codeless.still

theorem Heap.Settles.define
    (heap : Heap ObjectKind)
    (id : ObjectId)
    (key : PropertyKey)
    (property : Property) :
    heap.Settles (heap.define id key property) where
  change := .define heap id key property
  calm _ := .of_payload fun other => heap.payload?_define id other key property

namespace Builtins

/-- A computation fills the heap by changes that need no origins. -/
class Builds (computation : Install α) : Prop where
  leads (functionPrototype : ObjectId) (heap : Heap ObjectKind) :
    Relation.ReflTransGen Heap.Settles heap
      ((computation.run functionPrototype).run heap).2

namespace Builds

theorem bind
    {first : Install α}
    {next : α -> Install β}
    (earlier : Builds first)
    (later : ∀ answer, Builds (next answer)) :
    Builds (first >>= next) where
  leads functionPrototype heap :=
    (earlier.leads functionPrototype heap).trans
      ((later ((first.run functionPrototype).run heap).1).leads functionPrototype _)

instance builds_bind
    {first : Install α}
    {next : α -> Install β}
    [earlier : Builds first]
    [later : ∀ answer, Builds (next answer)] :
    Builds (first >>= next) :=
  bind earlier later

instance builds_pure (answer : α) : Builds (pure answer : Install α) where
  leads _ _ := .refl

instance : Builds (read : Install ObjectId) where
  leads _ _ := .refl

instance {step : β -> Install PUnit} [∀ item, Builds (step item)] (items : List β) :
    Builds (items.forM step) := by
  induction items with
  | nil => exact builds_pure ()
  | cons item rest later => exact builds_bind

instance (target : ObjectId) (key : PropertyKey) (property : Property) :
    Builds (Install.define target key property) where
  leads _ heap := .single (.define heap target key property)

instance (target : ObjectId) (prototype : Option ObjectId) :
    Builds (modify fun heap => heap.setPrototype target prototype : Install Unit) where
  leads _ heap := .single ⟨.setPrototype heap target prototype, fun _ =>
    .of_payload fun other => heap.payload?_setPrototype target other prototype⟩

instance (prototype : ObjectId) : Builds (Install.object prototype) where
  leads _ heap := .single (.allocate heap (some prototype) .ordinary)

instance (prototype : Option ObjectId) :
    Builds (Install.allocate prototype (.array {})) where
  leads _ heap := .single (.allocate heap prototype (.array {}))

instance (function : NativeFunction) (arity : Nat) :
    Builds (Install.native function arity) where
  leads functionPrototype heap := by
    have made : heap.Settles
        (heap.allocate (some functionPrototype) (.native function)).2 :=
      .allocate heap (some functionPrototype) (.native function)
    exact ((Relation.ReflTransGen.single made).tail (.define _ _ _ _)).tail
      (.define _ _ _ _)

instance (name : String) (builtin : Builtin) (arity : Nat) :
    Builds (Install.function name builtin arity) := by
  unfold Install.function
  infer_instance

instance (target : ObjectId) (key : PropertyKey) (value : Value) :
    Builds (Install.hidden target key value) := by
  unfold Install.hidden
  infer_instance

instance (target : ObjectId) (key : PropertyKey) (value : Value) :
    Builds (Install.constant target key value) := by
  unfold Install.constant
  infer_instance

instance (target : ObjectId) (text : String) : Builds (Install.tag target text) := by
  unfold Install.tag
  infer_instance

instance (target : ObjectId) (key : PropertyKey) (name : String) (builtin : Builtin) (arity : Nat) :
    Builds (Install.methodAt target key name builtin arity) := by
  unfold Install.methodAt
  infer_instance

instance (target : ObjectId) (entries : List (String × Builtin × Nat)) :
    Builds (Install.methods target entries) := by
  unfold Install.methods
  infer_instance

instance (name : String) (builtin : Builtin) (construct : BuiltinConstructor) (arity : Nat)
    (prototype : ObjectId) :
    Builds (Install.constructor name builtin construct arity prototype) := by
  unfold Install.constructor
  infer_instance

instance (kind : ErrorKind) (arity : Nat) (prototype : ObjectId) :
    Builds (Install.errorConstructor kind arity prototype) := by
  unfold Install.errorConstructor
  infer_instance

instance (kind : ErrorKind) (prototype : ObjectId) :
    Builds (Install.errorTexts kind prototype) := by
  unfold Install.errorTexts
  infer_instance

instance (global parent parentPrototype : ObjectId) (kind : ErrorKind) (arity : Nat) :
    Builds (Install.errorKind global parent parentPrototype kind arity) := by
  unfold Install.errorKind
  infer_instance

instance (prototype : ObjectId) : Builds (Install.iterators prototype) := by
  unfold Install.iterators
  repeat refine .bind inferInstance fun _ => ?_
  infer_instance

instance (global prototype : ObjectId) : Builds (Install.objects global prototype) := by
  unfold Install.objects
  infer_instance

instance (global : ObjectId) : Builds (Install.functions global) := by
  unfold Install.functions
  infer_instance

instance (global prototype : ObjectId) : Builds (Install.arrays global prototype) := by
  unfold Install.arrays
  infer_instance

instance (global prototype : ObjectId) : Builds (Install.symbols global prototype) := by
  unfold Install.symbols
  infer_instance

instance (global prototype : ObjectId) : Builds (Install.promises global prototype) := by
  unfold Install.promises
  infer_instance

instance (global prototype : ObjectId) : Builds (Install.errors global prototype) := by
  unfold Install.errors
  infer_instance

instance (global : ObjectId) : Builds (Install.proxies global) := by
  unfold Install.proxies
  infer_instance

instance (global : ObjectId) : Builds (Install.globals global) := by
  unfold Install.globals
  infer_instance

instance (prototype : ObjectId) : Builds (Install.everything prototype) := by
  unfold Install.everything
  repeat refine .bind inferInstance fun _ => ?_
  infer_instance

end Builds

/-- Changes of the heap lead to what is installed on two first objects. -/
theorem Builds.onPrototypes
    {computation : ObjectId -> Install α}
    (builds : ∀ prototype, Builds (computation prototype))
    (start : Heap ObjectKind)
    (function : ObjectKind)
    [function.Codeless] :
    let objects := start.allocate none .ordinary
    let functions := objects.2.allocate (some objects.1) function
    Relation.ReflTransGen Heap.Settles start
      (((computation objects.1).run functions.1).run functions.2).2 := by
  intro objects functions
  have first : start.Settles objects.2 := .allocate start none .ordinary
  have second : objects.2.Settles functions.2 :=
    .allocate objects.2 (some objects.1) function
  exact ((Relation.ReflTransGen.single first).tail second).trans ((builds _).leads _ _)

/-- Changes of the heap lead from an empty heap to the one that machines start with. -/
theorem initialHeap_built :
    Relation.ReflTransGen Heap.Settles {} initialHeap.2 := by
  have builds : ∀ prototype, Builds (Install.everything prototype) := fun _ => inferInstance
  unfold initialHeap
  -- What is installed is never looked at.
  generalize Install.everything = computation at builds ⊢
  exact Builds.onPrototypes builds {} _

/-- Machines start without coroutines. -/
theorem initialHeap_calm : Heap.Calm {} initialHeap.2 := by
  have kept : ∀ {heap : Heap ObjectKind}, Relation.ReflTransGen Heap.Settles {} heap ->
      heap.Tidy ∧ Heap.Calm {} heap := by
    intro heap changes
    induction changes with
    | refl => exact ⟨Heap.tidy_empty, .refl _⟩
    | tail _ settles step =>
        exact ⟨settles.change.tidy step.1, step.2.trans (settles.calm step.1)⟩
  exact (kept initialHeap_built).2

end Builtins

/-! ## Machines of an embedder -/

/-- A machine between the host programs of its embedder. -/
inductive Machine.Settled : Machine σ -> Prop
  | new (config : Config) (world : σ) : Settled (Builtins.newMachine config world)
  | returned {before after : Machine σ} {fuel : Nat} {program : HostProgram σ}
      {value : Value} :
      before.Settled -> before.runWithin fuel program = .ok value after -> after.Settled
  | threw {before after : Machine σ} {fuel : Nat} {program : HostProgram σ}
      {exception : Exception} :
      before.Settled -> before.runWithin fuel program = .error (.thrown exception) after ->
      after.Settled

/-- A sight that an embedder can come across. -/
inductive Sight.Visible : Sight σ -> Prop
  | between {machine : Machine σ} : machine.Settled -> Visible { machine }
  /-- In the middle of a host program. -/
  | during {before after : Machine σ} {fuel : Nat} {program : HostProgram σ}
      {watch : Sight σ -> Bool} {sight : Sight σ} :
      before.Settled ->
      Exec.runProgram program (Env.watched fuel watch) before =
        .error (.interrupted sight) after ->
      Visible sight

/-- The sight at which a run was interrupted. -/
def Sight.ofRun? : EStateM.Result (Stop σ) (Machine σ) α -> Option (Sight σ)
  | .error (.interrupted sight) _ => some sight
  | _ => none

/-- The machine where a run ends. -/
def Machine.ofRun? : EStateM.Result (Stop σ) (Machine σ) α -> Option (Machine σ)
  | .ok _ machine => some machine
  | .error _ _ => none

/-- The answer and the machine that a run ends with. -/
def Exec.ended? : EStateM.Result (Stop σ) (Machine σ) α -> Option (α × Machine σ)
  | .ok answer machine => some (answer, machine)
  | .error _ _ => none

theorem Exec.eq_of_ended?
    {result : EStateM.Result (Stop σ) (Machine σ) α}
    {answer : α}
    {machine : Machine σ}
    (ended : (answer, machine) ∈ Exec.ended? result) :
    result = .ok answer machine := by
  cases result with
  | ok => cases ended; rfl
  | error => cases ended

/-- Where the first run of a new machine is interrupted is visible. -/
theorem Sight.visible_of_ofRun?
    {config : Config}
    {world : σ}
    {fuel : Nat}
    {watch : Sight σ -> Bool}
    {program : HostProgram σ}
    {sight : Sight σ}
    (interrupted : sight ∈ Sight.ofRun?
      (Exec.runProgram program (Env.watched fuel watch) (Builtins.newMachine config world))) :
    sight.Visible := by
  cases ran : Exec.runProgram program (Env.watched fuel watch)
      (Builtins.newMachine config world) with
  | ok answer after =>
      rw [ran] at interrupted
      cases interrupted
  | error stop after =>
      rw [ran] at interrupted
      cases stop with
      | interrupted seen =>
          cases interrupted
          exact .during (.new config world) ran
      | _ => cases interrupted

/-- A machine that has a heap and nothing else. -/
def Machine.onHeap
    (heap : Heap ObjectKind)
    (intrinsics : Intrinsics)
    (config : Config)
    (world : σ) : Machine σ :=
  { heap, intrinsics, symbols := SymbolId.wellKnownDescriptions, config, world }

/-- The stage of an empty heap. -/
def Stage.blank
    (intrinsics : Intrinsics)
    (config : Config)
    (world : σ) : Stage σ :=
  ⟨.none, .onHeap {} intrinsics config world⟩

theorem Stage.blank_coherent (intrinsics : Intrinsics) (config : Config) (world : σ) :
    (Stage.blank intrinsics config world).Coherent where
  nested _ _ impossible := impossible.elim
  stack frame member := by cases member
  loose _ impossible := impossible.elim
  objects id kind present := by cases present
  orderly := Or.inr ⟨Heap.tidy_empty, fun _ _ impossible => by cases impossible⟩
  returns := Or.inr fun _ impossible => impossible.elim

/-- Changes of an empty heap are transitions. -/
theorem Stage.blank_leads
    (intrinsics : Intrinsics)
    (config : Config)
    (world : σ)
    {heap : Heap ObjectKind}
    (changes : Relation.ReflTransGen Heap.Settles {} heap) :
    (Stage.blank intrinsics config world).Leads
      ⟨.none, .onHeap heap intrinsics config world⟩ := by
  induction changes with
  | refl => exact .refl
  | tail _ settles step =>
      exact step.tail (.heap _ _ _ settles.change (Or.inr fun tidy => (settles.calm tidy).tends))

/-- Where transitions from an empty heap lead is reached. -/
def Machine.Reached (machine : Machine σ) : Prop :=
  ∃ intrinsics config world origins,
    (Stage.blank intrinsics config world).Leads ⟨origins, machine⟩

/-- What holds with an empty heap and is kept by every transition from a coherent stage with
filed templates holds of every machine that is reached. -/
theorem Machine.Reached.invariant
    {holds : Stage σ -> Prop}
    (start : ∀ intrinsics config world, holds (Stage.blank intrinsics config world))
    (step : ∀ {before after : Stage σ}, before.Coherent -> before.Filed -> holds before ->
      Transition before after -> holds after)
    {machine : Machine σ}
    (reached : machine.Reached) :
    ∃ origins, Stage.Coherent ⟨origins, machine⟩ ∧ Stage.Filed ⟨origins, machine⟩ ∧
      holds ⟨origins, machine⟩ := by
  obtain ⟨intrinsics, config, world, origins, leads⟩ := reached
  have kept : ∀ {before after : Stage σ},
      before.Coherent ∧ before.Filed ∧ holds before -> Transition before after ->
        after.Coherent ∧ after.Filed ∧ holds after :=
    fun ⟨coherent, filed, old⟩ transition =>
      ⟨transition.coherent coherent, transition.filed filed, step coherent filed old transition⟩
  exact ⟨origins, Stage.Leads.invariant kept leads
    ⟨Stage.blank_coherent intrinsics config world, .none _, start intrinsics config world⟩⟩

/-- The closures and frames of a machine that is reached have what their code captures. -/
theorem Machine.Reached.equipped {machine : Machine σ} (reached : machine.Reached) :
    ∃ origins, Stage.Coherent ⟨origins, machine⟩ ∧ Stage.Filed ⟨origins, machine⟩ ∧
      ¬ origins.lax := by
  obtain ⟨intrinsics, config, world, origins, leads⟩ := reached
  refine ⟨origins, leads.coherent (Stage.blank_coherent intrinsics config world), ?_, ?_⟩
  · exact Stage.Leads.invariant Transition.filed leads (.none _)
  · intro lax
    rw [leads.keeps.origins.lax] at lax
    exact lax

theorem Machine.Reached.tidy {machine : Machine σ} (reached : machine.Reached) :
    machine.heap.Tidy := by
  obtain ⟨intrinsics, config, world, origins, leads⟩ := reached
  exact leads.tidy Heap.tidy_empty

theorem Machine.reached_new (config : Config) (world : σ) :
    (Builtins.newMachine config world).Reached :=
  ⟨Builtins.initialHeap.1, config, world, .none,
    Stage.blank_leads Builtins.initialHeap.1 config world Builtins.initialHeap_built⟩

theorem Machine.manned_onHeap
    (intrinsics : Intrinsics)
    (config : Config)
    (world : σ)
    {heap : Heap ObjectKind}
    (calm : Heap.Calm {} heap) :
    (onHeap heap intrinsics config world).Manned none where
  runs id := by
    constructor
    · rintro ⟨coroutine, present, _⟩
      have old := (calm id coroutine).1 (coroutine?_eq_some.1 present)
      cases old
    · intro impossible
      cases impossible
  distinct := .nil
  suited _ impossible := by cases impossible

theorem Machine.manned_new (config : Config) (world : σ) :
    (Builtins.newMachine config world).Manned none :=
  manned_onHeap Builtins.initialHeap.1 config world Builtins.initialHeap_calm

/-- Nothing is lifted for a machine that is reached. -/
theorem Stage.not_lax_of_blank
    {intrinsics : Intrinsics}
    {config : Config}
    {world : σ}
    {stage : Stage σ}
    (leads : (blank intrinsics config world).Leads stage) :
    ¬ stage.origins.lax := by
  intro lax
  rw [leads.keeps.origins.lax] at lax
  exact lax

/-- The machine of a sight is reached, between two instructions it is in a run, and a frame
that suspends out of place has an excuse. -/
def Sight.Reached (sight : Sight σ) : Prop :=
  ∃ intrinsics config world origins,
    (Stage.blank intrinsics config world).Leads ⟨origins, sight.machine⟩ ∧
      (sight.between = true -> Stage.Paused ⟨origins, sight.machine⟩) ∧
        Stage.Excuses origins sight

theorem Sight.Reached.machine {sight : Sight σ} (reached : sight.Reached) :
    sight.machine.Reached := by
  obtain ⟨intrinsics, config, world, origins, leads, _⟩ := reached
  exact ⟨intrinsics, config, world, origins, leads⟩

/-- A run from a machine that is reached leads further from where that was reached. Where it
ends all coroutines that run have their frames on the stack. -/
theorem Machine.Reached.traced
    {machine : Machine σ}
    (reached : machine.Reached)
    (manned : machine.Manned none)
    (computation : Exec σ α)
    [Exec.Balanced computation]
    (fuel : Nat)
    (watch : Sight σ -> Bool) :
    match computation (Env.watched fuel watch) machine with
    | .ok _ after | .error (.thrown _) after => after.Reached ∧ after.Manned none
    | .error (.interrupted sight) _ => sight.Founded ∧ sight.Reached
    | .error .outOfFuel _ => True := by
  obtain ⟨intrinsics, config, world, origins, leads⟩ := reached
  have ready : Stage.Ready watch ⟨origins, machine⟩ := by
    refine ⟨leads.coherent (Stage.blank_coherent intrinsics config world), ?_, Or.inr manned⟩
    intro id spared
    rw [leads.keeps.origins.spared] at spared
    exact spared.elim
  have traced := Exec.Balanced.traced computation (Env.balanced_watched fuel watch) ready
  dsimp only at traced
  cases ran : computation (Env.watched fuel watch) machine with
  | ok answer after =>
      rw [ran] at traced
      obtain ⟨later, further, same⟩ := traced
      have together := leads.trans further
      exact ⟨⟨intrinsics, config, world, later, together⟩,
        (same.manned ready.manned).resolve_left (Stage.not_lax_of_blank together)⟩
  | error stop after =>
      rw [ran] at traced
      cases stop with
      | thrown exception =>
          obtain ⟨later, further, same⟩ := traced
          have together := leads.trans further
          exact ⟨⟨intrinsics, config, world, later, together⟩,
            (same.manned ready.manned).resolve_left (Stage.not_lax_of_blank together)⟩
      | outOfFuel => trivial
      | interrupted sight =>
          obtain ⟨founded, shows⟩ := traced
          cases shows with
          | reached later further paused excuses =>
              exact ⟨founded, intrinsics, config, world, later, leads.trans further, paused,
                excuses⟩
          | freed id spared =>
              rw [leads.keeps.origins.spared] at spared
              exact spared.elim

/-- Between host programs all coroutines that run have their frames on the stack. -/
theorem Machine.Settled.rests {machine : Machine σ} (settled : machine.Settled) :
    machine.Reached ∧ machine.Manned none := by
  induction settled with
  | new config world => exact ⟨Machine.reached_new config world, Machine.manned_new config world⟩
  | @returned before after fuel program answer _ ran step
  | @threw before after fuel program answer _ ran step =>
      have traced := step.1.traced step.2 (Exec.runProgram program) fuel fun _ => false
      unfold runWithin Env.ofFuel at ran
      rwa [ran] at traced

theorem Machine.Settled.reached {machine : Machine σ} (settled : machine.Settled) :
    machine.Reached :=
  settled.rests.1

/-- A visible sight is reached, and what is used at it is an operand of an instruction
that is executed. -/
theorem Sight.Visible.founded {sight : Sight σ} (visible : sight.Visible) :
    sight.Founded ∧ sight.Reached := by
  cases visible with
  | between settled =>
      obtain ⟨intrinsics, config, world, origins, leads⟩ := settled.reached
      exact ⟨.machine _, intrinsics, config, world, origins, leads,
        fun impossible => (by cases impossible), fun _ _ impossible => by cases impossible⟩
  | @during before after fuel program watch _ settled ran =>
      obtain ⟨reached, manned⟩ := settled.rests
      have traced := reached.traced manned (Exec.runProgram program) fuel watch
      rwa [ran] at traced

theorem Sight.Visible.reached {sight : Sight σ} (visible : sight.Visible) :
    sight.Founded ∧ sight.machine.Reached :=
  ⟨visible.founded.1, visible.founded.2.machine⟩

/-! ## What a machine holds -/

namespace Machine

/-- A frame that a machine runs, or that one of its coroutines holds. -/
def Holds
    (machine : Machine σ)
    (frame : Frame) : Prop :=
  frame ∈ machine.stack ∨ ∃ id coroutine,
    machine.kind? id = some (.coroutine coroutine) ∧ coroutine.frame = some frame

/-- A template that a frame or a function object of a machine has, or one nested in it. -/
def Carries
    (machine : Machine σ)
    (template : Template) : Prop :=
  ∃ outer : Template,
    ((∃ frame, machine.Holds frame ∧ frame.template = outer) ∨
      ∃ id closure, machine.kind? id = some (.function closure) ∧ closure.template = outer) ∧
    outer.Within template

theorem holds_top {machine : Machine σ} {frame : Frame} (standing : machine.top? = some frame) :
    machine.Holds frame := by
  obtain ⟨below, stack⟩ := stack_of_top? standing
  exact Or.inl (by rw [stack]; simp)

theorem Holds.carries {machine : Machine σ} {frame : Frame} (held : machine.Holds frame) :
    machine.Carries frame.template :=
  ⟨frame.template, Or.inl ⟨frame, held, rfl⟩, .self⟩

end Machine

namespace Stage.Coherent

variable {origins : Origins} {machine : Machine σ}

theorem admits_held
    (coherent : Coherent ⟨origins, machine⟩)
    {frame : Frame}
    (held : machine.Holds frame) :
    origins.Admits frame := by
  rcases held with running | ⟨id, coroutine, present, parked⟩
  · exact coherent.stack frame running
  · exact coherent.loose frame (coherent.objects id _ present frame parked)

theorem knows_carried
    (coherent : Coherent ⟨origins, machine⟩)
    {template : Template}
    (carried : machine.Carries template) :
    origins.template template := by
  obtain ⟨outer, held, within⟩ := carried
  have known : origins.template outer := by
    rcases held with ⟨frame, standing, rfl⟩ | ⟨id, closure, present, rfl⟩
    · exact (coherent.admits_held standing).template
    · exact (coherent.objects id _ present).template
  induction within with
  | self => exact known
  | nested _ member step => exact coherent.nested _ _ step member

end Stage.Coherent
end ScriptVM

import ScriptVM.Proofs.FrozenObjects
import ScriptVM.Proofs.Pins

/-!
# Pinned properties

Pins are kept by the instructions that change properties without a check, up to where one of
them overwrites what a pin marks, and by a collection that the holder survives. So they are
kept by every run.

A data property that is neither configurable nor writable stays as it is whatever a machine
goes on with, and so does all that a frozen object has, up to where something overwrites it
that does not look at the attributes of properties.
-/

namespace ScriptVM

variable {σ α β : Type} {pin : Pin}

namespace Pin

variable {pin : Pin} {kept : HeapObject ObjectKind -> HeapObject ObjectKind -> Prop}
  [admits : pin.Admits kept]

/-! ## Changes without a check -/

namespace Passes

variable {machine : Machine σ}

/-- A definition passes if the pin does not mark the property. -/
theorem define
    (machine : Machine σ)
    (id : ObjectId)
    (key : PropertyKey)
    (property : Property)
    (apart : pin.Stands machine -> id = pin.object -> ¬ pin.Covers key) :
    pin.Passes kept machine (machine.defineRaw id key property) := by
  refine .ofHeap (.define machine.heap id key property) (fun other kind present _ => ?_)
    fun object live stands => ?_
  · exact ⟨kind, (Heap.payload?_define ..).trans present, .same kind⟩
  · obtain ⟨layout, laid⟩ := stands.laid
    by_cases same : id = pin.object
    · subst same
      obtain ⟨shape, made⟩ := Heap.exists_get?_define live key property
      exact ⟨_, made, admits.put property shape (laid.objects _ object live).distinct
        (apart stands rfl)⟩
    · exact ⟨object, (Heap.get?_define_of_ne same key property).trans live, admits.refl object⟩

/-- The frame of a coroutine is no property. -/
theorem park
    (machine : Machine σ)
    (id : ObjectId)
    (state : CoroutineState)
    (frame : Option Frame) :
    pin.Passes kept machine (machine.park id state frame) := by
  refine modifyPayload machine id _ fun kind _ => ?_
  cases kind with
  | coroutine coroutine => exact ⟨.coroutine coroutine state frame, .plain _ _ rfl rfl⟩
  | _ => exact ⟨.same _, .same _⟩

/-- A write through a slot passes if it does not change a read-only property that the pin
marks. -/
theorem cachedStore
    (machine : Machine σ)
    (id : ObjectId)
    (value : Value)
    (template : TemplateId)
    (slot : Nat)
    (loose : id = pin.object -> ∀ offset key property, machine.Recalls id template slot offset ->
      machine.heap.propertyAt? id offset = some (key, property) -> property.isData = true ->
        property.isWritable = false -> ¬ pin.Covers key) :
    pin.Passes kept machine (machine.cachedStore id value template slot).2 := by
  rcases machine.cachedStore_cases id value template slot with refused |
    ⟨offset, recalls, data, stored⟩
  · rw [refused]
    exact refl machine
  · rw [stored]
    refine .ofHeap (.setValueAt machine.heap id offset value) (fun other kind present _ => ?_)
      fun object live stands => ?_
    · exact ⟨kind, (Heap.payload?_setValueAt ..).trans present, .same kind⟩
    · unfold Heap.setValueAt
      rw [Heap.get?_modify, live]
      split
      · next same =>
          subst same
          refine ⟨_, rfl, ?_⟩
          dsimp only
          split
          · next key property placed =>
              have found : machine.heap.propertyAt? pin.object offset = some (key, property) := by
                unfold Heap.propertyAt?
                rw [live]
                exact placed
              obtain ⟨layout, laid⟩ := stands.laid
              refine admits.setAt _ (laid.objects _ object live).distinct placed
                fun covered fixed => ?_
              refine loose rfl offset key property recalls found ?_ fixed.writable covered
              unfold Heap.hasDataAt at data
              rw [found] at data
              exact data
          · exact admits.refl object
      · exact ⟨object, rfl, admits.refl object⟩

end Passes

/-! ## Instructions that change properties without a check -/

/-- Making a class of another object, or one whose prototype object the pin does not mark,
keeps the pin. -/
theorem obeys_createClass
    (constructor : Value)
    (heritage : Option Value)
    (apart : constructor.objectId? = some pin.object -> ¬ pin.Covers "prototype") :
    Exec.Obeys (pin.discipline kept σ) (Exec.createClass constructor heritage) := by
  unfold Exec.createClass
  split
  · infer_instance
  · next id named =>
      refine .bind inferInstance fun prototypes => ?_
      refine .allocateThen fun prototype frees => .bind inferInstance fun _ => ?_
      refine .bind (.update _ fun machine => ?_) fun _ => .update _ fun machine => ?_
      · exact Passes.define machine id _ _ fun _ same => apart (same ▸ named)
      · have linked : (pin.discipline kept σ).passes machine
            (machine.modifyHeap fun heap => heap.setPrototype id (some prototypes.2)) :=
          Passes.ofGuarded (.setPrototype machine.heap id _)
        exact closed_discipline.trans linked
          (Discipline.passes_modifyClosure _ id _ fun _ => ⟨_, _, rfl⟩)

namespace Kept

variable {env : Env σ} {machine : Machine σ} {template : Template}

variable (sound : (pin.discipline kept σ).Sound env)
include sound

theorem useThen
    (referent : Referent)
    {next : Unit -> Exec σ α}
    (later : ¬ pin.Overwrites { machine, used := some referent } ->
      pin.Kept kept machine (next () env machine)) :
    pin.Kept kept machine ((Exec.use referent >>= next) env machine) := by
  by_cases picked : env.watch { machine, used := some referent } = true
  · have used : Exec.use referent env machine =
        .error (.interrupted { machine, used := some referent }) machine := by
      unfold Exec.use
      exact if_pos picked
    rw [Exec.bind_of_error next used]
    exact fun _ => Passes.refl machine
  · have used : Exec.use referent env machine = .ok () machine := by
      unfold Exec.use
      exact if_neg picked
    rw [Exec.bind_of_ok next used]
    exact later fun overwrites => picked (sound.watches _ (Or.inr overwrites))

theorem readThen
    (register : Register)
    {next : Value -> Exec σ α}
    (later : ¬ pin.Overwrites { machine, used := some (.register register) } ->
      pin.Kept kept machine (next (machine.register register) env machine)) :
    pin.Kept kept machine ((Exec.read register >>= next) env machine) := by
  unfold Exec.read
  rw [bind_assoc]
  exact useThen sound (.register register) later

theorem nameThen
    (template : Template)
    (index : Nat)
    {next : String -> Exec σ α}
    (later : ¬ pin.Overwrites { machine, used := some (.name index) } ->
      ∀ name, template.chunk.string? index = some name ->
        pin.Kept kept machine (next name env machine)) :
    pin.Kept kept machine ((Exec.nameOperand template index >>= next) env machine) := by
  unfold Exec.nameOperand
  rw [bind_assoc]
  refine useThen sound (.name index) fun keeps => ?_
  cases constant : template.chunk.string? index with
  | none => exact Passes.refl machine
  | some name => exact later keeps name constant

/-- Defining a global keeps a pin that does not mark it. -/
theorem defineGlobal
    {index : Nat}
    {source : Register}
    (performs : machine.Performs template (.defineGlobal index source)) :
    pin.Kept kept machine (Exec.act template (.defineGlobal index source) env machine) := by
  unfold Exec.act
  refine nameThen sound template index fun keeps name constant => ?_
  refine readThen sound source fun _ => ?_
  have defines : pin.Passes kept machine
      (machine.defineRaw machine.intrinsics.global name (.plain (machine.register source))) :=
    .define machine _ _ _ fun stands same covered =>
      keeps (.defineGlobal performs constant ⟨same.symm.trans stands.global, covered⟩)
  exact .change sound.watches (fun later => ((),
    later.defineRaw machine.intrinsics.global name (.plain (machine.register source))))
    fun _ => defines

/-- A write through a slot keeps a pin whose property it does not overwrite. -/
theorem setNamed
    {object value : Register}
    {index slot : Nat}
    (performs : machine.Performs template (.setNamed object index value slot)) :
    pin.Kept kept machine (Exec.act template (.setNamed object index value slot) env machine) := by
  unfold Exec.act
  refine nameThen sound template index fun _ name _ => ?_
  refine useThen sound (.cacheSlot slot) fun keeps => ?_
  refine readThen sound object fun _ => readThen sound value fun _ => ?_
  unfold Exec.setNamed
  rw [Exec.ask_bind]
  cases cacheable : if machine.config.inlineCaches then
      (machine.register object).objectId?.filter machine.isPlain else none with
  | none => exact (Exec.obeys_setProperty _ _ _ _).obeys env sound machine
  | some id =>
      have caching : machine.config.inlineCaches = true ∧
          (machine.register object).objectId? = some id := by
        split at cacheable
        · next caching => exact ⟨caching, (Option.filter_eq_some_iff.1 cacheable).1⟩
        · cases cacheable
      have stores : pin.Passes kept machine
          (machine.cachedStore id (machine.register value) template.id slot).2 :=
        .cachedStore machine id _ _ slot fun same offset key property recalls placed data
            readOnly covered => by
          subst same
          exact keeps (.setNamed performs caching.1 caching.2 recalls placed data readOnly covered)
      have stored : pin.Kept kept machine (Exec.change (fun later =>
          later.cachedStore id (machine.register value) template.id slot) env machine) :=
        .change sound.watches _ fun _ => stores
      show (pin.discipline kept σ).keeps machine _
      refine Discipline.keeps_bind stored fun done middle _ => ?_
      have remembers : ∀ machine : Machine σ,
          pin.Passes kept machine (machine.rememberOwn id name template.id slot) := by
        intro machine
        obtain ⟨caches, same⟩ := machine.rememberOwn_machine id name template.id slot
        rw [same]
        exact .beside rfl rfl rfl rfl
      have rest : Exec.Obeys (pin.discipline kept σ) (do
          if !done then
            Exec.setProperty (machine.register object) name (machine.register value)
              template.isStrict
            Exec.update fun machine => machine.rememberOwn id name template.id slot :
          Exec σ Unit) := by
        have update : Exec.Obeys (pin.discipline kept σ) (Exec.update fun machine =>
            machine.rememberOwn id name template.id slot) := .update _ remembers
        infer_instance
      exact rest.obeys env sound middle

/-- Making a class keeps a pin that does not mark its prototype object. -/
theorem createClass
    {constructor : Register}
    {heritage : Option Register}
    (performs : machine.Performs template (.createClass constructor heritage)) :
    pin.Kept kept machine (Exec.act template (.createClass constructor heritage) env machine) := by
  have creates : ∀ heritage, pin.Kept kept machine ((do
      Exec.createClass (<- Exec.read constructor) heritage : Exec σ Unit) env machine) := by
    intro heritage
    refine readThen sound constructor fun keeps => ?_
    refine (obeys_createClass _ heritage fun named covered => ?_).obeys env sound machine
    exact keeps (.createClass performs named covered)
  unfold Exec.act
  cases heritage with
  | none => exact creates none
  | some parent =>
      dsimp only
      rw [Option.mapM_some, map_eq_pure_bind, bind_assoc]
      exact readThen sound parent fun _ => creates _

end Kept

/-! ## Runs -/

instance : (pin.discipline kept σ).Parking where
  beside _ _ _ _ _ _ := .beside rfl rfl rfl rfl
  allocateFunction machine prototype closure := .allocate machine prototype _
  uses machine _ _ := Passes.refl machine
  pauses machine _ := Passes.refl machine
  strays machine _ _ _ := Passes.refl machine
  unchecked {template instruction machine env} unchecked performs sound := by
    cases instruction with
    | defineGlobal => exact Kept.defineGlobal sound performs
    | createClass => exact Kept.createClass sound performs
    | setNamed => exact Kept.setNamed sound performs
    | _ => exact unchecked.elim
  allocateCoroutine machine prototype coroutine _ := .allocate machine prototype _
  park := .park
  awaits _ := trivial

/-- A collection that the holder survives leaves the object behind it as it is. -/
theorem Passes.collect
    (machine : Machine σ)
    (roots : List ObjectId)
    {heap : Heap ObjectKind}
    (collected : (machine.heap.collect (ObjectKind.references machine.cells) roots).2 = heap)
    (alive : heap.contains pin.holder = true) :
    pin.Passes kept machine { machine with heap } := by
  have survives : ∀ {id object}, heap.get? id = some object ->
      machine.heap.get? id = some object :=
    fun live => Heap.get?_collect _ _ roots (collected ▸ live)
  have endures : ∀ id kind, heap.contains id = true -> machine.kind? id = some kind ->
      ∃ after, Machine.kind? { machine with heap } id = some after ∧ kind.Endures after := by
    intro id kind stays present
    obtain ⟨object, live⟩ := Heap.contains_iff.1 stays
    refine ⟨kind, ?_, .same kind⟩
    rw [Machine.kind?_of_live (survives live)] at present
    rw [Machine.kind?_of_live live]
    exact present
  have closed : ∀ id target handler next, heap.contains id = true ->
      machine.kind? id = some (.proxy target handler) -> target.objectId? = some next ->
        machine.heap.contains next = true -> heap.contains next = true := by
    intro id target handler next stays present named standing
    obtain ⟨object, live⟩ := Heap.contains_iff.1 stays
    rw [Machine.kind?_of_live (survives live)] at present
    have refers : next ∈ Heap.references (ObjectKind.references machine.cells) object := by
      unfold Heap.references
      rw [Option.some.inj present]
      exact List.mem_append_right _ (List.mem_filterMap.2 ⟨target, .head _, named⟩)
    subst collected
    have kept := Heap.reference_survives _ _ _ live refers
    unfold Heap.contains
    rw [Heap.get?_collect_eq, if_neg kept]
    exact standing
  refine .known fun stands => ?_
  obtain ⟨layout, laid⟩ := stands.laid
  obtain ⟨behind, live⟩ := Machine.throughProxies_of_endures _ endures closed 0 alive
    stands.behind stands.live
  refine ⟨fun _ => ⟨⟨layout, ?_⟩, live, ?_, stands.global, ?_⟩, fun _ object found => ?_⟩
  · exact collected ▸ (laid.collect _ roots).laid
  · unfold Machine.behindProxies?
    rw [← collected, Heap.size_collect, collected]
    exact behind
  · exact ⟨stands.spares.hosts, stands.spares.tasks, stands.spares.microtasks⟩
  · obtain ⟨same, alive⟩ := Heap.contains_iff.1 live
    cases found.symm.trans (survives alive)
    exact ⟨object, alive, admits.refl object⟩

theorem Passes.collectGarbage
    (machine : Machine σ)
    (roots : List Value)
    (alive : (machine.collectGarbage roots).2.heap.contains pin.holder = true) :
    pin.Passes kept machine (machine.collectGarbage roots).2 := by
  unfold Machine.collectGarbage at alive ⊢
  split
  · exact .refl machine
  · next idle =>
      rw [if_neg idle] at alive
      exact .collect machine _ rfl alive

/-- A microtask may leave its queue. -/
theorem Passes.take
    {machine : Machine σ}
    {job : Job σ}
    {jobs : EventLoop (Job σ) (HostProgram σ)}
    (taken : machine.jobs.nextMicrotask? = some (job, jobs)) :
    pin.Passes kept machine { machine with jobs } := by
  obtain ⟨tasks, microtasks⟩ := EventLoop.nextMicrotask?_spec taken
  refine .outside rfl rfl fun kept => ⟨kept.hosts, fun task member => ?_, fun body member => ?_⟩
  · exact kept.tasks task (tasks ▸ member)
  · exact kept.microtasks body (microtasks ▸ .tail _ member)

/-- A job of the machine keeps the pin. -/
theorem obeys_runJob_of_inner {job : Job σ} (inner : ∀ body, job ≠ .host body) :
    Exec.Obeys (pin.discipline kept σ) (Exec.runJob job) :=
  Exec.obeys_runJob_of_inner inner (fun _ _ => trivial) fun _ _ settlement argument _ =>
    ⟨fun _ sound _ => Exec.keeps_resumeAsync sound (fun _ _ _ _ => trivial) settlement argument⟩

instance hosting_discipline : (pin.discipline kept σ).Hosting where
  spares stands := stands.spares
  avoids {machine} _ := machine.avoids_of_forall fun _ refused => refused
  setWorld _ _ := .outside rfl rfl fun kept => ⟨kept.hosts, kept.tasks, kept.microtasks⟩
  pushHost machine body permits := by
    refine .outside rfl rfl fun kept => ⟨fun other member => ?_, kept.tasks, kept.microtasks⟩
    rcases Array.mem_push.1 member with old | rfl
    · exact kept.hosts other old
    · exact fun receiver arguments => (permits receiver arguments).spares
  enqueueTask machine task permits := by
    refine .outside rfl rfl fun kept => ⟨kept.hosts, fun other member => ?_, kept.microtasks⟩
    rcases List.mem_append.1 member with old | new
    · exact kept.tasks other old
    · exact List.mem_singleton.1 new ▸ permits.spares
  enqueueMicrotask machine body permits := (Pin.Passes.enqueueJob machine (.host body)
    fun other same => Job.host.inj same ▸ permits.spares).trans (.note _ _)
  reschedule machine jobs tasks microtasks := .outside rfl rfl fun kept =>
    ⟨kept.hosts, fun task member => kept.tasks task (tasks member),
      fun body member => kept.microtasks body (microtasks ▸ member)⟩
  finish env machine _ := Discipline.Indifferent.passes_checkpointFinished env machine
  takeMicrotask machine body jobs taken := (Pin.Passes.take taken).trans (.note _ _)
  works {machine job jobs env} _ taken inner sound :=
    Discipline.keeps_microtask ((Pin.Passes.take taken).trans (.note _ _)) (obeys_runJob_of_inner inner) sound
  settlers {machine _ function _ env} receiver arguments _ _ settles sound := by
    have runs : Exec.Obeys (pin.discipline kept σ)
        (Exec.runNative function.behavior receiver arguments : Exec σ Value) :=
      Exec.obeys_runSettler_of_indifferent settles receiver arguments
    exact (Exec.obeys_withNativeDepth _).obeys env sound machine
  setGlobal machine _ _ free := .define machine _ _ _ fun stands same covered =>
    free ⟨same.symm.trans stands.global, covered⟩
  resolves _ _ := trivial
  rejects _ _ := trivial
  discards machine _ := .outside rfl rfl fun kept =>
    ⟨kept.hosts, fun _ member => absurd member List.not_mem_nil,
      fun _ member => absurd member List.not_mem_nil⟩
  collects roots _ _ sound machine := .change sound.watches _ fun alive =>
    .collectGarbage machine roots alive

end Pin
/-! ## What a machine goes on with -/

namespace Pin

/-- What a machine may go on with: an instruction, a run of frames, an operation, a built-in
function, a job, or what an embedder asks for that does not set a global which the pin marks. -/
inductive Allows (pin : Pin) : {α : Type} -> Exec σ α -> Prop
  | step (base : Nat) : Allows pin (Exec.step base)
  | runFrames (base : Nat) : Allows pin (Exec.runFrames base)
  | operation (invocation : Invocation) : Allows pin (Exec.operation invocation)
  | builtin (builtin : Builtin) (receiver : Value) (arguments : List Value) :
      Allows pin (Builtins.run builtin receiver arguments)
  | job (job : Job σ) :
      (∀ body, job = .host body -> body.Spares pin.Reserves) -> Allows pin (Exec.runJob job)
  | answer (request : Request) :
      (∀ name value, request = .setGlobal name value -> ¬ pin.Reserves name) ->
      Allows pin (Exec.answer request)
  | program (program : HostProgram σ) :
      program.Spares pin.Reserves -> Allows pin (Exec.runProgram program)

/-- The machine where a run ends or is interrupted while the holder lives. -/
def Shows
    (pin : Pin)
    (machine : Machine σ) : EStateM.Result (Stop σ) (Machine σ) α -> Prop
  | .ok _ after => machine = after
  | .error (.thrown _) after => machine = after
  | .error (.interrupted sight) _ =>
      machine = sight.machine ∧ machine.heap.contains pin.holder = true
  | .error .outOfFuel _ => False

/-- A machine goes on to another one, and on the way the holder lives and nothing overwrites
what the pin marks. -/
inductive Leads (pin : Pin) (before after : Machine σ) : Prop
  | run {α : Type} {computation : Exec σ α} (fuel : Nat) {watch : Sight σ -> Bool} :
      pin.Allows computation ->
      (∀ sight, pin.Ends sight -> watch sight = true) ->
      pin.Shows after (computation (Env.watched fuel watch) before) ->
      Leads pin before after

variable {pin : Pin} {before after : Machine σ}

section Admitted

variable {kept : HeapObject ObjectKind -> HeapObject ObjectKind -> Prop}

theorem Kept.passes
    {result : EStateM.Result (Stop σ) (Machine σ) α}
    (keeps : pin.Kept kept before result)
    (shows : pin.Shows after result) :
    pin.Passes kept before after := by
  cases result with
  | ok answer machine => exact shows ▸ keeps
  | error stop machine =>
      cases stop with
      | thrown exception => exact shows ▸ keeps
      | outOfFuel => exact shows.elim
      | interrupted sight =>
          obtain ⟨rfl, alive⟩ := shows
          exact keeps alive

variable [pin.Admits kept]

theorem Allows.keeps
    {computation : Exec σ α}
    (allows : pin.Allows computation)
    {watch : Sight σ -> Bool}
    (watches : ∀ sight, pin.Ends sight -> watch sight = true)
    (fuel : Nat)
    (machine : Machine σ) :
    pin.Kept kept machine (computation (Env.watched fuel watch) machine) := by
  have sound : ∀ fuel, (pin.discipline kept σ).Sound (Env.watched fuel watch) :=
    Discipline.sound_hosting watches
  have permits : ∀ program : HostProgram σ, program.Spares pin.Reserves ->
      (pin.discipline kept σ).Permits program :=
    fun program spares => ⟨spares, HostProgram.avoids_of_forall (fun _ refused => refused) program⟩
  cases allows with
  | step base => exact (Exec.obeys_step base).obeys _ (sound fuel) machine
  | runFrames base => exact (Exec.obeys_runFrames base).obeys _ (sound fuel) machine
  | operation invocation => exact (sound (fuel + 1)).performs invocation machine
  | builtin builtin receiver arguments =>
      exact (Exec.obeys_runBuiltin builtin receiver arguments).obeys _ (sound fuel) machine
  | job job spares =>
      have runs : Exec.Obeys (pin.discipline kept σ) (Exec.runJob job) := by
        cases job with
        | host body =>
            refine Exec.obeys_runJob _ (fun _ same => permits _ (spares _ same)) ?_ ?_
            · rintro _ ⟨⟩
            · rintro _ _ _ _ ⟨⟩
        | resolveThenable | reaction =>
            refine obeys_runJob_of_inner ?_
            rintro _ ⟨⟩
      exact runs.obeys _ (sound fuel) machine
  | answer request spares =>
      exact (Exec.obeys_answer request spares id).obeys _ (sound fuel) machine
  | program program spares =>
      exact (Exec.obeys_runProgram program (permits program spares)).obeys _ (sound fuel) machine

theorem Leads.passes (leads : pin.Leads before after) : pin.Passes kept before after := by
  obtain ⟨fuel, allows, watches, shows⟩ := leads
  exact (allows.keeps watches fuel before).passes shows

/-- What one run admits of the object, any number of them does. -/
theorem admitted_of_leads (leads : Relation.ReflTransGen pin.Leads before after) :
    pin.Passes kept before after := by
  induction leads with
  | refl => exact .refl before
  | tail _ last earlier => exact earlier.trans last.passes

end Admitted

/-- What the pin marks is kept by any number of runs. -/
theorem passes_of_leads (leads : Relation.ReflTransGen pin.Leads before after) :
    pin.Passes (HeapObject.Keeps pin.key?) before after :=
  admitted_of_leads leads

end Pin

/-! ## Visible sights -/

/-- Only setting globals can overwrite what a pin marks on the global object. -/
theorem Machine.spares_of_ne
    (machine : Machine σ)
    (apart : pin.object ≠ pin.global) :
    machine.Spares pin.Reserves := by
  have free : ∀ name, ¬ pin.Reserves name := fun _ reserved => apart reserved.1
  exact ⟨fun body _ receiver arguments => HostProgram.spares_of_forall free _,
    fun task _ => HostProgram.spares_of_forall free task,
    fun body _ => HostProgram.spares_of_forall free body⟩

/-- In a visible sight a pin stands on every object that is alive. -/
theorem Sight.Visible.stands
    {sight : Sight σ}
    (visible : sight.Visible)
    (behind : sight.machine.behindProxies? pin.holder = some pin.object)
    (live : sight.machine.heap.contains pin.object = true)
    (global : sight.machine.intrinsics.global = pin.global)
    (spares : sight.machine.Spares pin.Reserves) :
    pin.Stands sight.machine := by
  obtain ⟨_, _, _, layout, remembers⟩ := visible.reached.2.remembers
  exact ⟨⟨layout, remembers.laid⟩, live, behind, global, spares⟩

namespace Pin

variable {pin : Pin} {before after : Machine σ}

variable (passes : pin.Passes (HeapObject.Keeps pin.key?) before after)
include passes

/-- An own property that is fixed stays while the pin on it is kept. -/
theorem Passes.getOwnProperty?
    (stands : pin.Stands before)
    {key : PropertyKey}
    {property : Property}
    (covers : pin.Covers key)
    (held : before.getOwnProperty? pin.holder key = some property)
    (fixed : property.Fixed) :
    ∃ kept, after.getOwnProperty? pin.holder key = some kept ∧ property.Stays kept := by
  rw [Machine.getOwnProperty?_of_behind stands.behind] at held
  rw [Machine.getOwnProperty?_of_behind (passes.stands stands).behind]
  obtain ⟨object, live⟩ := Heap.contains_iff.1 stands.live
  obtain ⟨later, found, keeps⟩ := passes.keeps stands object live
  exact Machine.ordinaryOwnProperty?_stays live found keeps covers held fixed

/-- What is frozen stays frozen and has the same keys while a pin on all of it is kept. -/
theorem Passes.isFrozen
    (stands : pin.Stands before)
    (whole : pin.key? = none)
    (frozen : before.isFrozen pin.holder = true) :
    after.isFrozen pin.holder = true ∧ after.ownKeys pin.holder = before.ownKeys pin.holder ∧
      ∀ key property, before.getOwnProperty? pin.holder key = some property ->
        ∃ kept, after.getOwnProperty? pin.holder key = some kept ∧ property.Stays kept := by
  obtain ⟨object, live⟩ := Heap.contains_iff.1 stands.live
  obtain ⟨later, found, keeps⟩ := passes.keeps stands object live
  rw [whole] at keeps
  have closed := Machine.frozen_of_isFrozen stands.behind live frozen
  have behind := (passes.stands stands).behind
  refine ⟨Machine.isFrozen_of_frozen behind found (keeps.stays_frozen closed), ?_, ?_⟩
  · rw [Machine.ownKeys_of_behind behind, Machine.ownKeys_of_behind stands.behind]
    exact Machine.ordinaryOwnKeys_of_frozen live found keeps closed
  · intro key property held
    have covers : pin.Covers key := fun only member => by
      rw [whole] at member
      cases member
    refine passes.getOwnProperty? stands covers held ?_
    rw [Machine.getOwnProperty?_of_behind stands.behind] at held
    exact Machine.fixed_of_frozen live closed held

end Pin

/-- What an embedder sets is what it gets. -/
theorem Machine.getGlobal?_setGlobal
    {machine : Machine σ}
    {layout : Layout}
    (laid : machine.heap.Laid layout)
    (live : machine.heap.contains machine.intrinsics.global = true)
    (name : String)
    (value : Value) :
    (machine.setGlobal name value).getGlobal? name = some value := by
  obtain ⟨object, found⟩ := Heap.contains_iff.1 live
  obtain ⟨shape, made⟩ := Heap.exists_get?_define found (.string name) (.hidden value)
  show (Heap.getOwn? _ machine.intrinsics.global _).bind Property.value? = some value
  rw [show (machine.setGlobal name value).heap =
      machine.heap.define machine.intrinsics.global (.string name) (.hidden value) from rfl,
    Heap.getOwn?_of_live made,
    PropertyTable.get?_put_self (laid.objects _ object found).distinct]
  rfl

/-- Pinned properties stay: in all that an embedder can come across, a data property that is
neither configurable nor writable is the same after any number of runs, an object that was
frozen is frozen, and what is frozen keeps its keys, attributes and values. The runs may be of
any kind, with the holder alive and nothing on the way that overwrites what is pinned. An embedder
that sets a global does so on purpose. A write through an inline cache to a read-only property,
and a class that redefines its pinned prototype object, do so by defects. -/
theorem pinned_properties_stay
    {sight : Sight σ}
    (visible : sight.Visible)
    {holder object : ObjectId}
    (behind : sight.machine.behindProxies? holder = some object)
    (live : sight.machine.heap.contains object = true) :
    (∀ (key : PropertyKey) (property : Property) (later : Machine σ),
      sight.machine.getOwnProperty? holder key = some property ->
      property.isData = true -> property.configurable = false -> property.isWritable = false ->
      let pin : Pin := ⟨holder, object, some key, sight.machine.intrinsics.global⟩
      sight.machine.Spares pin.Reserves ->
      Relation.ReflTransGen pin.Leads sight.machine later ->
      later.getOwnProperty? holder key = some property) ∧
    ((sight.machine.freeze object).1 = true ->
      (sight.machine.freeze object).2.isFrozen object = true) ∧
    (sight.machine.isFrozen holder = true -> ∀ later : Machine σ,
      let pin : Pin := ⟨holder, object, none, sight.machine.intrinsics.global⟩
      sight.machine.Spares pin.Reserves ->
      Relation.ReflTransGen pin.Leads sight.machine later ->
      later.isFrozen holder = true ∧ later.ownKeys holder = sight.machine.ownKeys holder ∧
        ∀ key property, sight.machine.getOwnProperty? holder key = some property ->
          ∃ kept, later.getOwnProperty? holder key = some kept ∧ property.Stays kept) ∧
    (object = sight.machine.intrinsics.global -> ∀ name value,
      (sight.machine.setGlobal name value).getGlobal? name = some value) := by
  obtain ⟨_, _, _, layout, remembers⟩ := visible.reached.2.remembers
  refine ⟨?_, ?_, ?_, ?_⟩
  · intro key property later held data configurable writable pin spares leads
    have stands : pin.Stands sight.machine := visible.stands behind live rfl spares
    obtain ⟨kept, found, stays⟩ := (Pin.passes_of_leads leads).getOwnProperty? stands
      (fun only member => (Option.some.inj member).symm) held ⟨configurable, writable⟩
    cases stays.eq_of_isData data
    exact found
  · exact Machine.isFrozen_freeze remembers.laid (Machine.isProxy_of_throughProxies behind)
  · intro frozen later pin spares leads
    have stands : pin.Stands sight.machine := visible.stands behind live rfl spares
    exact (Pin.passes_of_leads leads).isFrozen stands rfl frozen
  · rintro rfl
    exact Machine.getGlobal?_setGlobal remembers.laid live

/-- An object with one property that gets frozen. -/
def freezeProgram : HostProgram Unit :=
  .request .createObject fun object =>
    .request (.set object "x" (.boolean true) true) fun _ =>
      .request (.freeze (object.objectId?.getD ⟨0⟩)) fun _ => .finish (.ok .undefined)

/-- The run of the program until the object is frozen. -/
def freezeRun : EStateM.Result (Stop Unit) (Machine Unit) Value :=
  Exec.runProgram freezeProgram
    (Env.watched 20 fun sight =>
      sight.machine.isFrozen ⟨sight.machine.heap.objects.size - 1⟩)
    (Builtins.newMachine {} ())

/-- A program that sets a global and writes to an object. -/
def writeProgram (object : ObjectId) : HostProgram Unit :=
  .request (.setGlobal "y" .null) fun _ =>
    .request (.set (.object object) "x" .null true) fun _ => .finish (.ok .undefined)

/-- The object died, or an instruction uses something. -/
def writeWatch
    (object : ObjectId)
    (sight : Sight Unit) : Bool :=
  !sight.machine.heap.contains object || sight.used.isSome

/-- The run of this program under the watch. -/
def writeRun
    (object : ObjectId)
    (machine : Machine Unit) : EStateM.Result (Stop Unit) (Machine Unit) Value :=
  Exec.runProgram (writeProgram object) (Env.watched 20 (writeWatch object)) machine

theorem Pin.leads_writeRun
    {machine later : Machine Unit}
    {id : ObjectId}
    (apart : id ≠ machine.intrinsics.global)
    (ended : later ∈ Machine.ofRun? (writeRun id machine))
    (key? : Option PropertyKey) :
    Pin.Leads ⟨id, id, key?, machine.intrinsics.global⟩ machine later := by
  have watches : ∀ sight, Pin.Ends ⟨id, id, key?, machine.intrinsics.global⟩ sight ->
      writeWatch id sight = true := by
    rintro sight (dead | overwrites)
    · unfold writeWatch
      rw [dead]
      rfl
    · cases overwrites <;> exact Bool.or_true _
  have spares : (writeProgram id).Spares
      (Pin.Reserves ⟨id, id, key?, machine.intrinsics.global⟩) :=
    HostProgram.spares_of_forall (fun _ reserved => apart reserved.1) _
  refine .run 20 (.program _ spares) watches ?_
  unfold writeRun at ended
  generalize Exec.runProgram _ _ machine = result at ended ⊢
  cases result with
  | ok answer after => exact (Option.some.inj ended).symm
  | error stop after => cases ended

/-- A property of a frozen object stays, though an embedder writes to it. -/
theorem pinned_properties_stay_writeProgram :
    ∃ sight ∈ Sight.ofRun? freezeRun, ∃ (id : ObjectId) (later : Machine Unit),
      later ∈ Machine.ofRun? (writeRun id sight.machine) ∧
        later.getGlobal? "y" = some .null ∧ sight.machine.getGlobal? "y" = none ∧
        later.getOwnProperty? id "x" = some (.ofData (.boolean true) false true false) ∧
        (sight.machine.freeze id).2.isFrozen id = true ∧ later.isFrozen id = true := by
  have seen : ∃ sight ∈ Sight.ofRun? freezeRun,
      let id : ObjectId := ⟨sight.machine.heap.objects.size - 1⟩
      sight.machine.heap.contains id = true ∧ sight.machine.isProxy id = false ∧
      id ≠ sight.machine.intrinsics.global ∧ (sight.machine.freeze id).1 = true ∧
      sight.machine.isFrozen id = true ∧
      sight.machine.getOwnProperty? id "x" =
        some (.ofData (.boolean true) false true false) ∧
      ∃ later ∈ Machine.ofRun? (writeRun id sight.machine),
        later.getGlobal? "y" = some .null ∧ sight.machine.getGlobal? "y" = none := by
    decide +kernel
  obtain ⟨sight, interrupted, live, bare, apart, froze, frozen, held, later, ended, set,
    unset⟩ := seen
  have leads := Pin.leads_writeRun apart ended
  obtain ⟨stay, freezes, keeps, _⟩ := pinned_properties_stay (Sight.visible_of_ofRun? interrupted)
    (Machine.behindProxies?_of_bare bare) live
  exact ⟨sight, interrupted, _, later, ended, set, unset,
    stay "x" _ later held rfl rfl rfl (sight.machine.spares_of_ne apart) (.single (leads _)),
    freezes froze,
    (keeps frozen later (sight.machine.spares_of_ne apart) (.single (leads _))).1⟩

/-- A program that sets a global. -/
def setProgram : HostProgram Unit :=
  .request (.setGlobal "undefined" .null) fun _ => .finish (.ok .undefined)

/-- An embedder overwrites a global that is neither configurable nor writable. -/
theorem setGlobal_overwrites_pinned :
    ∃ machine : Machine Unit, Sight.Visible { machine } ∧
      ∃ later ∈ Machine.ofRun? (machine.runWithin 1 setProgram),
        ∃ property ∈ machine.getOwnProperty? machine.intrinsics.global "undefined",
          property.isData = true ∧ property.configurable = false ∧
            property.isWritable = false ∧
            later.heap.contains machine.intrinsics.global = true ∧
            later.getOwnProperty? machine.intrinsics.global "undefined" ≠ some property := by
  refine ⟨Builtins.newMachine {} (), .between (.new _ _), ?_⟩
  decide +kernel

end ScriptVM

import ScriptVM.Proofs.CachedWrites
import ScriptVM.Proofs.Discipline.Hosts
import ScriptVM.Proofs.KeptObjects

/-!
# Pins

A pin marks one property of an object, or all that the object has, and names a holder, which
is the object itself or a proxy in front of it. What passes under a pin keeps the fixed
properties that it marks, and a computation keeps the pin if all that it shows of the machine
passes as long as the holder lives. Keeping a pin is a lawful discipline.
-/

namespace ScriptVM

variable {σ α β : Type}

/-! ## Chains of proxies -/

namespace Machine

variable {machine before after : Machine σ} {holder object : ObjectId} {fuel : Nat}

theorem contains_of_kind?
    {id : ObjectId}
    {kind : ObjectKind}
    (present : machine.kind? id = some kind) :
    machine.heap.contains id = true := by
  obtain ⟨found, live, _⟩ := Option.map_eq_some_iff.1 present
  exact Heap.contains_iff.2 ⟨found, live⟩

/-- In front of a live object there are only live proxies. -/
theorem contains_of_throughProxies
    (behind : machine.throughProxies fuel holder = some object)
    (live : machine.heap.contains object = true) :
    machine.heap.contains holder = true := by
  cases fuel with
  | zero => cases behind
  | succ fuel =>
      rw [throughProxies] at behind
      split at behind
      · next present => exact contains_of_kind? present
      · cases behind
        exact live

theorem isProxy_of_throughProxies
    (behind : machine.throughProxies fuel holder = some object) :
    machine.isProxy object = false := by
  induction fuel generalizing holder with
  | zero => cases behind
  | succ fuel step =>
      rw [throughProxies] at behind
      split at behind
      · obtain ⟨next, _, deeper⟩ := Option.bind_eq_some_iff.1 behind
        exact step deeper
      · next other =>
          cases behind
          cases proxy : machine.isProxy object with
          | false => rfl
          | true =>
              obtain ⟨target, handler, present⟩ := exists_proxy_of_isProxy proxy
              exact absurd present (other target handler)

/-- A chain of proxies to a live object stays while the slots on it endure. -/
theorem throughProxies_of_endures
    (stays : ObjectId -> Prop)
    (endures : ∀ id kind, stays id -> before.kind? id = some kind ->
      ∃ later, after.kind? id = some later ∧ kind.Endures later)
    (closed : ∀ id target handler next, stays id ->
      before.kind? id = some (.proxy target handler) -> target.objectId? = some next ->
        before.heap.contains next = true -> stays next)
    {fuel : Nat}
    (extra : Nat)
    (start : stays holder)
    (behind : before.throughProxies fuel holder = some object)
    (live : before.heap.contains object = true) :
    after.throughProxies (fuel + extra) holder = some object ∧ stays object := by
  induction fuel generalizing holder with
  | zero => cases behind
  | succ fuel step =>
      rw [throughProxies] at behind
      rw [Nat.succ_add, throughProxies]
      split at behind
      · next target handler present =>
          obtain ⟨next, named, deeper⟩ := Option.bind_eq_some_iff.1 behind
          obtain ⟨later, stands, kept⟩ := endures holder _ start present
          rw [kept.eq_of_proxy] at stands
          rw [stands]
          dsimp only
          rw [named]
          exact step (closed holder target handler next start present named
            (contains_of_throughProxies deeper live)) deeper
      · next other =>
          cases behind
          refine ⟨?_, start⟩
          obtain ⟨found, alive⟩ := Heap.contains_iff.1 live
          have present := kind?_of_live alive
          obtain ⟨later, stands, kept⟩ := endures object _ start present
          rw [stands]
          cases later with
          | proxy target handler =>
              have proxy := kept.isProxy
              cases kind : found.payload with
              | proxy before handler =>
                  exact absurd (present.trans (congrArg some kind)) (other _ _)
              | _ =>
                  rw [kind] at proxy
                  cases proxy
          | _ => rfl

end Machine

/-! ## Pins -/

/-- One property of an object, or all of them. -/
structure Pin where
  /-- The object or a proxy in front of it. -/
  holder : ObjectId
  /-- The object behind the proxies. -/
  object : ObjectId
  /-- Without a key all properties are meant. -/
  key? : Option PropertyKey
  /-- The global object of the machine. -/
  global : ObjectId

namespace Pin

variable {pin : Pin}

/-- The pin marks the property of this key. -/
def Covers
    (pin : Pin)
    (key : PropertyKey) : Prop :=
  ∀ only ∈ pin.key?, only = key

/-- Setting this global would overwrite what the pin marks. -/
def Reserves
    (pin : Pin)
    (name : String) : Prop :=
  pin.object = pin.global ∧ pin.Covers (.string name)

/-- The machine is in order, and the object of the pin is alive and behind the holder. -/
structure Stands
    (pin : Pin)
    (machine : Machine σ) : Prop where
  laid : ∃ layout, machine.heap.Laid layout
  live : machine.heap.contains pin.object = true
  behind : machine.behindProxies? pin.holder = some pin.object
  global : machine.intrinsics.global = pin.global
  spares : machine.Spares pin.Reserves

/-- A relation between what the object of a pin was and what it is later, which holds for all
changes that operations make: those that follow a check, and those of properties that the pin does
not mark. -/
class Admits
    (pin : Pin)
    (kept : HeapObject ObjectKind -> HeapObject ObjectKind -> Prop) : Prop where
  refl (object : HeapObject ObjectKind) : kept object object
  trans {first second third : HeapObject ObjectKind} :
    kept first second -> kept second third -> kept first third
  step {first second : HeapObject ObjectKind} :
    first.Step second -> first.properties.keys.Nodup -> kept first second
  put {object : HeapObject ObjectKind} {key : PropertyKey} (property : Property)
    (shape : ShapeId) : object.properties.keys.Nodup -> ¬ pin.Covers key ->
    kept object { object with shape, properties := object.properties.put key property }
  /-- A value is overwritten in place. -/
  setAt {object : HeapObject ObjectKind} {key : PropertyKey} {offset : Nat}
    {existing : Property} (property : Property) : object.properties.keys.Nodup ->
    object.properties.at? offset = some (key, existing) ->
    (pin.Covers key -> ¬ existing.Fixed) ->
    kept object { object with properties := object.properties.setAt offset property }

/-- What the pin marks is kept. -/
structure Passes
    (pin : Pin)
    (kept : HeapObject ObjectKind -> HeapObject ObjectKind -> Prop)
    (before after : Machine σ) : Prop where
  stands : pin.Stands before -> pin.Stands after
  keeps : pin.Stands before -> ∀ object, before.heap.get? pin.object = some object ->
    ∃ later, after.heap.get? pin.object = some later ∧ kept object later

/-- The fixed properties that a pin marks are kept. -/
instance (pin : Pin) : pin.Admits (HeapObject.Keeps pin.key?) where
  refl := .refl
  trans := .trans
  step step distinct := step.keeps distinct pin.key?
  put property shape distinct apart := .put distinct shape
    (fun covered => absurd covered apart) fun whole =>
      absurd (fun only member => by rw [whole] at member; cases member) apart
  setAt property distinct stands loose := .setAt distinct stands loose

namespace Stands

variable {machine before after : Machine σ}

theorem bare (stands : pin.Stands machine) : machine.isProxy pin.object = false :=
  Machine.isProxy_of_throughProxies stands.behind

/-- The pin stands after a change under which all slots endure. -/
theorem change
    (stands : pin.Stands before)
    (laid : ∃ layout, after.heap.Laid layout)
    (live : after.heap.contains pin.object = true)
    (size : before.heap.objects.size <= after.heap.objects.size)
    (endures : ∀ id kind, before.kind? id = some kind ->
      ∃ later, after.kind? id = some later ∧ kind.Endures later)
    (intrinsics : after.intrinsics = before.intrinsics)
    (spares : after.Spares pin.Reserves) :
    pin.Stands after where
  laid := laid
  live := live
  behind := by
    obtain ⟨more, sized⟩ := Nat.exists_eq_add_of_le size
    unfold Machine.behindProxies?
    rw [sized, Nat.add_right_comm]
    exact (Machine.throughProxies_of_endures (fun _ => True)
      (fun id kind _ => endures id kind) (fun _ _ _ _ _ _ _ _ => trivial) more trivial
      stands.behind stands.live).1
  global := (congrArg Intrinsics.global intrinsics).trans stands.global
  spares := spares

end Stands

namespace Passes

variable {heap : Heap ObjectKind}

variable {kept : HeapObject ObjectKind -> HeapObject ObjectKind -> Prop}
  {first second third machine before after : Machine σ}

theorem known (passes : pin.Stands before -> pin.Passes kept before after) :
    pin.Passes kept before after where
  stands stands := (passes stands).stands stands
  keeps stands := (passes stands).keeps stands

theorem ofHeap
    (change : HeapChange .all machine.heap heap)
    (endures : ∀ id kind, machine.kind? id = some kind ->
      pin.Stands machine -> ∃ later, heap.payload? id = some later ∧ kind.Endures later)
    (keeps : ∀ object, machine.heap.get? pin.object = some object -> pin.Stands machine ->
      ∃ later, heap.get? pin.object = some later ∧ kept object later) :
    pin.Passes kept machine { machine with heap } := by
  refine known fun stands => ⟨fun _ => ?_, fun _ object live => keeps object live stands⟩
  obtain ⟨layout, old⟩ := stands.laid
  obtain ⟨later, follows⟩ := change.follows old
  obtain ⟨object, live⟩ := Heap.contains_iff.1 stands.live
  obtain ⟨held, alive, _⟩ := keeps object live stands
  exact stands.change ⟨later, follows.laid⟩ (Heap.contains_iff.2 ⟨held, alive⟩) change.size_le
    (fun id kind present => endures id kind present stands) rfl
    ⟨stands.spares.hosts, stands.spares.tasks, stands.spares.microtasks⟩

variable [admits : pin.Admits kept]

theorem refl (machine : Machine σ) : pin.Passes kept machine machine where
  stands stands := stands
  keeps _ object live := ⟨object, live, admits.refl object⟩

theorem trans (earlier : pin.Passes kept first second) (later : pin.Passes kept second third) :
    pin.Passes kept first third where
  stands stands := later.stands (earlier.stands stands)
  keeps stands object live := by
    obtain ⟨middle, found, keeps⟩ := earlier.keeps stands object live
    obtain ⟨last, final, still⟩ := later.keeps (earlier.stands stands) middle found
    exact ⟨last, final, admits.trans keeps still⟩

theorem outside
    (heap : after.heap = before.heap)
    (intrinsics : after.intrinsics = before.intrinsics)
    (spares : before.Spares pin.Reserves -> after.Spares pin.Reserves) :
    pin.Passes kept before after where
  stands stands := by
    refine stands.change ?_ ?_ ?_ ?_ intrinsics (spares stands.spares)
    · rw [heap]
      exact stands.laid
    · rw [heap]
      exact stands.live
    · rw [heap]
    · intro id kind present
      refine ⟨kind, ?_, .same kind⟩
      unfold Machine.kind?
      rw [heap]
      exact present
  keeps _ object live := ⟨object, heap ▸ live, admits.refl object⟩

/-- A change beside the heap and what the embedder left behind. -/
theorem beside
    (heap : after.heap = before.heap)
    (intrinsics : after.intrinsics = before.intrinsics)
    (hosts : after.hosts = before.hosts)
    (jobs : after.jobs = before.jobs) :
    pin.Passes kept before after := by
  refine .outside heap intrinsics fun spares => ⟨?_, ?_, ?_⟩
  · exact hosts ▸ spares.hosts
  · exact jobs ▸ spares.tasks
  · exact jobs ▸ spares.microtasks

theorem note (machine : Machine σ) (event : PromiseEvent σ) :
    pin.Passes kept machine (machine.note event) :=
  .beside rfl rfl rfl rfl

/-- A job of the machine itself may be queued, and a host program that spares what the pin
marks. -/
theorem enqueueJob
    (machine : Machine σ)
    (job : Job σ)
    (spares : ∀ body, job = .host body -> body.Spares pin.Reserves) :
    pin.Passes kept machine (machine.enqueueJob job) := by
  refine .outside rfl rfl fun spared => ⟨spared.hosts, spared.tasks, fun body member => ?_⟩
  rcases List.mem_append.1 member with old | new
  · exact spared.microtasks body old
  · exact spares body (List.mem_singleton.1 new).symm

/-- Guarded changes keep what a pin marks, on an object that is guarded. -/
theorem ofGuarded
    (change : GuardedChange (fun id => id ≠ pin.object) machine.heap heap) :
    pin.Passes kept machine { machine with heap } := by
  refine .ofHeap (change.heapChange .all) (fun id kind present _ => change.endures present)
    fun object live stands => ?_
  obtain ⟨layout, laid⟩ := stands.laid
  obtain ⟨later, found, step⟩ := change.step live (fun apart => apart rfl)
    (Machine.isProxy_of_live stands.bare live)
  exact ⟨later, found, admits.step step (laid.objects _ object live).distinct⟩

/-- The object of a pin is not allocated again. -/
theorem allocate (machine : Machine σ) (prototype : Option ObjectId) (kind : ObjectKind) :
    pin.Passes kept machine (machine.allocate prototype kind).2 := by
  have apart : ∀ id, pin.Stands machine -> machine.heap.contains id = true ->
      (machine.heap.allocate prototype kind).1 ≠ id := by
    rintro id stands alive rfl
    obtain ⟨layout, laid⟩ := stands.laid
    unfold Heap.contains at alive
    rw [laid.tidy.allocated_dead prototype kind] at alive
    cases alive
  show pin.Passes kept machine { machine with heap := (machine.heap.allocate prototype kind).2 }
  refine .ofHeap (.allocate _ _ _ (Origins.covers_all kind)) (fun id kind present stands => ?_)
    fun object live stands => ?_
  · refine ⟨kind, ?_, .same kind⟩
    unfold Heap.payload?
    rw [Heap.get?_allocate_of_ne _ _ _
      (apart id stands (Machine.contains_of_kind? present))]
    exact present
  · rw [Heap.get?_allocate_of_ne _ _ _ (apart _ stands stands.live)]
    exact ⟨object, live, admits.refl object⟩

theorem modifyPayload
    (machine : Machine σ)
    (id : ObjectId)
    (change : ObjectKind -> ObjectKind)
    (evolves : ∀ kind, machine.kind? id = some kind ->
      kind.Evolves (change kind) ∧ kind.Endures (change kind)) :
    pin.Passes kept machine (machine.modifyHeap fun heap => heap.modifyPayload id change) := by
  refine .ofHeap (.modifyPayload machine.heap id change fun kind present =>
    ⟨(evolves kind present).1, fun _ => Origins.covers_all _⟩) (fun other kind present _ => ?_)
    fun object live stands => ?_
  · rw [Heap.payload?_modifyPayload]
    split
    · next same =>
        subst same
        have stood : machine.heap.payload? id = some kind := present
        rw [stood]
        exact ⟨_, rfl, (evolves kind present).2⟩
    · exact ⟨kind, present, .same kind⟩
  · unfold Heap.modifyPayload
    rw [Heap.get?_modify, live]
    split
    · next same =>
        have present := Machine.kind?_of_live (same.symm ▸ live)
        obtain ⟨layout, laid⟩ := stands.laid
        exact ⟨_, rfl, admits.step (.inner (evolves _ present).2 rfl fun closed => closed)
          (laid.objects _ object live).distinct⟩
    · exact ⟨object, rfl, admits.refl object⟩

/-- The record of a promise is no property. -/
theorem setPromise
    (machine : Machine σ)
    (id : ObjectId)
    {old : PromiseRecord Value Reaction}
    (record : PromiseRecord Value Reaction)
    (present : machine.promise? id = some old) :
    pin.Passes kept machine (machine.setPromise id record) := by
  refine modifyPayload machine id (fun _ => .promise record) fun kind held => ?_
  cases held.symm.trans (Machine.kind?_of_promise? present)
  exact ⟨.promise old record, .plain _ _ rfl rfl⟩

end Passes

/-! ## Overwriting -/

/-- An instruction is about to overwrite what the pin marks. The definition of a global is meant
to. The other two are defects: a class gets its prototype object without a check of the property
that it has, and a write through a slot that remembers a place does not ask whether it is
writable. -/
inductive Overwrites (pin : Pin) : Sight σ -> Prop
  | defineGlobal {machine : Machine σ} {template : Template} {index : Nat}
      {source : Register} {name : String} :
      machine.Performs template (.defineGlobal index source) ->
      template.chunk.string? index = some name -> pin.Reserves name ->
      Overwrites pin { machine, used := some (.name index) }
  | createClass {machine : Machine σ} {template : Template} {constructor : Register}
      {heritage : Option Register} :
      machine.Performs template (.createClass constructor heritage) ->
      (machine.register constructor).objectId? = some pin.object -> pin.Covers "prototype" ->
      Overwrites pin { machine, used := some (.register constructor) }
  | setNamed {machine : Machine σ} {template : Template} {object value : Register}
      {name slot offset : Nat} {key : PropertyKey} {property : Property} :
      machine.Performs template (.setNamed object name value slot) ->
      machine.config.inlineCaches = true ->
      (machine.register object).objectId? = some pin.object ->
      machine.Recalls pin.object template.id slot offset ->
      machine.heap.propertyAt? pin.object offset = some (key, property) ->
      property.isData = true -> property.isWritable = false -> pin.Covers key ->
      Overwrites pin { machine, used := some (.cacheSlot slot) }

/-- Nothing more is said about the pin: its holder died, or an instruction overwrites what it
marks. -/
def Ends
    (pin : Pin)
    (sight : Sight σ) : Prop :=
  sight.machine.heap.contains pin.holder = false ∨ pin.Overwrites sight

/-! ## Keeping pins -/

/-- What the pin marks is kept where a computation settles, and where it is interrupted as
long as the holder lives. -/
def Kept
    (pin : Pin)
    (kept : HeapObject ObjectKind -> HeapObject ObjectKind -> Prop)
    (start : Machine σ) : EStateM.Result (Stop σ) (Machine σ) α -> Prop
  | .ok _ machine => pin.Passes kept start machine
  | .error (.thrown _) machine => pin.Passes kept start machine
  | .error (.interrupted sight) _ =>
      sight.machine.heap.contains pin.holder = true -> pin.Passes kept start sight.machine
  | .error .outOfFuel _ => True

/-- Only the object of a pin is guarded, and the watch has to pick all sights at which the pin
ends. -/
def discipline
    (pin : Pin)
    (kept : HeapObject ObjectKind -> HeapObject ObjectKind -> Prop)
    (σ : Type) : Discipline σ where
  knows := pin.Stands
  unguarded id := id ≠ pin.object
  passes := pin.Passes kept
  keeps := pin.Kept kept
  watches watch := ∀ sight, pin.Ends sight -> watch sight = true
  reserved := pin.Reserves

variable {kept : HeapObject ObjectKind -> HeapObject ObjectKind -> Prop}

namespace Kept

variable {machine : Machine σ}

/-- Nothing is to be kept where the pin does not stand. -/
theorem relevant
    {result : EStateM.Result (Stop σ) (Machine σ) α}
    (keeps : pin.Stands machine -> pin.Kept kept machine result) :
    pin.Kept kept machine result := by
  by_cases stands : pin.Stands machine
  · exact keeps stands
  · have passes : ∀ later, pin.Passes kept machine later := fun later =>
      .known fun standing => absurd standing stands
    cases result with
    | ok answer machine => exact passes machine
    | error stop machine =>
        cases stop with
        | thrown exception => exact passes machine
        | outOfFuel => trivial
        | interrupted sight => exact fun _ => passes sight.machine

/-- The watch sees a change that the holder did not survive. -/
theorem change
    {env : Env σ}
    (watches : ∀ sight, pin.Ends sight -> env.watch sight = true)
    (operation : Machine σ -> α × Machine σ)
    (passes : (operation machine).2.heap.contains pin.holder = true ->
      pin.Passes kept machine (operation machine).2) :
    pin.Kept kept machine (Exec.change operation env machine) := by
  unfold Exec.change
  dsimp only
  split
  · exact passes
  · next unpicked =>
      refine passes ?_
      by_contra dead
      exact unpicked (watches _ (Or.inl (Bool.eq_false_iff.2 dead)))

end Kept

variable [admits : pin.Admits kept]

theorem Kept.after
    {before later : Machine σ}
    {result : EStateM.Result (Stop σ) (Machine σ) α}
    (passes : pin.Passes kept before later)
    (keeps : pin.Kept kept later result) :
    pin.Kept kept before result := by
  cases result with
  | ok answer machine => exact passes.trans keeps
  | error stop machine =>
      cases stop with
      | thrown exception => exact passes.trans keeps
      | outOfFuel => trivial
      | interrupted sight => exact fun alive => passes.trans (keeps alive)

instance closed_discipline : (pin.discipline kept σ).Closed where
  refl := Passes.refl
  trans := Passes.trans
  relevant := .relevant
  settles _ passes := passes
  throws _ passes := passes
  shows passes _ := passes
  stops _ _ := trivial
  resume passes keeps := .after passes keeps
  interrupts _ _ keeps := keeps
  catches _ keeps := keeps

instance : (pin.discipline kept σ).Indifferent where
  next machine stands same := by
    obtain ⟨layout, laid⟩ := stands.laid
    have dead := laid.tidy.allocated_dead none ObjectKind.ordinary
    rw [Heap.allocate_fst, same] at dead
    have live := stands.live
    unfold Heap.contains at live
    rw [dead] at live
    cases live
  known := Passes.known
  heap _ _ change := .ofGuarded change
  allocate machine prototype kind _ := .allocate machine prototype kind
  setPromise machine id _ record present := .setPromise machine id record present
  settlesAny _ := trivial
  registersAny _ := trivial
  cells _ _ _ := .beside rfl rfl rfl rfl
  tables _ _ _ _ _ := .beside rfl rfl rfl rfl
  enqueue machine job inner := .enqueueJob machine job fun body same => absurd same (inner body)
  withNativeDepth := Exec.obeys_withNativeDepth_of fun machine nativeDepth =>
    show pin.Passes kept machine { machine with nativeDepth } from .beside rfl rfl rfl rfl

end Pin
end ScriptVM

import ScriptVM.Proofs.Consistency
import ScriptVM.Proofs.FreeLists

/-!
# Changes that sustain a machine

Each change that operations make to the heap, to the shared cells or to the tables of a
machine sustains it, as long as the machine vouches for what is put in.
-/

namespace ScriptVM

variable {σ : Type} {collects : Bool}

/-- Internal slots of an object that cannot be called. -/
class ObjectKind.Plain (kind : ObjectKind) : Prop where
  plain : kind.isCallable = false

namespace ObjectKind

instance : Plain .ordinary := ⟨rfl⟩
instance (store : ArrayStore) : Plain (.array store) := ⟨rfl⟩
instance : Plain .arguments := ⟨rfl⟩
instance : Plain .error := ⟨rfl⟩
instance (coroutine : Coroutine) : Plain (.coroutine coroutine) := ⟨rfl⟩

instance (array : Value) (index : Nat) (done : Bool) :
    Plain (.arrayIterator array index done) := ⟨rfl⟩

/-- The frame that internal slots hold. -/
def frame? : ObjectKind -> Option Frame
  | ObjectKind.coroutine activation => activation.frame
  | _ => none

/-- Internal slots that hold no frame and no reactions. -/
class Frameless (kind : ObjectKind) : Prop where
  frameless : kind.frame? = none
  unawaited : kind.reactions = []

instance : Frameless .ordinary := ⟨rfl, rfl⟩

instance (store : ArrayStore) : Frameless (.array store) := ⟨rfl, rfl⟩

instance (closure : Closure) : Frameless (.function closure) := ⟨rfl, rfl⟩

instance (function : NativeFunction) : Frameless (.native function) := ⟨rfl, rfl⟩

instance (target receiver : Value) (arguments : List Value) :
    Frameless (.bound target receiver arguments) := ⟨rfl, rfl⟩

instance : Frameless .arguments := ⟨rfl, rfl⟩

instance : Frameless .error := ⟨rfl, rfl⟩

instance (state : CoroutineState) (kind : CoroutineKind) :
    Frameless (.coroutine { state, frame := none, kind }) := ⟨rfl, rfl⟩

instance (state : PromiseState Value) (handled : Bool) :
    Frameless (.promise ⟨state, [], handled⟩) := ⟨rfl, rfl⟩

instance (target handler : Value) : Frameless (.proxy target handler) := ⟨rfl, rfl⟩

instance (array : Value) (index : Nat) (done : Bool) :
    Frameless (.arrayIterator array index done) := ⟨rfl, rfl⟩

/-- How internal slots change where the machine stays as it is: the object keeps its nature, the
same frame is parked, the same reactions wait, and an async function is in the same state. -/
structure Persists (before after : ObjectKind) : Prop where
  nature : after.nature = before.nature
  frame : after.frame? = before.frame?
  reactions : after.reactions = before.reactions
  asyncState : after.asyncState? = before.asyncState?

theorem Persists.refl (kind : ObjectKind) : Persists kind kind := ⟨rfl, rfl, rfl, rfl⟩

theorem Persists.proxy {before after : ObjectKind} (persists : before.Persists after) :
    after.isProxy = before.isProxy := by
  rw [← isProxy_nature, persists.nature, isProxy_nature]

end ObjectKind

namespace Machine

variable {before after : Machine σ}

/-- A frame is parked where internal slots hold it. -/
theorem frameAt_parked {machine : Machine σ} {id : ObjectId} {frame : Frame} :
    machine.FrameAt (.inr id) frame ↔
      ∃ kind, machine.kind? id = some kind ∧ kind.frame? = some frame := by
  constructor
  · intro held
    cases held with
    | parked present parked => exact ⟨_, present, parked⟩
  · rintro ⟨kind, present, held⟩
    cases kind with
    | coroutine coroutine =>
        have held : coroutine.frame = some frame := held
        exact .parked present held
    | _ => cases held

theorem frameAt_running {machine : Machine σ} {height : Nat} {frame : Frame} :
    machine.FrameAt (.inl height) frame ↔ machine.frames[height]? = some frame := by
  constructor
  · rintro ⟨⟩
    assumption
  · exact .running

/-- A machine with the same frames and the same variables is tied like the one before. -/
theorem Tied.mono
    (tied : before.Tied)
    (frames : ∀ {place frame}, after.FrameAt place frame -> before.FrameAt place frame)
    (captured : ∀ {index : Nat} {window register},
      before.cells.upvalues[index]? = some (.attached window register) ->
        after.cells.upvalues[index]? = some (.attached window register)) :
    after.Tied where
  attaches held entry member := captured (tied.attaches (frames held) entry member)
  apart first second distinct := tied.apart (frames first) (frames second) distinct

/-! ## Changes of the heap -/

section

variable {machine : Machine σ} {heap : Heap ObjectKind}
  {change : HeapObject ObjectKind -> HeapObject ObjectKind} {id : ObjectId}

/-- If objects stay what they are by nature, what was vouched for is still. -/
theorem Preserves.withHeap
    (stay : ∀ id kind, machine.kind? id = some kind ->
      ∃ after, heap.payload? id = some after ∧ after.nature = kind.nature) :
    machine.Preserves { machine with heap } where
  nativeDepth := Nat.le_refl _
  natures present := by
    obtain ⟨kind, stands, rfl⟩ := Option.map_eq_some_iff.1 present
    obtain ⟨after, stays, same⟩ := stay _ kind stands
    exact Option.map_eq_some_iff.2 ⟨after, stays, same⟩
  accepts := by
    have tags : ∀ value, machine.Tags value -> Tags { machine with heap } value := by
      intro value tagged
      cases value with
      | object id =>
          obtain ⟨kind, present, lenient⟩ := tagged
          obtain ⟨after, stands, same⟩ := stay id kind present
          exact ⟨after, stands, fun callable =>
            lenient (ObjectKind.isCallable_congr same ▸ callable)⟩
      | function id =>
          obtain ⟨kind, present, callable⟩ := tagged
          obtain ⟨after, stands, same⟩ := stay id kind present
          exact ⟨after, stands, (ObjectKind.isCallable_congr same).trans callable⟩
      | _ => trivial
    intro item accepted
    cases item with
    | value value => exact tags value accepted
    | object id =>
        obtain ⟨kind, present⟩ := accepted
        obtain ⟨after, stands, _⟩ := stay id kind present
        exact ⟨after, stands⟩
    | promise id =>
        obtain ⟨record, present⟩ := accepted
        obtain ⟨after, stands, same⟩ := stay id _ present
        obtain ⟨later, rfl⟩ := ObjectKind.exists_record_of_nature same
        exact ⟨later, stands⟩
    | window id => exact fun value member => tags value (accepted value member)
    | captured id =>
        unfold Accepts at accepted ⊢
        dsimp only at accepted ⊢
        cases present : machine.cells.upvalues[id.index]? with
        | none => trivial
        | some upvalue =>
            rw [present] at accepted
            cases upvalue with
            | attached window register =>
                exact fun value member => tags value (accepted value member)
            | detached value => exact tags value accepted
    | cell id => exact fun value filled => tags value (accepted value filled)
    | aggregate id =>
        exact fun aggregate present value member =>
          tags value (accepted aggregate present value member)

/-- Chains end where prototypes stay, and proxies. -/
theorem Acyclic.mono
    {before after : Machine σ}
    (acyclic : before.Acyclic)
    (prototypes : ∀ {id prototype}, after.heap.prototypeOf id = some prototype ->
      before.heap.prototypeOf id = some prototype)
    (proxies : ∀ {id}, before.isProxy id = true ->
      (after.heap.prototypeOf id).isSome -> after.isProxy id = true) :
    after.Acyclic := by
  intro id
  induction acyclic id with
  | @proxy id stands =>
      cases linked : after.heap.prototypeOf id with
      | none =>
          refine .link fun prototype present => ?_
          rw [linked] at present
          cases present
      | some prototype => exact .proxy (proxies stands (by rw [linked]; rfl))
  | link _ step => exact .link fun prototype present => step prototype (prototypes present)

variable [consistent : machine.Consistent collects] (prototype : Option ObjectId)

section

variable (alters : machine.heap.Alters heap id change)
include alters

/-- A change of the heap that only alters one object, and keeps the machine tied. -/
theorem Consistent.alter
    (nature : ∀ object, machine.heap.get? id = some object ->
      (change object).payload.nature = object.payload.nature)
    (vouched : ∀ object, machine.heap.get? id = some object -> machine.Vouches object ->
      machine.Vouches (change object))
    (tied : Tied { machine with heap })
    (resumes : ResumesOnce { machine with heap }) :
    Consistent collects { machine with heap } ∧ machine.Preserves { machine with heap } := by
  have later : machine.Preserves { machine with heap } := by
    refine .withHeap fun other kind present => ?_
    obtain ⟨old, standing, rfl⟩ := Option.map_eq_some_iff.1 present
    unfold Heap.payload?
    rw [alters.get?, standing]
    split
    · next same =>
        subst same
        exact ⟨_, rfl, nature old standing⟩
    · exact ⟨_, rfl, rfl⟩
  refine ⟨⟨alters.tidy consistent.tidy, fun live => ?_, later.vouches consistent.frames,
    later.vouches consistent.microtasks, later.vouches consistent.rejections,
    later.vouches consistent.unhandled, ?_, tied,
    ⟨consistent.attended.hosts, consistent.attended.tasks, consistent.attended.microtasks⟩,
    resumes⟩, later⟩
  · obtain ⟨old, standing, ⟨rfl, rfl⟩ | ⟨_, rfl⟩⟩ := alters.altered live
    · exact later.vouches (vouched old standing (consistent.objects standing))
    · exact later.vouches (consistent.objects standing)
  · exact fun id member => vouches_value.1 (later.vouches (vouches_intrinsic member))

theorem Maintains.alter
    (nature : ∀ object, machine.heap.get? id = some object ->
      (change object).payload.nature = object.payload.nature)
    (vouched : ∀ object, machine.heap.get? id = some object -> machine.Vouches object ->
      machine.Vouches (change object))
    (tied : Tied { machine with heap })
    (resumes : ResumesOnce { machine with heap })
    (acyclic : machine.Acyclic -> Acyclic { machine with heap }) :
    machine.Maintains collects { machine with heap } :=
  have altered := Consistent.alter alters nature vouched tied resumes
  ⟨altered.1, altered.2, acyclic⟩

omit consistent in
/-- Resumptions stay where they are if one object persists. -/
theorem CarriesOver.alter
    (persists : ∀ object, machine.heap.get? id = some object ->
      object.payload.Persists (change object).payload) :
    machine.CarriesOver { machine with heap } := by
  have stay : ∀ other, Machine.reactions { machine with heap } other = machine.reactions other ∧
      Machine.asyncState? { machine with heap } other = machine.asyncState? other := by
    intro other
    unfold Machine.reactions asyncState? kind? Heap.payload?
    rw [alters.get?]
    split
    · next same =>
        subst same
        cases live : machine.heap.get? id with
        | none => exact ⟨rfl, rfl⟩
        | some object => exact ⟨(persists object live).reactions, (persists object live).asyncState⟩
    · exact ⟨rfl, rfl⟩
  exact .of_same (fun other => (stay other).1) (fun other => (stay other).2) rfl

include consistent in
/-- Altering one object leaves the frames where they are if it holds the same one. -/
theorem Tied.alter
    (stays : ∀ object, machine.heap.get? id = some object ->
      (change object).payload.frame? = object.payload.frame?) :
    Tied { machine with heap } := by
  refine consistent.tied.mono (fun {place frame} held => ?_) fun stands => stands
  cases place with
  | inl height =>
      have stands := frameAt_running.1 held
      exact frameAt_running.2 stands
  | inr other =>
      obtain ⟨kind, present, parked⟩ := frameAt_parked.1 held
      obtain ⟨object, live, rfl⟩ := Option.map_eq_some_iff.1 present
      obtain ⟨old, standing, ⟨rfl, rfl⟩ | ⟨_, rfl⟩⟩ := alters.altered live
      · exact frameAt_parked.2 ⟨old.payload, by unfold kind? Heap.payload?; rw [standing]; rfl,
          (stays old standing).symm.trans parked⟩
      · exact frameAt_parked.2 ⟨object.payload, by unfold kind? Heap.payload?; rw [standing]; rfl,
          parked⟩

theorem Sustains.alter
    (persists : ∀ object, machine.heap.get? id = some object ->
      object.payload.Persists (change object).payload)
    (vouched : ∀ object, machine.heap.get? id = some object -> machine.Vouches object ->
      machine.Vouches (change object))
    (acyclic : machine.Acyclic -> Acyclic { machine with heap }) :
    machine.Sustains collects { machine with heap } :=
  have carries := CarriesOver.alter alters persists
  (Maintains.alter alters (fun object live => (persists object live).nature) vouched
    (.alter alters fun object live => (persists object live).frame)
    (carries.resumesOnce consistent.resumes) acyclic).sustains
    carries.inHand

/-- Altering an object without a new prototype closes no cycle. -/
theorem Acyclic.alter
    (proxies : ∀ object, machine.heap.get? id = some object ->
      (change object).payload.isProxy = object.payload.isProxy)
    (linked : ∀ object, machine.heap.get? id = some object ->
      (change object).prototype = object.prototype)
    (acyclic : machine.Acyclic) :
    Acyclic { machine with heap } := by
  refine acyclic.mono (fun {other prototype} present => ?_) fun {other} proxy present => ?_
  · obtain ⟨object, live, links⟩ := Option.bind_eq_some_iff.1 present
    obtain ⟨old, standing, ⟨rfl, rfl⟩ | ⟨_, rfl⟩⟩ := alters.altered live
    · refine Option.bind_eq_some_iff.2 ⟨old, standing, ?_⟩
      rw [← links]
      exact (linked old standing).symm
    · exact Option.bind_eq_some_iff.2 ⟨object, standing, links⟩
  · obtain ⟨_, present⟩ := Option.isSome_iff_exists.1 present
    obtain ⟨object, live, _⟩ := Option.bind_eq_some_iff.1 present
    obtain ⟨old, standing, ⟨rfl, rfl⟩ | ⟨_, rfl⟩⟩ := alters.altered live
    · unfold isProxy kind? Heap.payload? at proxy ⊢
      rw [standing] at proxy
      dsimp only
      rw [live]
      exact (proxies old standing).trans proxy
    · unfold isProxy kind? Heap.payload? at proxy ⊢
      rw [standing] at proxy
      dsimp only
      rw [live]
      exact proxy

/-- An alteration that adds at most a property that is vouched for. -/
theorem Sustains.furnish
    {property : Option Property}
    (furnishes : Heap.Furnishes change property)
    [new : machine.Vouches property] :
    machine.Sustains collects { machine with heap } := by
  have persists : ∀ object, machine.heap.get? id = some object ->
      object.payload.Persists (change object).payload := by
    intro object _
    rw [furnishes.payload]
    exact .refl _
  refine .alter alters persists (fun object _ vouched => ?_)
    (.alter alters (fun object live => (persists object live).proxy)
      fun object _ => furnishes.prototype object)
  obtain ⟨prototype, entries, payload⟩ := vouches_object.1 vouched
  refine vouches_object.2 ⟨?_, vouches_array.2 fun entry member => ?_, ?_⟩
  · rw [furnishes.prototype]
    exact prototype
  · rcases furnishes.entries object entry member with old | same
    · exact vouches_array.1 entries entry old
    · subst same
      have := vouches_some.1 new
      exact vouches_pair_of entry.1 entry.2
  · rw [furnishes.payload]
    exact payload

end

instance sustains_define
    (id : ObjectId)
    (key : PropertyKey)
    (property : Property)
    [machine.Vouches property] :
    machine.Sustains collects
      (machine.modifyHeap fun heap => heap.define id key property) := by
  obtain ⟨change, alters, furnishes⟩ := machine.heap.alters_define id key property
  exact .furnish alters furnishes

instance sustains_defineRaw
    (id : ObjectId)
    (key : PropertyKey)
    (property : Property)
    [machine.Vouches property] :
    machine.Sustains collects (machine.defineRaw id key property) :=
  sustains_define id key property

instance (name : String) (value : Value) [machine.Vouches value] :
    machine.Sustains collects (machine.setGlobal name value) :=
  sustains_define ..

instance (id : ObjectId) (key : PropertyKey) :
    machine.Sustains collects (machine.modifyHeap fun heap => heap.remove id key) := by
  obtain ⟨change, alters, furnishes⟩ := machine.heap.alters_remove id key
  exact .furnish alters furnishes

instance (id : ObjectId) :
    machine.Sustains collects (machine.modifyHeap fun heap => heap.preventExtensions id) := by
  obtain ⟨change, alters, furnishes⟩ := machine.heap.alters_preventExtensions id
  exact .furnish alters furnishes

instance (id : ObjectId) (offset : Nat) (value : Value) [machine.Vouches value] :
    machine.Sustains collects
      (machine.modifyHeap fun heap => heap.setValueAt id offset value) := by
  have alters := Heap.Alters.modify machine.heap machine.heap.shapes id
    fun object =>
      match object.properties.at? offset with
      | some (_, property) =>
          { object with
            properties := object.properties.setAt offset (property.withValue value) }
      | none => object
  have persists : ∀ object, machine.heap.get? id = some object ->
      object.payload.Persists
        (match object.properties.at? offset with
        | some (_, property) =>
            { object with
              properties := object.properties.setAt offset (property.withValue value) }
        | none => object).payload := by
    intro object _
    split <;> exact .refl _
  refine .alter alters persists (fun object live vouched => ?_)
    (.alter alters (fun object live => (persists object live).proxy) fun object _ => by
      split <;> rfl)
  obtain ⟨prototype, entries, payload⟩ := vouches_object.1 vouched
  split
  · next key property present =>
      have : machine.Vouches property := vouches_entry live (Array.mem_of_getElem? present)
      refine vouches_object.2 ⟨prototype, vouches_array.2 fun entry member => ?_, payload⟩
      rcases PropertyTable.mem_setAt member with old | same
      · exact vouches_array.1 entries entry old
      · have : machine.Vouches entry.2 := same ▸ vouches_withValue property value
        exact vouches_pair_of entry.1 entry.2
  · exact vouched

/-- A new prototype that is vouched for. -/
theorem Consistent.setPrototype
    (id : ObjectId)
    (prototype : Option ObjectId)
    [new : machine.Vouches prototype] :
    (machine.modifyHeap fun heap => heap.setPrototype id prototype).Consistent collects ∧
      Later machine (machine.modifyHeap fun heap => heap.setPrototype id prototype) := by
  obtain ⟨change, alters, changes⟩ := machine.heap.alters_setPrototype id prototype
  have persists : ∀ object, machine.heap.get? id = some object ->
      object.payload.Persists (change object).payload := by
    intro object live
    rw [(changes object live).2.1]
    exact .refl _
  have carries : machine.CarriesOver
      (machine.modifyHeap fun heap => heap.setPrototype id prototype) := .alter alters persists
  refine (Consistent.alter alters (fun object live => (persists object live).nature)
    (fun object live vouched => ?_) (.alter alters fun object live => (persists object live).frame)
    (carries.resumesOnce consistent.resumes)).imp_right fun preserves => ⟨preserves, carries.inHand⟩
  obtain ⟨linked, payload, properties⟩ := changes object live
  obtain ⟨_, entries, slots⟩ := vouches_object.1 vouched
  refine vouches_object.2 ⟨?_, ?_, ?_⟩
  · rw [linked]
    exact new
  · rw [properties]
    exact entries
  · rw [payload]
    exact slots

/-- A change of internal slots that stay what they are and are vouched for. -/
theorem Sustains.modifyPayload
    (id : ObjectId)
    (change : ObjectKind -> ObjectKind)
    (persists : ∀ kind, machine.kind? id = some kind -> kind.Persists (change kind))
    (vouched : ∀ kind, machine.kind? id = some kind -> machine.Vouches kind ->
      machine.Vouches (change kind)) :
    machine.Sustains collects
      (machine.modifyHeap fun heap => heap.modifyPayload id change) := by
  have alters := machine.heap.alters_modifyPayload id change
  have present : ∀ object, machine.heap.get? id = some object ->
      machine.kind? id = some object.payload := by
    intro object live
    unfold kind? Heap.payload?
    rw [live]
    rfl
  have persists : ∀ object, machine.heap.get? id = some object ->
      object.payload.Persists (change object.payload) :=
    fun object live => persists _ (present object live)
  refine .alter alters persists (fun object live old => ?_)
    (.alter alters (fun object live => (persists object live).proxy) fun object _ => rfl)
  obtain ⟨prototype, entries, slots⟩ := vouches_object.1 old
  exact vouches_object.2 ⟨prototype, entries, vouched _ (present object live) slots⟩

/-! ## Allocation -/

include consistent

/-- The handle of a new object was dead. -/
theorem kind?_allocated (prototype : Option ObjectId) (kind : ObjectKind) :
    machine.kind? (machine.allocate prototype kind).1 = none := by
  unfold kind? Heap.payload?
  have dead := consistent.tidy.allocated_dead prototype kind
  unfold allocate
  rw [dead]
  rfl

theorem kind?_after_allocate (prototype : Option ObjectId) (kind : ObjectKind) (id : ObjectId) :
    (machine.allocate prototype kind).2.kind? id =
      if (machine.allocate prototype kind).1 = id then some kind else machine.kind? id := by
  show ((machine.heap.allocate prototype kind).2.get? id).map HeapObject.payload = _
  rw [consistent.tidy.get?_allocate]
  show _ = if (machine.heap.allocate prototype kind).1 = id then _ else _
  split <;> rfl

/-- No reaction waits for a new object. -/
theorem carriesOver_allocate
    (kind : ObjectKind)
    [frameless : kind.Frameless] :
    machine.CarriesOver (machine.allocate prototype kind).2 := by
  refine .of_stay (fun {coroutine promise index reaction} _ stands => ?_) (fun _ stands => stands)
    fun {coroutine state} present => ?_
  · unfold Machine.reactions at stands ⊢
    rw [kind?_after_allocate] at stands
    split at stands
    · rw [Option.map_some, Option.getD_some, frameless.unawaited] at stands
      cases stands
    · exact stands
  · unfold asyncState? at present ⊢
    rw [kind?_after_allocate]
    split
    · next same =>
        rw [← same, kind?_allocated] at present
        cases present
    · exact present

/-- An allocation with a prototype and internal slots that are vouched for. -/
instance sustains_allocate
    (prototype : Option ObjectId)
    (kind : ObjectKind)
    [frameless : kind.Frameless]
    [linked : machine.Vouches prototype]
    [slots : machine.Vouches kind] :
    machine.Sustains collects (machine.allocate prototype kind).2 := by
  have dead := consistent.tidy.allocated_dead prototype kind
  have lives := consistent.tidy.get?_allocate prototype kind
  have later : Later machine (machine.allocate prototype kind).2 := by
    refine ⟨.withHeap fun other before present => ⟨before, ?_, rfl⟩,
      (carriesOver_allocate prototype kind).inHand⟩
    refine (kind?_after_allocate prototype kind other).trans ?_
    split
    · next same =>
        subst same
        rw [kind?_allocated] at present
        cases present
    · exact present
  have acyclic : machine.Acyclic -> (machine.allocate prototype kind).2.Acyclic := by
    intro acyclic
    have old : ∀ id, machine.kind? id ≠ none ->
        (machine.allocate prototype kind).2.ChainEnds id := by
      intro id
      induction acyclic id with
      | @proxy id stands =>
          intro _
          refine .proxy ?_
          unfold isProxy at stands ⊢
          rw [kind?_after_allocate]
          split
          · next same =>
              subst same
              rw [kind?_allocated] at stands
              cases stands
          · exact stands
      | @link id links step =>
          intro alive
          refine .link fun parent linked => ?_
          have stays : machine.heap.prototypeOf id = some parent := by
            obtain ⟨object, live, links⟩ := Option.bind_eq_some_iff.1 linked
            change (machine.heap.allocate prototype kind).2.get? id = some object at live
            rw [lives] at live
            split at live
            · next same =>
                subst same
                exact absurd (kind?_allocated prototype kind) alive
            · exact Option.bind_eq_some_iff.2 ⟨object, live, links⟩
          have vouched : machine.Vouches parent := .of_some stays
          obtain ⟨kind, present⟩ := vouches_id.1 vouched
          exact step parent stays (by rw [present]; simp)
    intro id
    refine .link fun parent linked => ?_
    obtain ⟨object, live, links⟩ := Option.bind_eq_some_iff.1 linked
    change (machine.heap.allocate prototype kind).2.get? id = some object at live
    rw [lives] at live
    have vouched : machine.Vouches parent := by
      split at live
      · cases live
        have links : prototype = some parent := links
        exact .of_some links
      · have links : machine.heap.prototypeOf id = some parent :=
          Option.bind_eq_some_iff.2 ⟨object, live, links⟩
        exact .of_some links
    obtain ⟨kind, present⟩ := vouches_id.1 vouched
    exact old parent (by rw [present]; simp)
  refine ⟨⟨consistent.tidy.allocate prototype kind, fun {id object} live => ?_,
    later.vouches consistent.frames, later.vouches consistent.microtasks,
    later.vouches consistent.rejections, later.vouches consistent.unhandled, ?_, ?_,
    ⟨consistent.attended.hosts, consistent.attended.tasks, consistent.attended.microtasks⟩,
    (carriesOver_allocate prototype kind).resumesOnce consistent.resumes⟩, later, acyclic⟩
  · change (machine.heap.allocate prototype kind).2.get? id = some object at live
    rw [lives] at live
    split at live
    · cases live
      exact later.vouches (vouches_object.2 ⟨linked, ⟨fun _ impossible => by cases impossible⟩, slots⟩)
    · exact later.vouches (consistent.objects live)
  · exact fun id member => vouches_value.1 (later.vouches (vouches_intrinsic member))
  · refine consistent.tied.mono (fun {place frame} held => ?_) fun stands => stands
    cases place with
    | inl height =>
        have stands := frameAt_running.1 held
        exact frameAt_running.2 stands
    | inr other =>
        obtain ⟨found, present, parked⟩ := frameAt_parked.1 held
        rw [kind?_after_allocate] at present
        split at present
        · cases present
          rw [frameless.frameless] at parked
          cases parked
        · exact frameAt_parked.2 ⟨found, present, parked⟩

instance vouches_allocate_object
    (prototype : Option ObjectId)
    (kind : ObjectKind)
    [plain : kind.Plain] :
    (machine.allocate prototype kind).2.Vouches
      (Value.object (machine.allocate prototype kind).1) :=
  vouches_of_kind ((kind?_after_allocate prototype kind _).trans (if_pos rfl)) plain.plain

theorem vouches_allocate_function
    (kind : ObjectKind)
    (callable : kind.isCallable = true) :
    (machine.allocate prototype kind).2.Vouches
      (Value.function (machine.allocate prototype kind).1) :=
  vouches_of_callable ((kind?_after_allocate prototype kind _).trans (if_pos rfl)) callable

end

instance [sustains : before.Sustains collects after] : after.Consistent collects :=
  sustains.consistent

instance [sustains : before.Sustains collects after] : Later before after :=
  sustains.later

/-- The later machine comes from the earlier one by any number of changes. -/
class Descends (collects : outParam Bool) (before after : Machine σ) : Prop where
  sustains : before.Sustains collects after

instance (machine : Machine σ) [machine.Consistent collects] : machine.Descends collects machine :=
  ⟨.refl machine⟩

instance {before middle after : Machine σ} [last : middle.Sustains collects after]
    [first : before.Descends collects middle] :
    before.Descends collects after :=
  ⟨first.sustains.trans last⟩

/-! ## Changes of the shared cells -/

/-- Whatever the new cells hold was held before or is vouched for. -/
structure Fills (machine : Machine σ) (cells : Cells) : Prop where
  windows : ∀ {id value}, value ∈ cells.window id ->
    value ∈ machine.cells.window id ∨ machine.Tags value
  attached : ∀ {index : Nat} {window register},
    cells.upvalues[index]? = some (.attached window register) ->
      machine.cells.upvalues[index]? = some (.attached window register) ∨
        machine.Vouches window
  detached : ∀ {index : Nat} {value}, cells.upvalues[index]? = some (.detached value) ->
    machine.cells.upvalues[index]? = some (.detached value) ∨ machine.Tags value
  thisCells : ∀ {index : Nat} {value}, cells.thisCells[index]? = some (some value) ->
    machine.cells.thisCells[index]? = some (some value) ∨ machine.Tags value
  aggregates : ∀ {index : Nat} {aggregate}, cells.aggregates[index]? = some aggregate ->
    ∀ {value}, some value ∈ aggregate.entries ->
      (∃ old, machine.cells.aggregates[index]? = some old ∧ some value ∈ old.entries) ∨
        machine.Tags value

section

variable {machine : Machine σ} {cells : Cells}

/-- Cells that stay as they are. -/
theorem Fills.refl (machine : Machine σ) : machine.Fills machine.cells where
  windows := Or.inl
  attached := Or.inl
  detached := Or.inl
  thisCells := Or.inl
  aggregates present _ member := Or.inl ⟨_, present, member⟩

/-- Promises, async functions and microtasks have no cells. -/
theorem carriesOver_cells (machine : Machine σ) (cells : Cells) :
    machine.CarriesOver { machine with cells } :=
  .of_heap rfl fun _ => id

theorem Fills.later (fills : machine.Fills cells) : Later machine { machine with cells } where
  nativeDepth := Nat.le_refl _
  natures := id
  inHand := (carriesOver_cells machine cells).inHand
  accepts := by
    have tags : ∀ {value}, machine.Tags value -> Tags { machine with cells } value := by
      intro value tagged
      cases value <;> exact tagged
    have windows : ∀ {id}, (∀ value ∈ machine.cells.window id, machine.Tags value) ->
        ∀ value ∈ cells.window id, Tags { machine with cells } value :=
      fun accepted value member => tags ((fills.windows member).elim (accepted value) id)
    intro item accepted
    cases item with
    | value value => exact tags accepted
    | object id | promise id => exact accepted
    | window id => exact windows accepted
    | captured id =>
        have old := vouches_captured.1
          (vouches_iff.2 (List.forall_mem_singleton.2 accepted) : machine.Vouches id)
        unfold Accepts
        dsimp only
        cases present : cells.upvalues[id.index]? with
        | none => trivial
        | some upvalue =>
            cases upvalue with
            | attached window register =>
                refine windows fun value member => ?_
                have vouched : machine.Vouches window :=
                  (fills.attached present).elim (old.1 window register) fun new => new
                exact vouches_value.1 (vouches_window.1 vouched value member)
            | detached value =>
                exact tags ((fills.detached present).elim
                  (fun same => vouches_value.1 (old.2 value same)) fun new => new)
    | cell id =>
        exact fun value filled => tags ((fills.thisCells filled).elim (accepted value) fun new => new)
    | aggregate id =>
        intro aggregate present value member
        rcases fills.aggregates present member with ⟨old, stood, held⟩ | new
        · exact tags (accepted old stood value held)
        · exact tags new

variable [consistent : machine.Consistent collects]

/-- A change of the cells that keeps the machine tied. -/
theorem Fills.sustains (fills : machine.Fills cells) (tied : Tied { machine with cells }) :
    machine.Sustains collects { machine with cells } where
  later := fills.later
  acyclic acyclic := acyclic.mono (fun linked => linked) fun stands _ => stands
  consistent := {
    tidy := consistent.tidy
    objects := fun live => fills.later.vouches (consistent.objects live)
    frames := fills.later.vouches consistent.frames
    microtasks := fills.later.vouches consistent.microtasks
    rejections := fills.later.vouches consistent.rejections
    unhandled := fills.later.vouches consistent.unhandled
    intrinsics := fun _ member => vouches_value.1 (fills.later.vouches (vouches_intrinsic member))
    tied
    attended := ⟨consistent.attended.hosts, consistent.attended.tasks,
      consistent.attended.microtasks⟩
    resumes := (carriesOver_cells machine cells).resumesOnce consistent.resumes }

/-- A change of the cells under which attached variables stay attached. -/
theorem Fills.sustains_of_attached
    (fills : machine.Fills cells)
    (captured : ∀ {index : Nat} {window register},
      machine.cells.upvalues[index]? = some (.attached window register) ->
        cells.upvalues[index]? = some (.attached window register)) :
    machine.Sustains collects { machine with cells } := by
  refine fills.sustains (consistent.tied.mono (fun {place frame} held => ?_) captured)
  cases place with
  | inl height =>
      have stands := frameAt_running.1 held
      exact frameAt_running.2 stands
  | inr other =>
      obtain ⟨kind, present, parked⟩ := frameAt_parked.1 held
      exact frameAt_parked.2 ⟨kind, present, parked⟩

end

end Machine
end ScriptVM

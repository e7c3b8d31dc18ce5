import ScriptVM.Machine.Coroutines
import ScriptVM.Machine.Session
import ScriptVM.Proofs.Sustaining.Activations
import ScriptVM.Proofs.Sustaining.Links

/-!
# Queries and parked frames

What a consistent machine answers is vouched for, also where a frame is on its way between the
stack and its coroutine.
-/

/-!
## Answers of a consistent machine

A consistent machine vouches for what its queries answer, and caches, queues and functions of
an embedder sustain it.
-/

namespace ScriptVM

variable {σ : Type} {collects : Bool}

namespace Machine

variable {machine : Machine σ} [consistent : machine.Consistent collects] {value : Value}
variable (id : ObjectId) (key : PropertyKey) (template : TemplateId) (slot : Nat)

/-! ## Queries -/

omit consistent in
theorem vouches_found {property : Property} :
    machine.Vouches (Lookup.found property) ↔ machine.Vouches property :=
  vouches_congr rfl

omit consistent in
theorem vouches_atProxy {target handler : Value} :
    machine.Vouches (Lookup.atProxy target handler) ↔
      machine.Vouches target ∧ machine.Vouches handler :=
  vouches_append _ _ rfl

instance (limit : Nat) : machine.Vouches (machine.lookup key limit id) := by
  induction limit generalizing id with
  | zero => exact vouches_of_nil rfl
  | succ limit step =>
      unfold lookup
      split
      · next target handler present =>
          exact vouches_atProxy.2 (vouches_proxy_kind.1 (vouches_of_kind? present))
      · split
        · next property own => exact vouches_found.2 (.of_some own)
        · split
          · exact step _
          · exact vouches_of_nil rfl

instance (name : String) : machine.Vouches (machine.getGlobal? name) := by
  unfold getGlobal?
  cases own : machine.heap.getOwn? machine.intrinsics.global (.string name) with
  | none => exact vouches_none
  | some property =>
      have : machine.Vouches property := .of_some own
      exact vouches_value? property

instance (array : Value) : machine.Vouches (machine.argumentElements? array) := by
  unfold argumentElements?
  split
  · next store present =>
      have kind : machine.Vouches (ObjectKind.array store) := .of_some present
      have elements := vouches_array.1 (vouches_array_kind.1 kind)
      refine vouches_some.2 (vouches_list.2 fun value member => ?_)
      obtain ⟨element, held, rfl⟩ := List.mem_map.1 member
      have := elements element (Array.mem_toList_iff.1 held)
      infer_instance
  · exact vouches_none

instance (value : Value) : machine.Vouches (machine.promiseState? value) := by
  unfold promiseState?
  split
  · next record present =>
      have kind : machine.Vouches (ObjectKind.promise record) := .of_some present
      exact vouches_some.2 (vouches_promise_kind.1 kind).1
  · exact vouches_none

omit consistent in
theorem vouches_of_promiseId?
    {id : ObjectId}
    (found : machine.promiseId? value = some id) : machine.Vouches (PromiseHandle.mk id) := by
  unfold promiseId? at found
  obtain ⟨_, promise⟩ := Option.filter_eq_some_iff.1 found
  obtain ⟨record, present⟩ := Option.isSome_iff_exists.1 promise
  exact vouches_of_promise? present

instance : machine.Vouches (machine.closure? id) := by
  unfold closure?
  split
  · next closure present =>
      exact vouches_some.2 (vouches_function_kind.1 (vouches_of_kind? present))
  · exact vouches_none

instance : machine.Vouches ((machine.closure? id).bind Closure.homeObject) := by
  cases present : machine.closure? id with
  | none => exact vouches_none
  | some closure =>
      have : machine.Vouches closure := .of_some present
      exact vouches_closure_homeObject closure

include consistent in
/-- A callee with a frame of its own is a function, with a closure. -/
theorem vouches_of_inlineCallee?
    {callee : Value}
    {id : ObjectId}
    {closure : Closure}
    (found : machine.inlineCallee? callee = some (id, closure)) :
    machine.Vouches (Value.function id) ∧ machine.Vouches closure := by
  obtain ⟨stands, _⟩ := kind?_of_inlineCallee? found
  exact ⟨vouches_of_callable stands rfl, vouches_function_kind.1 (vouches_of_kind? stands)⟩

omit consistent in
theorem kind?_of_coroutine?
    {id : ObjectId}
    {coroutine : Coroutine}
    (present : machine.coroutine? id = some coroutine) :
    machine.kind? id = some (.coroutine coroutine) := by
  unfold coroutine? at present
  split at present
  · next found =>
      cases present
      exact found
  · cases present

instance : machine.Vouches (machine.coroutine? id) := by
  cases present : machine.coroutine? id with
  | none => exact vouches_none
  | some coroutine =>
      have kind : machine.Vouches (ObjectKind.coroutine coroutine) :=
        .of_some (kind?_of_coroutine? present)
      exact vouches_some.2 ⟨kind.accepts⟩

instance : machine.Vouches (machine.unhandledReason? id) := by
  unfold unhandledReason?
  split
  · next reason reactions present =>
      have record : machine.Vouches (PromiseRecord.mk (.rejected reason) reactions false) :=
        .of_some present
      exact vouches_some.2 (vouches_rejected_iff.1 (vouches_record.1 record).1)
  · exact vouches_none

/-! ## Caches -/

instance sustains_setCache
    (template : TemplateId)
    (slot : Nat)
    (cache : InlineCache) : machine.Sustains collects (machine.setCache template slot cache) :=
  sustains_caches _

instance (offset : Nat) : machine.Vouches (machine.dataAt? id offset) := by
  unfold dataAt?
  cases present : machine.heap.propertyAt? id offset with
  | none => exact vouches_none
  | some entry =>
      have : machine.Vouches entry := .of_some present
      exact vouches_value? entry.2

instance (hit : CacheHit) : machine.Vouches (machine.valueAt? id hit) := by
  unfold valueAt?
  split
  · infer_instance
  · infer_instance

include consistent in
/-- What a search for a property finds. -/
theorem vouches_locate?
    {id : ObjectId}
    {key : PropertyKey}
    {hit : CacheHit}
    (found : machine.locate? id key = some (hit, value)) : machine.Vouches value := by
  unfold locate? at found
  split at found
  · next offset property present =>
      obtain ⟨held, data, same⟩ := Option.map_eq_some_iff.1 found
      cases same
      have entry : machine.Vouches (offset, property) := .of_some present
      have : machine.Vouches property := (vouches_pair.1 entry).2
      exact .of_some data
  · obtain ⟨holder, _, found⟩ := Option.bind_eq_some_iff.1 found
    split at found
    · cases found
    · obtain ⟨shape, _, found⟩ := Option.bind_eq_some_iff.1 found
      obtain ⟨⟨offset, property⟩, present, found⟩ := Option.bind_eq_some_iff.1 found
      obtain ⟨held, data, same⟩ := Option.bind_eq_some_iff.1 found
      cases same
      have entry : machine.Vouches (offset, property) := .of_some present
      have : machine.Vouches property := (vouches_pair.1 entry).2
      exact .of_some data

instance (shape : ShapeId) (cache : InlineCache) :
    machine.Vouches (machine.refill id shape key cache).1 := by
  unfold refill
  split
  · exact vouches_none
  · split
    · next found => exact vouches_some.2 (vouches_locate? found)
    · exact vouches_none

instance (shape : ShapeId) (cache : InlineCache) :
    machine.Vouches (machine.readThrough id shape key cache).1 := by
  unfold readThrough
  split
  · infer_instance
  · split
    · next present =>
        exact vouches_some.2 (.of_some present)
    · infer_instance

instance sustains_cachedLookup
    (id : ObjectId)
    (key : PropertyKey)
    (template : TemplateId)
    (slot : Nat) : machine.Sustains collects (machine.cachedLookup id key template slot).2 := by
  unfold cachedLookup
  split
  · exact .refl machine
  · split
    · dsimp only
      split
      · exact .refl machine
      · exact sustains_setCache ..
    · exact .refl machine

instance :
    (machine.cachedLookup id key template slot).2.Vouches
      (machine.cachedLookup id key template slot).1 := by
  have later := (sustains_cachedLookup id key template slot :
    machine.Sustains collects _).later
  refine later.vouches ?_
  unfold cachedLookup
  split
  · exact vouches_none
  · split
    · dsimp only
      split <;> infer_instance
    · exact vouches_none

instance (value : Value) [machine.Vouches value] :
    machine.Sustains collects (machine.cachedStore id value template slot).2 := by
  unfold cachedStore
  dsimp only
  split
  · split
    · infer_instance
    · exact .refl machine
  · exact .refl machine

instance : machine.Sustains collects (machine.rememberOwn id key template slot) := by
  unfold rememberOwn
  split
  · split
    · exact sustains_setCache ..
    · exact .refl machine
  · exact .refl machine

/-! ## Queues and functions of an embedder -/

instance : machine.Sustains collects (machine.preventExtensions id).2 := by
  unfold Machine.preventExtensions
  split
  · infer_instance
  · exact .refl machine

instance : machine.Sustains collects machine.reportRejections := by
  unfold reportRejections
  have reasons : machine.Vouches
      (machine.unhandled ++ machine.rejections.pending.filterMap machine.unhandledReason?) := by
    have : machine.Vouches
        (machine.rejections.pending.filterMap machine.unhandledReason?) :=
      vouches_list.2 fun value member => by
        obtain ⟨id, _, found⟩ := List.mem_filterMap.1 member
        exact .of_some found
    infer_instance
  exact @sustains_tables _ _ _ consistent _ rfl rfl rfl rfl rfl
    (consistent.attended.congr rfl rfl) (.of_heap rfl fun _ stands => stands)
    consistent.microtasks vouches_nil reasons

instance sustains_takeUnhandled : machine.Sustains collects machine.takeUnhandled.2 := by
  have hands : machine.Sustains collects { machine with unhandled := [] } := inferInstance
  have := hands.consistent
  exact hands.trans (sustains_note _)

instance : machine.takeUnhandled.2.Vouches machine.takeUnhandled.1 :=
  sustains_takeUnhandled.later.vouches consistent.unhandled

/-- Take what a table holds. -/
instance : machine.Sustains collects { machine with jobs := machine.jobs.discard.2 } :=
  @sustains_tables _ _ _ consistent _ rfl rfl rfl rfl rfl
    ⟨consistent.attended.hosts, (fun _ member => by cases member),
      (fun _ member => by cases member)⟩ (.of_heap rfl fun _ stands => by cases stands)
    vouches_nil consistent.rejections consistent.unhandled

/-- Queue a program of an embedder as a task. -/
theorem sustains_enqueueTask {body : HostProgram σ} (spare : body.Spare collects) :
    machine.Sustains collects { machine with jobs := machine.jobs.enqueueTask body } :=
  @sustains_tables _ _ _ consistent _ rfl rfl rfl rfl rfl
    ⟨consistent.attended.hosts, fun task member => (List.mem_append.1 member).elim
      (consistent.attended.tasks task) fun new => List.mem_singleton.1 new ▸ spare,
      consistent.attended.microtasks⟩ (.of_heap rfl fun _ => id)
    consistent.microtasks consistent.rejections consistent.unhandled

/-- Queue a program of an embedder as a microtask. -/
theorem sustains_enqueueHost {body : HostProgram σ} (spare : body.Spare collects) :
    machine.Sustains collects (machine.submitJob (.host body)) := by
  suffices queues : machine.Sustains collects (machine.enqueueJob (.host body)) from
    have := queues.consistent
    queues.trans (sustains_note _)
  have jobs : machine.Vouches (machine.jobs.microtasks.jobs ++ [.host body]) := inferInstance
  refine @sustains_tables _ _ _ consistent _ rfl rfl rfl rfl rfl
    ⟨consistent.attended.hosts, consistent.attended.tasks, fun other member => ?_⟩
    (.of_enqueue fun _ ⟨_, _, _, same⟩ => by cases same) jobs consistent.rejections
    consistent.unhandled
  rcases List.mem_append.1 member with old | new
  · exact consistent.attended.microtasks other old
  · cases List.mem_singleton.1 new
    exact spare

/-- Install a function of an embedder. -/
theorem sustains_registerHost_and_vouches
    {name : String}
    {arity : Nat}
    {body : HostFunction σ}
    (careful : ∀ receiver arguments,
      (body receiver arguments).Careful collects (items receiver ++ items arguments)) :
    machine.Sustains collects (machine.registerHost name arity body).2 ∧
      (machine.registerHost name arity body).2.Vouches
        (machine.registerHost name arity body).1 := by
  have added : machine.Sustains collects { machine with hosts := machine.hosts.push body } :=
    sustains_tables rfl rfl rfl rfl rfl
      ⟨fun other member => (Array.mem_push.1 member).elim (consistent.attended.hosts other)
        fun same => same ▸ careful, consistent.attended.tasks, consistent.attended.microtasks⟩
      (.of_heap rfl fun _ => id)
  unfold registerHost
  dsimp only
  exact ⟨Descends.sustains, inferInstance⟩

end Machine
/-!
## Parked frames that sustain a machine

Frames move between the stack and the coroutines that they belong to. A frame that was taken
from either place is free until it is put back.
-/

namespace Machine

variable {machine : Machine σ} {frame : Frame} {after : Machine σ} {place : Nat ⊕ ObjectId}

/-- A free frame stays free if no frame comes up, and attached variables stay attached. -/
theorem Frees.mono
    (free : machine.Frees frame)
    (frames : ∀ {place other}, after.FrameAt place other -> machine.FrameAt place other)
    (captured : ∀ {index : Nat} {window register},
      machine.cells.upvalues[index]? = some (.attached window register) ->
        after.cells.upvalues[index]? = some (.attached window register)) :
    after.Frees frame where
  attaches entry member := captured (free.attaches entry member)
  apart stands := free.apart (frames stands)

/-- Where frames are depends on the stack and on the heap only. -/
theorem frameAt_of_same
    (stands : after.FrameAt place frame)
    (frames : after.frames = machine.frames)
    (heap : after.heap = machine.heap) :
    machine.FrameAt place frame := by
  cases place with
  | inl height => exact .running (frames ▸ frameAt_running.1 stands)
  | inr id =>
      have held := frameAt_parked.1 stands
      unfold kind? at held
      rw [heap] at held
      exact frameAt_parked.2 held

/-- A native call more or less makes no difference. -/
theorem Frees.withNativeDepth (free : machine.Frees frame) (nativeDepth : Nat) :
    Frees { machine with nativeDepth } frame :=
  free.mono (fun stands => frameAt_of_same stands rfl rfl) fun stands => stands

theorem Frees.setCellRegister
    (free : machine.Frees frame)
    (window : WindowId)
    (register : Register)
    (value : Value) :
    (machine.modifyCells fun cells => cells.setRegister window register value).Frees frame :=
  free.mono (fun stands => frameAt_of_same stands rfl rfl) fun stands => stands

/-! ## Parking -/

/-- What parking makes of internal slots. -/
def parked (state : CoroutineState) (frame : Option Frame) : ObjectKind -> ObjectKind
  | ObjectKind.coroutine activation => ObjectKind.coroutine { activation with state, frame }
  | kind => kind

theorem kind?_park
    (id : ObjectId)
    (state : CoroutineState)
    (frame : Option Frame)
    (other : ObjectId) :
    (machine.park id state frame).kind? other =
      if id = other then (machine.kind? other).map (parked state frame)
      else machine.kind? other := by
  unfold park kind? Heap.payload? modifyHeap
  have alters := machine.heap.alters_modifyPayload id (parked state frame)
  refine (congrArg (Option.map HeapObject.payload) (alters.get? other)).trans ?_
  split
  · cases machine.heap.get? other <;> rfl
  · rfl

/-- Parking alters the frame of one coroutine only. -/
theorem frameAt_park
    {id : ObjectId}
    {state : CoroutineState}
    {frame : Option Frame}
    {other : Frame}
    (stands : (machine.park id state frame).FrameAt place other) :
    place = .inr id ∧ frame = some other ∨ place ≠ .inr id ∧ machine.FrameAt place other := by
  cases place with
  | inl height =>
      have standing := frameAt_running.1 stands
      exact Or.inr ⟨nofun, .running standing⟩
  | inr place =>
      obtain ⟨kind, present, held⟩ := frameAt_parked.1 stands
      rw [kind?_park] at present
      split at present
      · next same =>
          obtain ⟨old, standing, rfl⟩ := Option.map_eq_some_iff.1 present
          cases old with
          | coroutine coroutine => exact Or.inl ⟨congrArg Sum.inr same.symm, held⟩
          | _ => cases held
      · next distinct =>
          exact Or.inr ⟨fun same => distinct (Sum.inr.inj same).symm,
            frameAt_parked.2 ⟨kind, present, held⟩⟩

section

variable [consistent : machine.Consistent collects] {old : CoroutineState × Bool}

/-- Store a free frame in a coroutine. -/
theorem maintains_park
    (id : ObjectId)
    (state : CoroutineState)
    (frame : Option Frame)
    (free : ∀ other, frame = some other -> machine.Frees other)
    (resumes : (machine.park id state frame).ResumesOnce)
    [new : machine.Vouches frame] :
    machine.Maintains collects (machine.park id state frame) := by
  have alters := machine.heap.alters_modifyPayload id (parked state frame)
  refine .alter alters (fun object _ => ?_) (fun object live vouched => ?_)
    ⟨fun {place other} stands => ?_, fun {place second left right} first stands distinct => ?_⟩
    resumes (.alter alters (fun object _ => ?_) fun object _ => rfl)
  · cases object.payload <;> rfl
  · obtain ⟨prototype, entries, slots⟩ := vouches_object.1 vouched
    refine vouches_object.2 ⟨prototype, entries, ?_⟩
    generalize object.payload = kind at slots ⊢
    cases kind with
    | coroutine coroutine => exact vouches_coroutine_kind.2 ⟨new, (vouches_coroutine_kind.1 slots).2⟩
    | _ => exact slots
  · rcases frameAt_park stands with ⟨_, same⟩ | ⟨_, standing⟩
    · exact (free other same).attaches
    · exact consistent.tied.attaches standing
  · rcases frameAt_park first with ⟨same, held⟩ | ⟨_, standing⟩
    · rcases frameAt_park stands with ⟨other, _⟩ | ⟨_, standing⟩
      · exact absurd (same.trans other.symm) distinct
      · exact (free left held).apart standing
    · rcases frameAt_park stands with ⟨_, held⟩ | ⟨_, other⟩
      · intro entry member other present same
        exact (free right held).apart standing other present entry member same.symm
      · exact consistent.tied.apart standing other distinct
  · cases object.payload <;> rfl

omit consistent in
theorem reactions_park
    (id : ObjectId)
    (state : CoroutineState)
    (frame : Option Frame)
    (other : ObjectId) :
    (machine.park id state frame).reactions other = machine.reactions other := by
  unfold Machine.reactions
  rw [kind?_park]
  split
  · cases machine.kind? other with
    | none => rfl
    | some kind => cases kind <;> rfl
  · rfl

omit consistent in
theorem asyncState?_park
    (id : ObjectId)
    (state : CoroutineState)
    (frame : Option Frame)
    (other : ObjectId) :
    (machine.park id state frame).asyncState? other =
      if id = other then (machine.asyncState? other).map fun _ => (state, frame.isSome)
      else machine.asyncState? other := by
  unfold asyncState?
  rw [kind?_park]
  split
  · cases machine.kind? other with
    | none => rfl
    | some kind =>
        cases kind with
        | coroutine activation =>
            obtain ⟨_, _, kind⟩ := activation
            cases kind <;> rfl
        | _ => rfl
  · rfl

omit consistent in
/-- Parking leaves resumptions where they are. -/
theorem ResumesAt.of_park
    {id : ObjectId}
    {state : CoroutineState}
    {frame : Option Frame}
    {coroutine : ObjectId}
    {place : ResumptionPlace}
    (waits : (machine.park id state frame).ResumesAt coroutine place) :
    machine.ResumesAt coroutine place := by
  cases waits with
  | reaction stands resumes => exact .reaction (reactions_park id state frame _ ▸ stands) resumes
  | job stands resumes => exact .job stands resumes

omit consistent in
theorem resteers_park (id : ObjectId) (state : CoroutineState) (frame : Option Frame) :
    machine.Resteers (machine.park id state frame) id where
  waits := ⟨.job 0, fun waits => Or.inl waits.of_park⟩
  states apart present := by rwa [asyncState?_park, if_neg (Ne.symm apart)]

omit consistent in
/-- A parked async function is in hand as long as there is no resumption for it. -/
theorem InHand.park
    {id : ObjectId}
    (held : machine.InHand id old)
    (state : CoroutineState)
    (frame : Option Frame) :
    (machine.park id state frame).InHand id (state, frame.isSome) where
  state := by rw [asyncState?_park, if_pos rfl, held.state, Option.map_some]
  unresumed _ waits := held.unresumed _ waits.of_park

/-- Park an async function that is in hand. -/
theorem InHand.maintains_park
    {id : ObjectId}
    (held : machine.InHand id old)
    (state : CoroutineState)
    (frame : Option Frame)
    (free : ∀ other, frame = some other -> machine.Frees other)
    [machine.Vouches frame] :
    machine.Maintains collects (machine.park id state frame) :=
  Machine.maintains_park id state frame free ((resteers_park id state frame).resumesOnce
    consistent.resumes held.unresumed fun waits => absurd waits.of_park (held.unresumed _))

theorem InHand.maintains_park_none
    {id : ObjectId}
    (held : machine.InHand id old)
    (state : CoroutineState) :
    machine.Maintains collects (machine.park id state none) :=
  held.maintains_park state none fun _ same => by cases same

/-- Store a free frame in a generator. -/
theorem sustains_park
    (id : ObjectId)
    (state : CoroutineState)
    (frame : Option Frame)
    (free : ∀ other, frame = some other -> machine.Frees other)
    [generates : machine.Generates id]
    [machine.Vouches frame] :
    machine.Sustains collects (machine.park id state frame) := by
  have carries : machine.CarriesOver (machine.park id state frame) := by
    refine .of_same (reactions_park id state frame) (fun other => ?_) rfl
    rw [asyncState?_park]
    split
    · next same => rw [← same, generates.asyncState?, Option.map_none]
    · rfl
  exact (maintains_park id state frame free
    (carries.resumesOnce consistent.resumes)).sustains carries.inHand

instance sustains_park_none
    (id : ObjectId)
    (state : CoroutineState)
    [machine.Generates id] :
    machine.Sustains collects (machine.park id state none) :=
  sustains_park id state none fun _ same => by cases same

include consistent in
/-- The frame that a coroutine held is free once it is taken. -/
theorem Frees.of_unparked
    {id : ObjectId}
    {coroutine : Coroutine}
    {frame : Frame}
    (present : machine.coroutine? id = some coroutine)
    (held : coroutine.frame = some frame)
    (state : CoroutineState) :
    (machine.park id state none).Frees frame := by
  have standing : machine.FrameAt (.inr id) frame :=
    .parked (kind?_of_coroutine? present) held
  refine ⟨consistent.tied.attaches standing, fun stands => ?_⟩
  rcases frameAt_park stands with ⟨_, impossible⟩ | ⟨distinct, other⟩
  · cases impossible
  · exact consistent.tied.apart standing other fun same => distinct same.symm

/-! ## Calls from running frames -/

/-- A plain call from the innermost frame. -/
instance (function : ObjectId) (closure : Closure) (receiver : Value) (arguments : List Value)
    (returnTo : ReturnTo) [machine.Vouches (Value.function function)] [machine.Vouches closure]
    [machine.Vouches receiver] [machine.Vouches arguments] :
    machine.Sustains collects
      ((machine.callFrame function closure receiver arguments returnTo).2.pushFrame
        (machine.callFrame function closure receiver arguments returnTo).1) := by
  have opens : machine.Sustains collects
      (machine.callFrame function closure receiver arguments returnTo).2 := inferInstance
  exact opens.trans (.pushFrame (.of_fresh (attached_openFrame ..)))

/-- A plain call in place of the innermost frame. -/
instance (function : ObjectId) (closure : Closure) (receiver : Value) (arguments : List Value)
    (returnTo : ReturnTo) [machine.Vouches (Value.function function)] [machine.Vouches closure]
    [machine.Vouches receiver] [machine.Vouches arguments] :
    machine.Sustains collects
      ((machine.callFrame function closure receiver arguments returnTo).2.popFrame.pushFrame
        (machine.callFrame function closure receiver arguments returnTo).1) := by
  have opens : machine.Sustains collects
      (machine.callFrame function closure receiver arguments returnTo).2.popFrame :=
    Descends.sustains
  exact opens.trans (.pushFrame (.of_fresh (attached_openFrame ..)))

/-! ## Scripts -/

theorem sustains_addTemplate (chunk : Chunk) :
    machine.Sustains collects (machine.addTemplate chunk).2 := by
  unfold addTemplate
  exact sustains_caches _

instance (chunk : Chunk) : machine.Sustains collects (machine.scriptFrame chunk).2 := by
  have added : machine.Sustains collects (machine.addTemplate chunk).2 := sustains_addTemplate chunk
  unfold scriptFrame Frame.start
  dsimp only
  have := added.consistent
  exact added.trans inferInstance

instance (chunk : Chunk) : (machine.scriptFrame chunk).2.Vouches (machine.scriptFrame chunk).1 := by
  have added : machine.Sustains collects (machine.addTemplate chunk).2 := sustains_addTemplate chunk
  unfold scriptFrame Frame.start
  dsimp only
  have := added.consistent
  infer_instance

omit consistent in
theorem attached_scriptFrame (chunk : Chunk) :
    (machine.scriptFrame chunk).1.attached = [] := rfl

end

end Machine
end ScriptVM

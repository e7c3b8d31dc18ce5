import ScriptVM.Proofs.FreeLists
import ScriptVM.Proofs.Resumptions
import ScriptVM.Proofs.Vouching

/-!
# Careful embedders and consistent machines

## Careful embedders

A careful embedder uses no value but those that it was given, and names in every collection
all that it goes on with. What it leaves behind, the functions that scripts can call and the
programs that it queues, holds no values of its own.

Queued programs may collect garbage, or not. If they may, an embedder that lets them run
cannot go on with any value, since the collection does not know of it.
-/

namespace ScriptVM

variable {σ : Type}

/-! ## What requests and answers hold -/

instance : Carrier Request where
  items
    | .call callee receiver arguments => items callee ++ items receiver ++ items arguments
    | .construct callee arguments newTarget =>
        items callee ++ items arguments ++ items newTarget
    | .resume _ generator value => items generator ++ items value
    | .get target _ | .delete target _ _ => items target
    | .getWithReceiver object _ receiver => items object ++ items receiver
    | .set target _ value _ => items target ++ items value
    | .setWithReceiver object _ value receiver =>
        items object ++ items value ++ items receiver
    | .createDataProperty object _ value => items object ++ items value
    | .define object _ descriptor => items object ++ items descriptor
    | .has object _ | .getOwn object _ | .ownKeys object | .prototypeOf object => items object
    | .setPrototypeOf object prototype => items object ++ items prototype
    | .preventExtensions object | .isExtensible object | .freeze object | .isFrozen object =>
        items object
    | .isArray value | .isConstructor value | .toPrimitive value _ => items value
    | .toNumber value | .toText value | .toPropertyKey value | .display value => items value
    | .looseEquals left right => items left ++ items right
    | .instanceOf value target => items value ++ items target
    | .setGlobal _ value => items value
    | .createArray elements => items elements
    | .resolvePromise promise value => items promise ++ items value
    | .rejectPromise promise reason => items promise ++ items reason
    | .promiseState promise => items promise
    | .collectGarbage roots => items roots
    | _ => []

/-- What an answer holds. -/
instance Request.carrier : (request : Request) -> Carrier request.Response
  | .execute _ => inferInstanceAs (Carrier (Except Failure Value))
  | .call .. | .construct .. | .resume .. =>
      inferInstanceAs (Carrier (Except Exception Value))
  | .get .. | .getWithReceiver .. => inferInstanceAs (Carrier (Except Exception Value))
  | .set .. => inferInstanceAs (Carrier (Except Exception Unit))
  | .setWithReceiver .. | .delete .. | .has .. =>
      inferInstanceAs (Carrier (Except Exception Bool))
  | .createDataProperty .. | .define .. => inferInstanceAs (Carrier (Except Exception Bool))
  | .getOwn .. => inferInstanceAs (Carrier (Option Property))
  | .ownKeys _ => inferInstanceAs (Carrier (List PropertyKey))
  | .prototypeOf _ => inferInstanceAs (Carrier (Except Exception (Option ObjectId)))
  | .setPrototypeOf .. => inferInstanceAs (Carrier (Except Exception Bool))
  | .preventExtensions _ | .isExtensible _ | .freeze _ | .isFrozen _ =>
      inferInstanceAs (Carrier Bool)
  | .isArray _ | .isConstructor _ => inferInstanceAs (Carrier Bool)
  | .toPrimitive .. => inferInstanceAs (Carrier (Except Exception Value))
  | .toNumber _ => inferInstanceAs (Carrier (Except Exception Float))
  | .toText _ => inferInstanceAs (Carrier (Except Exception String))
  | .toPropertyKey _ => inferInstanceAs (Carrier (Except Exception PropertyKey))
  | .display _ => inferInstanceAs (Carrier String)
  | .looseEquals .. | .instanceOf .. => inferInstanceAs (Carrier (Except Exception Bool))
  | .createError .. | .newSymbol _ | .globalObject => inferInstanceAs (Carrier Value)
  | .symbolDescription _ => inferInstanceAs (Carrier (Option String))
  | .getGlobal _ => inferInstanceAs (Carrier (Option Value))
  | .setGlobal .. => inferInstanceAs (Carrier Unit)
  | .createObject | .createArray _ | .newPromise => inferInstanceAs (Carrier Value)
  | .resolvePromise .. | .rejectPromise .. =>
      inferInstanceAs (Carrier (Except Exception Unit))
  | .promiseState _ => inferInstanceAs (Carrier (Option (PromiseState Value)))
  | .runMicrotasks => inferInstanceAs (Carrier (Except Failure Nat))
  | .runEventLoop => inferInstanceAs (Carrier (Except Failure LoopStats))
  | .discardJobs => inferInstanceAs (Carrier (Nat × Nat))
  | .takeUnhandledRejections => inferInstanceAs (Carrier (List Value))
  | .collectGarbage _ => inferInstanceAs (Carrier (Option Heap.CollectionStats))
  | .heapStats => inferInstanceAs (Carrier HeapStats)
  | .config => inferInstanceAs (Carrier Config)

/-! ## What an embedder knows -/

/-- What someone can name who was given some items: these, all primitives, and the objects
that the values among them name. -/
inductive Item.Known (given : List Item) : Item -> Prop
  | given {item : Item} : item ∈ given -> Known given item
  | primitive {value : Value} : value.objectId? = none -> Known given (.value value)
  | named {value : Value} {id : ObjectId} :
      .value value ∈ given -> value.objectId? = some id -> Known given (.object id)

/-- Everything in the data is known. -/
def Knows {α : Type} [Carrier α] (given : List Item) (data : α) : Prop :=
  ∀ item ∈ items data, item.Known given

/-- The request lets queued programs run. -/
def Request.drains : Request -> Bool
  | execute _ | runMicrotasks | runEventLoop => true
  | _ => false

/-- What is known after a request. A collection leaves what it was told to keep, and so may
the programs that a request lets run. -/
def Request.leaves (collects : Bool) (given : List Item) (request : Request)
    (response : request.Response) : List Item :=
  match request with
  | .collectGarbage kept => items kept
  | request =>
      if request.drains && collects then [] else items response ++ given

/-! ## Careful programs -/

namespace HostProgram

/-- The program never asks for a collection. -/
def Quiet : HostProgram σ -> Prop
  | finish _ => True
  | read next => ∀ world, (next world).Quiet
  | write _ next => next.Quiet
  | request asked next =>
      (∀ kept, asked ≠ .collectGarbage kept) ∧ ∀ response, (next response).Quiet
  | register _ _ _ next => ∀ function, (next function).Quiet
  | enqueueTask _ next => next.Quiet
  | enqueueMicrotask _ next => next.Quiet

/-- The program uses only what it is given. The functions that it registers use only their
receivers and arguments, and what it queues uses nothing; that collects garbage only if
queued programs may. -/
def Careful (collects : Bool) : HostProgram σ -> List Item -> Prop
  | finish outcome, given => Knows given outcome
  | read next, given => ∀ world, (next world).Careful collects given
  | write _ next, given => next.Careful collects given
  | request asked next, given =>
      Knows given asked ∧
        ∀ response, (next response).Careful collects (asked.leaves collects given response)
  | register _ _ body next, given =>
      (∀ receiver arguments,
        (body receiver arguments).Careful collects (items receiver ++ items arguments)) ∧
      ∀ function, (next function).Careful collects (items function ++ given)
  | enqueueTask body next, given =>
      (body.Careful collects [] ∧ (collects = false -> body.Quiet)) ∧
        next.Careful collects given
  | enqueueMicrotask body next, given =>
      (body.Careful collects [] ∧ (collects = false -> body.Quiet)) ∧
        next.Careful collects given

/-- A program that is careful on its own and may be queued. -/
def Spare (collects : Bool) (program : HostProgram σ) : Prop :=
  program.Careful collects [] ∧ (collects = false -> program.Quiet)

end HostProgram

/-- All that an embedder left with a machine is careful. -/
structure Machine.Attended (collects : Bool) (machine : Machine σ) : Prop where
  hosts : ∀ body ∈ machine.hosts, ∀ receiver arguments,
    (body receiver arguments).Careful collects (items receiver ++ items arguments)
  tasks : ∀ task ∈ machine.jobs.tasks.jobs, task.Spare collects
  microtasks : ∀ body, Job.host body ∈ machine.jobs.microtasks.jobs -> body.Spare collects

end ScriptVM

/-!
## Consistent machines

A machine is consistent if it vouches for everything that it holds: its objects, its frames,
its queues and its tables. No two frames have a captured variable attached in common, what the
embedder left behind is careful, and async functions are resumed once.

One machine sustains another if that is consistent too, and everything that the first one
vouches for is vouched for still. Objects then stay what they are by nature, async functions in
the hand of native code stay as they are, and chains of prototypes that have an end have one
afterwards, too.
-/

namespace ScriptVM

variable {σ : Type} {collects : Bool}

instance : Carrier (HeapObject ObjectKind) where
  items object :=
    items object.prototype ++ items object.properties.entries ++ items object.payload

namespace ObjectKind

/-- What an object is for as long as it lives. -/
inductive Nature
  | native (function : NativeFunction)
  | coroutine (kind : CoroutineKind)
  | promise
  | other (callable exotic : Bool)

/-- Objects of this nature can be called. -/
def Nature.isCallable : Nature -> Bool
  | .native _ => true
  | .other callable _ => callable
  | .coroutine _ | .promise => false

/-- Objects of this nature are proxies. -/
def Nature.isProxy : Nature -> Bool
  | .other _ exotic => exotic
  | .native _ | .coroutine _ | .promise => false

/-- The nature of an object with these internal slots. -/
def nature : ObjectKind -> Nature
  | .native code => .native code
  | .coroutine activation => .coroutine activation.kind
  | .promise _ => .promise
  | kind => .other kind.isCallable kind.isProxy

@[simp] theorem isCallable_nature (kind : ObjectKind) :
    kind.nature.isCallable = kind.isCallable := by
  cases kind <;> rfl

@[simp] theorem isProxy_nature (kind : ObjectKind) : kind.nature.isProxy = kind.isProxy := by
  cases kind <;> rfl

theorem exists_record_of_nature {kind : ObjectKind} (nature : kind.nature = .promise) :
    ∃ record, kind = .promise record := by
  cases kind with
  | promise record => exact ⟨record, rfl⟩
  | _ => cases nature

theorem isCallable_congr {kind other : ObjectKind} (same : kind.nature = other.nature) :
    kind.isCallable = other.isCallable := by
  rw [← isCallable_nature, same, isCallable_nature]

end ObjectKind

/-- Two frames have no variable attached in common. -/
def Frame.Apart (left right : Frame) : Prop :=
  ∀ entry ∈ left.attached, ∀ other ∈ right.attached, entry.2 ≠ other.2

namespace Machine

variable {id : ObjectId}

/-- The nature of an object. -/
def nature? (machine : Machine σ) (id : ObjectId) : Option ObjectKind.Nature :=
  (machine.kind? id).map ObjectKind.nature

theorem nature?_of_kind?
    {machine : Machine σ}
    {kind : ObjectKind}
    (present : machine.kind? id = some kind) :
    machine.nature? id = some kind.nature := by
  unfold nature?
  rw [present]
  rfl

/-! ### Frames and where they are -/

/-- A frame is on the stack, at some height, or parked in a coroutine. -/
inductive FrameAt (machine : Machine σ) : Nat ⊕ ObjectId -> Frame -> Prop
  | running {height : Nat} {frame : Frame} :
      machine.frames[height]? = some frame -> FrameAt machine (.inl height) frame
  | parked {id : ObjectId} {coroutine : Coroutine} {frame : Frame} :
      machine.kind? id = some (.coroutine coroutine) -> coroutine.frame = some frame ->
      FrameAt machine (.inr id) frame

/-- The variables that a frame has attached are registers of the frame. -/
def Attaches (machine : Machine σ) (frame : Frame) : Prop :=
  ∀ entry ∈ frame.attached,
    machine.cells.upvalues[entry.2.index]? = some (.attached frame.window entry.1)

/-- Frames have only their own registers attached, and nothing in common. -/
structure Tied (machine : Machine σ) : Prop where
  attaches : ∀ {place frame}, machine.FrameAt place frame -> machine.Attaches frame
  apart : ∀ {place other left right}, machine.FrameAt place left ->
    machine.FrameAt other right -> place ≠ other -> left.Apart right

/-! ### Chains of prototypes -/

/-- The chain of prototypes from an object ends with one that has none, or at a proxy. -/
inductive ChainEnds (machine : Machine σ) : ObjectId -> Prop
  | proxy {id : ObjectId} : machine.isProxy id = true -> ChainEnds machine id
  | link {id : ObjectId} :
      (∀ prototype, machine.heap.prototypeOf id = some prototype ->
        ChainEnds machine prototype) -> ChainEnds machine id

/-- All chains of prototypes end. -/
def Acyclic (machine : Machine σ) : Prop :=
  ∀ id, machine.ChainEnds id

/-! ### Consistency -/

/-- The machine vouches for everything that it holds. -/
class Consistent (collects : outParam Bool) (machine : Machine σ) : Prop where
  tidy : machine.heap.Tidy
  objects : ∀ {id object}, machine.heap.get? id = some object -> machine.Vouches object
  frames : machine.Vouches machine.frames
  microtasks : machine.Vouches machine.jobs.microtasks.jobs
  rejections : machine.Vouches machine.rejections.pending
  unhandled : machine.Vouches machine.unhandled
  intrinsics : ∀ id ∈ machine.intrinsics.roots, machine.Tags (.object id)
  tied : machine.Tied
  attended : machine.Attended collects
  resumes : machine.ResumesOnce

/-- Everything that the earlier machine vouches for, the later one vouches for, too, objects
keep their natures, and all native calls are still under way. -/
structure Preserves (before after : Machine σ) : Prop where
  accepts : ∀ {item}, before.Accepts item -> after.Accepts item
  natures : ∀ {id nature}, before.nature? id = some nature -> after.nature? id = some nature
  nativeDepth : before.nativeDepth <= after.nativeDepth

namespace Preserves

variable {before middle after : Machine σ}

theorem refl (machine : Machine σ) : machine.Preserves machine where
  accepts accepted := accepted
  natures present := present
  nativeDepth := Nat.le_refl _

theorem trans (first : before.Preserves middle) (second : middle.Preserves after) :
    before.Preserves after where
  accepts accepted := second.accepts (first.accepts accepted)
  natures present := second.natures (first.natures present)
  nativeDepth := Nat.le_trans first.nativeDepth second.nativeDepth

/-- Other fields of the machine change. -/
theorem of_same
    (heap : after.heap = before.heap)
    (cells : after.cells = before.cells)
    (intrinsics : after.intrinsics = before.intrinsics)
    (nativeDepth : before.nativeDepth <= after.nativeDepth) :
    before.Preserves after := by
  have kinds : ∀ id, after.kind? id = before.kind? id := fun id => by
    unfold kind?
    rw [heap]
  have tags : after.Tags = before.Tags := by
    funext value
    cases value <;> simp only [Tags, kinds, intrinsics]
  refine ⟨fun {item} accepted => ?_, fun present => ?_, nativeDepth⟩
  · cases item <;> simpa only [Accepts, tags, kinds, cells] using accepted
  · unfold nature? at present ⊢
    rwa [kinds]

theorem vouches
    {α : Type}
    [Carrier α]
    (preserves : before.Preserves after)
    {data : α}
    (vouched : before.Vouches data) :
    after.Vouches data :=
  ⟨fun item member => preserves.accepts (vouched.accepts item member)⟩

end Preserves

/-- The earlier machine is preserved, and async functions in the hand of native code stay in
their states. -/
class Later (before : outParam (Machine σ)) (after : Machine σ) : Prop
    extends before.Preserves after where
  inHand : ∀ {coroutine state}, before.InHand coroutine state -> after.InHand coroutine state

namespace Later

variable {before middle after : Machine σ}

theorem refl (machine : Machine σ) : Later machine machine :=
  ⟨.refl machine, id⟩

theorem trans (first : Later before middle) (second : Later middle after) :
    Later before after :=
  ⟨first.toPreserves.trans second.toPreserves, fun held => second.inHand (first.inHand held)⟩

theorem vouches
    {α : Type}
    [Carrier α]
    (later : Later before after)
    {data : α}
    (vouched : before.Vouches data) :
    after.Vouches data :=
  later.toPreserves.vouches vouched

end Later

instance {before after : Machine σ} {α : Type} [Carrier α] (data : α) [later : Later before after]
    [vouched : before.Vouches data] :
    after.Vouches data :=
  later.vouches vouched

/-- A native call is under way. -/
class Nested (machine : Machine σ) : Prop where
  positive : 0 < machine.nativeDepth

/-- The object is a generator. -/
class Generates (machine : Machine σ) (id : ObjectId) : Prop where
  nature : machine.nature? id = some (.coroutine .generator)

instance {before after : Machine σ} [later : Later before after] [generates : before.Generates id] :
    after.Generates id :=
  ⟨later.natures generates.nature⟩

/-- Generators are no async functions. -/
theorem Generates.asyncState? {machine : Machine σ} (generates : machine.Generates id) :
    machine.asyncState? id = none := by
  obtain ⟨kind, present, nature⟩ := Option.map_eq_some_iff.1 generates.nature
  rw [asyncState?_of_kind? present]
  cases kind with
  | coroutine activation =>
      obtain ⟨state, frame, kind⟩ := activation
      cases nature
      rfl
  | _ => rfl

/-- The later machine is consistent, vouches for what the earlier one does, and has no
cycles of prototypes unless that had some. -/
structure Maintains (collects : Bool) (before after : Machine σ) : Prop where
  consistent : after.Consistent collects
  preserves : before.Preserves after
  acyclic : before.Acyclic -> after.Acyclic

/-- And async functions in the hand of native code stay in their states. -/
class Sustains (collects : outParam Bool) (before : outParam (Machine σ))
    (after : Machine σ) : Prop where
  consistent : after.Consistent collects
  later : Later before after
  acyclic : before.Acyclic -> after.Acyclic

section

variable {before middle after : Machine σ}

theorem Sustains.maintains (sustains : before.Sustains collects after) :
    before.Maintains collects after :=
  ⟨sustains.consistent, sustains.later.toPreserves, sustains.acyclic⟩

theorem Maintains.sustains
    (maintains : before.Maintains collects after)
    (inHand : ∀ {coroutine state}, before.InHand coroutine state ->
      after.InHand coroutine state) :
    before.Sustains collects after :=
  ⟨maintains.consistent, ⟨maintains.preserves, inHand⟩, maintains.acyclic⟩

theorem Maintains.trans
    (first : before.Maintains collects middle)
    (second : middle.Maintains collects after) :
    before.Maintains collects after where
  consistent := second.consistent
  preserves := first.preserves.trans second.preserves
  acyclic acyclic := second.acyclic (first.acyclic acyclic)

theorem Sustains.refl (machine : Machine σ) [machine.Consistent collects] :
    machine.Sustains collects machine where
  consistent := inferInstance
  later := .refl machine
  acyclic acyclic := acyclic

theorem Sustains.trans
    (first : before.Sustains collects middle)
    (second : middle.Sustains collects after) :
    before.Sustains collects after where
  consistent := second.consistent
  later := first.later.trans second.later
  acyclic acyclic := second.acyclic (first.acyclic acyclic)

end

/-! ### What a consistent machine vouches for -/

section

variable {machine : Machine σ} [consistent : machine.Consistent collects] {id : ObjectId}
variable {kind : ObjectKind}

omit consistent in
theorem vouches_object {object : HeapObject ObjectKind} :
    machine.Vouches object ↔
      machine.Vouches object.prototype ∧ machine.Vouches object.properties.entries ∧
        machine.Vouches object.payload := by
  simp only [vouches_iff, items, List.forall_mem_append, and_assoc]

instance (id : ObjectId) : machine.Vouches (machine.heap.prototypeOf id) := by
  unfold Heap.prototypeOf
  cases live : machine.heap.get? id with
  | none => exact vouches_none
  | some object => exact (vouches_object.1 (consistent.objects live)).1

instance vouches_kind? (id : ObjectId) : machine.Vouches (machine.kind? id) := by
  unfold kind? Heap.payload?
  cases live : machine.heap.get? id with
  | none => exact vouches_none
  | some object => exact vouches_some.2 (vouches_object.1 (consistent.objects live)).2.2

include consistent in
theorem vouches_of_kind? (present : machine.kind? id = some kind) : machine.Vouches kind :=
  vouches_some.1 (present ▸ vouches_kind? id)

instance (value : Value) : machine.Vouches (machine.kindOf? value) := by
  unfold kindOf?
  cases value.objectId? with
  | none => exact vouches_none
  | some id => exact vouches_kind? id

include consistent in
theorem vouches_entry
    {object : HeapObject ObjectKind}
    (live : machine.heap.get? id = some object)
    {entry : PropertyKey × Property}
    (member : entry ∈ object.properties.entries) :
    machine.Vouches entry.2 :=
  (vouches_pair.1 (vouches_array.1 (vouches_object.1 (consistent.objects live)).2.1 entry
    member)).2

instance (id : ObjectId) (offset : Nat) : machine.Vouches (machine.heap.propertyAt? id offset) := by
  unfold Heap.propertyAt?
  cases live : machine.heap.get? id with
  | none => exact vouches_none
  | some object =>
      have := (vouches_object.1 (consistent.objects live)).2.1
      exact vouches_array_get? object.properties.entries offset

instance vouches_lookup? (id : ObjectId) (key : PropertyKey) :
    machine.Vouches (machine.heap.lookup? id key) := by
  unfold Heap.lookup?
  cases live : machine.heap.get? id with
  | none => exact vouches_none
  | some object =>
      have entries := (vouches_object.1 (consistent.objects live)).2.1
      show machine.Vouches (object.properties.lookup? key)
      unfold PropertyTable.lookup?
      cases object.properties.offset? key with
      | none => exact vouches_none
      | some offset =>
          show machine.Vouches ((object.properties.at? offset).bind fun entry =>
            some (offset, entry.2))
          cases present : object.properties.at? offset with
          | none => exact vouches_none
          | some entry =>
              have := vouches_entry live (Array.mem_of_getElem? present)
              exact vouches_some.2 (vouches_pair_of offset entry.2)

instance (id : ObjectId) (key : PropertyKey) : machine.Vouches (machine.heap.getOwn? id key) := by
  have found : machine.Vouches (machine.heap.lookup? id key) := vouches_lookup? id key
  unfold Heap.lookup? at found
  unfold Heap.getOwn?
  cases live : machine.heap.get? id with
  | none => exact vouches_none
  | some object =>
      rw [live] at found
      show machine.Vouches ((object.properties.lookup? key).map Prod.snd)
      cases looked : object.properties.lookup? key with
      | none => exact vouches_none
      | some entry =>
          have pair : machine.Vouches (some entry) := looked ▸ found
          exact vouches_some.2 (vouches_pair.1 (vouches_some.1 pair)).2

/-- An object that is live and cannot be called goes by the object form. -/
theorem vouches_of_kind
    (present : machine.kind? id = some kind)
    (plain : kind.isCallable = false) :
    machine.Vouches (Value.object id) :=
  vouches_value.2 ⟨kind, present, fun callable => by rw [plain] at callable; cases callable⟩

omit consistent in
/-- Promises go by the object form. -/
instance (priority := low) vouches_object_promiseHandle
    (id : ObjectId)
    [vouched : machine.Vouches (PromiseHandle.mk id)] :
    machine.Vouches (Value.object id) :=
  have ⟨_, present⟩ := vouches_promiseHandle.1 vouched
  vouches_of_kind present rfl

theorem vouches_of_callable
    (present : machine.kind? id = some kind)
    (callable : kind.isCallable = true) :
    machine.Vouches (Value.function id) :=
  vouches_value.2 ⟨kind, present, callable⟩

instance (id : ObjectId) [vouched : machine.Vouches id] :
    machine.Vouches (machine.objectValue id) := by
  obtain ⟨kind, present⟩ := vouches_id.1 vouched
  unfold objectValue
  rw [present]
  cases callable : kind.isCallable with
  | true => simpa [callable] using vouches_of_callable present callable
  | false => simpa [callable] using vouches_of_kind present callable

/-! #### Tables -/

instance : machine.Vouches machine.top? := by
  unfold top?
  cases standing : machine.frames.back? with
  | none => exact vouches_none
  | some frame =>
      exact vouches_some.2 (vouches_array.1 consistent.frames frame
        (Array.mem_of_back? standing))

include consistent in
theorem vouches_intrinsic (member : id ∈ machine.intrinsics.roots) :
    machine.Vouches (Value.object id) :=
  vouches_value.2 (consistent.intrinsics id member)

instance : machine.Vouches (Value.object machine.intrinsics.global) :=
  vouches_intrinsic (by simp [Intrinsics.roots])

instance : machine.Vouches (Value.object machine.intrinsics.objectPrototype) :=
  vouches_intrinsic (by simp [Intrinsics.roots])

instance : machine.Vouches (Value.object machine.intrinsics.functionPrototype) :=
  vouches_intrinsic (by simp [Intrinsics.roots])

instance : machine.Vouches (Value.object machine.intrinsics.arrayPrototype) :=
  vouches_intrinsic (by simp [Intrinsics.roots])

instance : machine.Vouches (Value.object machine.intrinsics.arrayIteratorPrototype) :=
  vouches_intrinsic (by simp [Intrinsics.roots])

instance : machine.Vouches (Value.object machine.intrinsics.generatorPrototype) :=
  vouches_intrinsic (by simp [Intrinsics.roots])

instance : machine.Vouches (Value.object machine.intrinsics.promisePrototype) :=
  vouches_intrinsic (by simp [Intrinsics.roots])

instance (kind : ErrorKind) :
    machine.Vouches (Value.object (machine.intrinsics.errorPrototypeOf kind)) := by
  cases kind <;> exact vouches_intrinsic (by simp [Intrinsics.roots, Intrinsics.errorPrototypeOf])

instance (value : Value) : machine.Vouches (machine.primitivePrototype? value) := by
  unfold primitivePrototype?
  have root : ∀ id ∈ machine.intrinsics.roots, machine.Vouches (some id) := fun id member => by
    have := vouches_intrinsic member
    infer_instance
  split
  · exact root _ (by simp [Intrinsics.roots])
  · exact root _ (by simp [Intrinsics.roots])
  · exact root _ (by simp [Intrinsics.roots])
  · exact root _ (by simp [Intrinsics.roots])
  · exact vouches_none

/-! #### Shared cells -/

omit consistent in
theorem vouches_register_of
    (window : WindowId)
    (register : Register)
    [vouched : machine.Vouches window] :
    machine.Vouches (machine.cells.register window register) := by
  have values := vouches_window.1 vouched
  unfold Cells.window at values
  unfold Cells.register
  cases opened : machine.cells.windows[window.index]? with
  | none => infer_instance
  | some registers =>
      rw [opened] at values
      dsimp only
      cases present : registers[register]? with
      | none => exact vouches_undefined
      | some value => exact values value (Array.mem_of_getElem? present)

instance (register : Register) : machine.Vouches (machine.register register) := by
  unfold Machine.register
  cases standing : machine.frames.back? with
  | none => infer_instance
  | some frame =>
      have standing : machine.top? = some frame := standing
      have : machine.Vouches frame := .of_some standing
      exact vouches_register_of frame.window register

instance (window : WindowId) (first count : Nat) [machine.Vouches window] :
    machine.Vouches (machine.cells.registerRange window first count) :=
  vouches_list.2 fun value member => by
    obtain ⟨offset, _, rfl⟩ := List.mem_map.1 member
    exact vouches_register_of window (first + offset)

omit consistent in
theorem vouches_captured {id : UpvalueId} :
    machine.Vouches id ↔
      (∀ window register, machine.cells.upvalues[id.index]? = some (.attached window register) ->
        machine.Vouches window) ∧
      ∀ value, machine.cells.upvalues[id.index]? = some (.detached value) ->
        machine.Vouches value := by
  have single : machine.Vouches id ↔ machine.Accepts (.captured id) :=
    vouches_iff.trans List.forall_mem_singleton
  rw [single]
  unfold Accepts
  cases present : machine.cells.upvalues[id.index]? with
  | none => simp [present]
  | some upvalue => cases upvalue <;> simp [present, vouches_window, vouches_value]

instance (id : UpvalueId) [vouched : machine.Vouches id] :
    machine.Vouches (machine.cells.upvalue id) := by
  obtain ⟨attached, detached⟩ := vouches_captured.1 vouched
  unfold Cells.upvalue
  split
  · next window register same =>
      have := attached window register same
      exact vouches_register_of window register
  · next value same => exact detached value same
  · infer_instance

omit consistent in
theorem vouches_cell {id : ThisCellId} :
    machine.Vouches id ↔
      ∀ value, machine.cells.thisCells[id.index]? = some (some value) ->
        machine.Vouches value := by
  simp only [vouches_value]
  exact vouches_iff.trans List.forall_mem_singleton

instance (scope : Scope) [vouched : machine.Vouches scope] :
    machine.Vouches (machine.cells.this? scope) := by
  have this := (vouches_scope.1 vouched).1
  unfold Cells.this?
  split
  · next value same =>
      rw [same] at this
      exact vouches_some.2 ⟨this.accepts⟩
  · next cell same =>
      rw [same] at this
      have filled := vouches_cell.1 (⟨this.accepts⟩ : machine.Vouches cell)
      cases present : machine.cells.thisCells[cell.index]? with
      | none => exact vouches_none
      | some content =>
          cases content with
          | none => exact vouches_none
          | some value => exact vouches_some.2 (filled value present)

omit consistent in
theorem vouches_aggregate {id : AggregateId} :
    machine.Vouches id ↔
      ∀ aggregate, machine.cells.aggregates[id.index]? = some aggregate ->
        ∀ value, some value ∈ aggregate.entries -> machine.Vouches value := by
  simp only [vouches_value]
  exact vouches_iff.trans List.forall_mem_singleton

end

end Machine
end ScriptVM

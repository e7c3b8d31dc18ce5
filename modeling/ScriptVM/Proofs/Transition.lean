import Mathlib.Logic.Relation
import ScriptVM.Machine.Run
import ScriptVM.Proofs.CoroutineFrames

/-!
# Transitions of a machine

Everything that a run does to a machine is a sequence of small transitions: one
change of the heap, of the shared cells, of the innermost frame or of the stack.
Each transition says under which circumstances it happens, so that an invariant of
all runs needs one proof for each of them.

A run also moves code and frames around outside of the machine. The origins of a
stage record the templates and the frames that came up so far; they only grow.
-/

namespace ScriptVM

/-! ## Instructions of a template -/

namespace Instruction

/-- The operands that refer to string constants. -/
def names : Instruction -> List Nat
  | .getGlobal _ name | .getGlobalOrUndefined _ name => [name]
  | .setGlobal name _ | .defineGlobal name _ | .checkHole _ name => [name]
  | .deleteNamed _ _ name | .getNamed _ _ name _ | .setNamed _ name _ _ => [name]
  | .throwError _ message => [message]
  | _ => []

/-- An operand of the instruction refers to this. -/
def RefersTo (instruction : Instruction) : Referent -> Prop
  | .register register =>
      ∃ block ∈ instruction.registers, block.1 <= register ∧ register < block.1 + block.2
  | .constant index => ∃ destination, instruction = .loadConst destination index
  | .name index => index ∈ instruction.names
  | .function index => ∃ destination, instruction = .createClosure destination index
  | .cacheSlot slot =>
      (∃ destination object name, instruction = .getNamed destination object name slot) ∨
        ∃ object name value, instruction = .setNamed object name value slot

end Instruction

namespace Template

/-- The instruction stands somewhere in the code. -/
def Contains
    (template : Template)
    (instruction : Instruction) : Prop :=
  ∃ offset, template.instruction? offset = some instruction

theorem Contains.placed
    {template : Template}
    {instruction : Instruction}
    (contains : template.Contains instruction) :
    ∃ placed ∈ template.chunk.code.toList, placed.instruction = instruction := by
  obtain ⟨offset, found⟩ := contains
  obtain ⟨placed, stands, same⟩ := Option.map_eq_some_iff.1 found
  exact ⟨placed, Array.mem_toList_iff.2 (Array.mem_of_getElem? stands), same⟩

/-- Some access through a cache slot has a name. -/
def Accesses
    (template : Template)
    (slot : Nat)
    (name : String) : Prop :=
  ∃ index, template.chunk.string? index = some name ∧
    ((∃ destination object, template.Contains (.getNamed destination object index slot)) ∨
      ∃ object value, template.Contains (.setNamed object index value slot))

/-- A template is the outer one or nested in it at some depth. -/
inductive Within (outer : Template) : Template -> Prop
  | self : Within outer outer
  | nested {middle inner : Template} :
      Within outer middle -> inner ∈ middle.nested -> Within outer inner

end Template

/-! ## Captured variables -/

/-- A closure has a variable for each that its code captures. -/
def Closure.Equipped (closure : Closure) : Prop :=
  closure.upvalues.size = closure.template.chunk.info.captures.length

/-- The frame of a function has a variable for each that its code captures. That of a
script has none. -/
structure Frame.Equipped (frame : Frame) : Prop where
  function : frame.function.isSome ->
    frame.upvalues.size = frame.template.chunk.info.captures.length
  script : frame.function = none -> frame.upvalues = #[]

/-! ## Origins -/

/-- The templates and the scopes that closures and frames may carry, the frames that native
code may park or run, and the objects that no collection frees. -/
structure Origins where
  template : Template -> Prop
  /-- The scopes that began without a `this`. -/
  scope : Scope -> Prop
  frame : Frame -> Prop
  spared : ObjectId -> Prop
  /-- Closures and frames may lack variables that their code captures, and coroutines may
  be in any state. -/
  lax : Prop

namespace Origins

/-- Nothing came up yet. -/
def none : Origins where
  template _ := False
  scope _ := False
  frame _ := False
  spared _ := False
  lax := False

/-- Everything is allowed. -/
def all : Origins where
  template _ := True
  scope _ := True
  frame _ := True
  spared _ := False
  lax := True

/-- One more frame. -/
def withFrame
    (origins : Origins)
    (frame : Frame) : Origins where
  template := origins.template
  scope := origins.scope
  frame known := origins.frame known ∨ known = frame
  spared := origins.spared
  lax := origins.lax

/-- One more template with all that is nested in it. -/
def withTemplate
    (origins : Origins)
    (outer : Template) : Origins where
  template known := origins.template known ∨ outer.Within known
  scope := origins.scope
  frame := origins.frame
  spared := origins.spared
  lax := origins.lax

/-- One more scope. -/
def withScope
    (origins : Origins)
    (scope : Scope) : Origins where
  template := origins.template
  scope known := origins.scope known ∨ known = scope
  frame := origins.frame
  spared := origins.spared
  lax := origins.lax

/-- The scope came up, or its `this` was known from the start. -/
def Places (origins : Origins) (scope : Scope) : Prop :=
  ∀ cell, scope.this = .pending cell -> origins.scope scope

theorem places_of_bound
    {origins : Origins}
    {scope : Scope}
    {value : Value}
    (bound : scope.this = .bound value) :
    origins.Places scope := by
  intro cell pending
  cases bound.symm.trans pending

/-- The code of a closure and the scope that it keeps came up, and the closure has what its
code captures. -/
structure Vouches (origins : Origins) (closure : Closure) : Prop where
  template : origins.template closure.template
  equipped : origins.lax ∨ closure.Equipped
  lexical : ∀ scope, closure.lexicalScope = some scope -> origins.Places scope

/-- The code and the scope of a frame came up, and the frame has what its code captures. -/
structure Admits (origins : Origins) (frame : Frame) : Prop where
  template : origins.template frame.template
  equipped : origins.lax ∨ frame.Equipped
  placed : origins.Places frame.scope

/-- The code and the frames that internal slots hold came up. -/
def Covers (origins : Origins) : ObjectKind -> Prop
  | .function closure => origins.Vouches closure
  | .coroutine coroutine => ∀ frame, coroutine.frame = some frame -> origins.frame frame
  | _ => True

theorem covers_all (kind : ObjectKind) : all.Covers kind := by
  cases kind with
  | function closure => exact ⟨trivial, Or.inl trivial, fun _ _ _ _ => trivial⟩
  | coroutine => exact fun _ _ => trivial
  | _ => trivial

/-- Later origins know all that earlier ones know, spare the same objects and are as
lax. -/
structure Extend (later earlier : Origins) : Prop where
  template : ∀ template, earlier.template template -> later.template template
  scope : ∀ scope, earlier.scope scope -> later.scope scope
  frame : ∀ frame, earlier.frame frame -> later.frame frame
  spared : later.spared = earlier.spared
  lax : later.lax = earlier.lax

namespace Extend

variable {later earlier : Origins}

@[refl] theorem refl (origins : Origins) : origins.Extend origins where
  template _ known := known
  scope _ known := known
  frame _ known := known
  spared := rfl
  lax := rfl

theorem trans
    {first second third : Origins}
    (later : third.Extend second)
    (earlier : second.Extend first) :
    third.Extend first where
  template template known := later.template template (earlier.template template known)
  scope scope known := later.scope scope (earlier.scope scope known)
  frame frame known := later.frame frame (earlier.frame frame known)
  spared := later.spared.trans earlier.spared
  lax := later.lax.trans earlier.lax

theorem places (extend : later.Extend earlier) {scope : Scope} (placed : earlier.Places scope) :
    later.Places scope :=
  fun cell pending => extend.scope scope (placed cell pending)

variable (extend : later.Extend earlier)
include extend

theorem vouches
    {closure : Closure}
    (vouched : earlier.Vouches closure) :
    later.Vouches closure where
  template := extend.template _ vouched.template
  equipped := by
    rw [extend.lax]
    exact vouched.equipped
  lexical scope kept := extend.places (vouched.lexical scope kept)

theorem admits
    {frame : Frame}
    (admitted : earlier.Admits frame) :
    later.Admits frame where
  template := extend.template _ admitted.template
  equipped := by
    rw [extend.lax]
    exact admitted.equipped
  placed := extend.places admitted.placed

theorem covers
    {kind : ObjectKind}
    (covered : earlier.Covers kind) :
    later.Covers kind := by
  cases kind with
  | function closure => exact extend.vouches covered
  | coroutine coroutine =>
      intro frame parked
      exact extend.frame frame (covered frame parked)
  | _ => trivial

end Extend

theorem extend_withFrame (origins : Origins) (frame : Frame) :
    (origins.withFrame frame).Extend origins where
  template _ known := known
  scope _ known := known
  frame _ known := Or.inl known
  spared := rfl
  lax := rfl

theorem extend_withTemplate (origins : Origins) (outer : Template) :
    (origins.withTemplate outer).Extend origins where
  template _ known := Or.inl known
  scope _ known := known
  frame _ known := known
  spared := rfl
  lax := rfl

theorem extend_withScope (origins : Origins) (scope : Scope) :
    (origins.withScope scope).Extend origins where
  template _ known := known
  scope _ known := Or.inl known
  frame _ known := known
  spared := rfl
  lax := rfl

end Origins

/-! ## Changes of the parts of a machine -/

/-- How the elements of an array change in number: they stay within the bound or do not
become more, or there is one more. -/
def ArrayStore.Grows (before after : ArrayStore) : Prop :=
  after.elements.size <= max before.elements.size Machine.maxArrayLength ∨
    after.elements.size = before.elements.size + 1

/-- How internal slots change: their kind stays, and so does the code of a
function. -/
inductive ObjectKind.Evolves : ObjectKind -> ObjectKind -> Prop
  | same (kind : ObjectKind) : Evolves kind kind
  | array (before after : ArrayStore) :
      before.Grows after -> Evolves (.array before) (.array after)
  | closure (closure : Closure) (homeObject fieldInitializer : Option ObjectId) :
      Evolves (.function closure) (.function { closure with homeObject, fieldInitializer })
  | coroutine (coroutine : Coroutine) (state : CoroutineState) (frame : Option Frame) :
      Evolves (.coroutine coroutine) (.coroutine { coroutine with state, frame })
  | promise (before after : PromiseRecord Value Reaction) :
      Evolves (.promise before) (.promise after)
  | arrayIterator (array : Value) (before after : Nat) (ended done : Bool) :
      Evolves (.arrayIterator array before ended) (.arrayIterator array after done)

/-- One change of the heap. -/
inductive HeapChange (origins : Origins) : Heap ObjectKind -> Heap ObjectKind -> Prop
  | allocate (heap : Heap ObjectKind) (prototype : Option ObjectId) (kind : ObjectKind) :
      origins.Covers kind -> HeapChange origins heap (heap.allocate prototype kind).2
  | define (heap : Heap ObjectKind) (id : ObjectId) (key : PropertyKey)
      (property : Property) :
      HeapChange origins heap (heap.define id key property)
  | setValueAt (heap : Heap ObjectKind) (id : ObjectId) (offset : Nat) (value : Value) :
      HeapChange origins heap (heap.setValueAt id offset value)
  | remove (heap : Heap ObjectKind) (id : ObjectId) (key : PropertyKey) :
      HeapChange origins heap (heap.remove id key)
  | setPrototype (heap : Heap ObjectKind) (id : ObjectId) (prototype : Option ObjectId) :
      HeapChange origins heap (heap.setPrototype id prototype)
  | preventExtensions (heap : Heap ObjectKind) (id : ObjectId) :
      HeapChange origins heap (heap.preventExtensions id)
  | modifyPayload (heap : Heap ObjectKind) (id : ObjectId)
      (change : ObjectKind -> ObjectKind) :
      (∀ kind, heap.payload? id = some kind ->
        kind.Evolves (change kind) ∧ (origins.Covers kind -> origins.Covers (change kind))) ->
      HeapChange origins heap (heap.modifyPayload id change)

/-- One change of the shared cells. -/
inductive CellsChange : Cells -> Cells -> Prop
  | openWindow (cells : Cells) (size : Nat) :
      CellsChange cells (cells.openWindow size).2
  | setRegister (cells : Cells) (window : WindowId) (register : Register) (value : Value) :
      CellsChange cells (cells.setRegister window register value)
  | setUpvalue (cells : Cells) (id : UpvalueId) (value : Value) :
      CellsChange cells (cells.setUpvalue id value)
  /-- What the functions of promises share. -/
  | share (cells : Cells) (latches : Array Bool) (aggregates : Array (Aggregate Value)) :
      CellsChange cells { cells with latches, aggregates }

/-- At most captured variables change. -/
structure Cells.Recaptures (before after : Cells) : Prop where
  windows : after.windows = before.windows
  thisCells : after.thisCells = before.thisCells
  latches : after.latches = before.latches
  aggregates : after.aggregates = before.aggregates

theorem Cells.Recaptures.trans
    {first second third : Cells}
    (earlier : first.Recaptures second)
    (later : second.Recaptures third) :
    first.Recaptures third :=
  ⟨later.windows.trans earlier.windows, later.thisCells.trans earlier.thisCells,
    later.latches.trans earlier.latches, later.aggregates.trans earlier.aggregates⟩

theorem Frame.recaptures_detachFrom (frame : Frame) (cells : Cells) (first : Register) :
    cells.Recaptures (frame.detachFrom cells first).2 := by
  unfold detachFrom
  dsimp only
  generalize frame.attached.filter (fun entry => first <= entry.1) = leaving
  induction leaving generalizing cells with
  | nil => exact ⟨rfl, rfl, rfl, rfl⟩
  | cons entry rest step =>
      have detached : cells.Recaptures (cells.detach entry.2) := ⟨rfl, rfl, rfl, rfl⟩
      exact detached.trans (step _)

theorem Machine.recaptures_resolveCaptures
    (captures : List Capture)
    (frame : Frame)
    (cells : Cells) :
    cells.Recaptures (resolveCaptures frame cells captures).2.2 := by
  induction captures generalizing frame cells with
  | nil => exact ⟨rfl, rfl, rfl, rfl⟩
  | cons capture rest step =>
      cases capture with
      | register register =>
          have captured : cells.Recaptures (frame.capture cells register).2.2 := by
            unfold Frame.capture
            split <;> exact ⟨rfl, rfl, rfl, rfl⟩
          exact captured.trans (step _ _)
      | upvalue index =>
          unfold resolveCaptures
          split
          · exact ⟨rfl, rfl, rfl, rfl⟩
          · exact step frame cells

namespace Machine

variable {σ : Type} (machine : Machine σ)

theorem recaptures_popFrame : machine.cells.Recaptures machine.popFrame.cells := by
  unfold popFrame
  split
  · exact ⟨rfl, rfl, rfl, rfl⟩
  · exact Frame.recaptures_detachFrom _ _ _

theorem recaptures_detachFrom (first : Register) :
    machine.cells.Recaptures (machine.detachFrom first).cells := by
  unfold detachFrom
  split
  · exact ⟨rfl, rfl, rfl, rfl⟩
  · exact Frame.recaptures_detachFrom _ _ _

theorem recaptures_captureClosure (nested : Template) :
    machine.cells.Recaptures (machine.captureClosure nested).2.cells := by
  unfold captureClosure
  split
  · exact ⟨rfl, rfl, rfl, rfl⟩
  · exact recaptures_resolveCaptures _ _ _

end Machine

namespace Frame

/-- A frame that has not executed anything. -/
structure Fresh
    (cells : Cells)
    (frame : Frame) : Prop where
  window : (cells.window frame.window).size = frame.template.chunk.registerCount
  next : frame.next = 0
  attached : frame.attached = []
  tryRegions : frame.tryRegions = []
  completions : frame.completions = #[]
  coroutine : frame.coroutine = none
  resumeRegister : frame.resumeRegister = none

/-- How a frame off the stack is prepared for its next run. -/
inductive Prepared : Frame -> Frame -> Prop
  | construct (frame : Frame) (construct : ConstructKind) :
      Prepared frame { frame with construct }
  | coroutine (frame : Frame) (id : ObjectId) :
      Prepared frame { frame with coroutine := some id }
  | delegate (frame : Frame) (delegation : ResumeMode × Value) :
      Prepared frame { frame with delegating := false, delegation := some delegation }
  | resume (frame : Frame) :
      Prepared frame { frame with resumeRegister := none }

/-- The frame has fetched the instruction and stands behind it. -/
def HasFetched
    (frame : Frame)
    (instruction : Instruction) : Prop :=
  ∃ offset, frame.next = offset + 1 ∧ frame.template.instruction? offset = some instruction

/-- One change of the innermost frame after it fetched an instruction, or when a throw or a
return comes to it. -/
inductive Turn : Frame -> Frame -> Prop
  | jump (frame : Frame) (instruction : Instruction) (target : Nat) :
      frame.HasFetched instruction -> target ∈ instruction.targets ->
      Turn frame { frame with next := target }
  | enterTry (frame : Frame) (catchTarget finallyTarget : Option Nat) :
      frame.HasFetched (.enterTry catchTarget finallyTarget) ->
      Turn frame (frame.enterTry catchTarget finallyTarget)
  | exitTry (frame : Frame) : Turn frame frame.exitTry
  | gotoFinally (frame : Frame) (target : Nat) :
      frame.HasFetched (.gotoFinally target) ->
      Turn frame (frame.enterFinally target .normal)
  | leave (frame : Frame) (target depth : Nat) :
      frame.HasFetched (.leave target depth) ->
      Turn frame (frame.leave target depth)
  /-- End a finally body whose completion takes effect elsewhere. -/
  | endFinally (frame : Frame) (height : Nat) (outer : List TryRegion) :
      frame.tryRegions = .finallyBody height :: outer ->
      Turn frame ({ frame with tryRegions := outer }.truncate height)
  /-- End a finally body with a pending jump. -/
  | endJump (frame : Frame) (height : Nat) (outer : List TryRegion) (target depth : Nat) :
      frame.tryRegions = .finallyBody height :: outer ->
      frame.completions[height]? = some (.jump target depth) ->
      Turn frame (({ frame with tryRegions := outer }.truncate height).leave target depth)
  | catchBody (frame routed : Frame) (target : Nat) (value : Value) :
      frame.routeThrow = (some (.catchBody target), routed) ->
      Turn frame { routed with exception := some value, next := target }
  | finallyBody (frame routed : Frame) (target : Nat) (exception : Exception) :
      frame.routeThrow = (some (.finallyBody target), routed) ->
      Turn frame (routed.enterFinally target (.throw exception))
  | return (frame routed : Frame) (value : Value) :
      frame.routeReturn value = (true, routed) ->
      Turn frame routed
  | resumeInto (frame : Frame) (instruction : Instruction) (register : Register) :
      frame.HasFetched instruction -> (register, 1) ∈ instruction.registers ->
      Turn frame { frame with resumeRegister := some register }
  | takeDelegation (frame : Frame) : Turn frame { frame with delegation := none }
  /-- Stand before the delegating instruction again. -/
  | delegating (frame : Frame) (destination iterator : Register) :
      frame.HasFetched (.yieldStar destination iterator) ->
      Turn frame { frame with next := frame.next - 1, delegating := true }
  | argumentsObject (frame : Frame) (id : ObjectId) :
      Turn frame { frame with argumentsObject := some id }

/-- One change of the innermost frame. -/
inductive Move : Frame -> Frame -> Prop
  /-- Fetch an instruction. -/
  | advance (frame : Frame) (instruction : Instruction) :
      frame.template.instruction? frame.next = some instruction ->
      Move frame { frame with next := frame.next + 1 }
  | turn (before after : Frame) : before.Turn after -> Move before after

theorem HasFetched.contains
    {frame : Frame}
    {instruction : Instruction}
    (fetched : frame.HasFetched instruction) :
    frame.template.Contains instruction := by
  obtain ⟨offset, -, found⟩ := fetched
  exact ⟨offset, found⟩

end Frame

/-! ## Stages and transitions -/

/-- A machine in the middle of a run. -/
structure Stage (σ : Type) where
  origins : Origins
  machine : Machine σ

/-- The innermost frame runs a template and has fetched an instruction of it. -/
structure Machine.Executes
    {σ : Type}
    (machine : Machine σ)
    (template : Template)
    (instruction : Instruction) : Prop where
  innermost : ∃ frame, machine.top? = some frame ∧ frame.template = template ∧
    frame.HasFetched instruction

namespace Machine.Executes

variable {σ : Type} {machine : Machine σ} {template : Template} {instruction : Instruction}

theorem top (executes : machine.Executes template instruction) :
    ∃ frame, machine.top? = some frame ∧ frame.template = template := by
  obtain ⟨frame, found, code, -⟩ := executes.innermost
  exact ⟨frame, found, code⟩

theorem contains (executes : machine.Executes template instruction) :
    template.Contains instruction := by
  obtain ⟨frame, -, rfl, fetched⟩ := executes.innermost
  exact fetched.contains

end Machine.Executes

/-- What is used at a sight is an operand of an instruction that is executed. -/
def Sight.Founded {σ : Type} (sight : Sight σ) : Prop :=
  ∀ referent, sight.used = some referent -> ∃ template instruction,
    sight.machine.Executes template instruction ∧ instruction.RefersTo referent

/-- Nothing is used where the watch only sees the machine. -/
theorem Sight.Founded.machine {σ : Type} (machine : Machine σ) :
    Sight.Founded { machine } := by
  intro referent impossible
  cases impossible

/-- Where a frame that is called in place hands its result: into a register that an
instruction of the caller names, or on to wherever the caller returns. -/
inductive Machine.Expects {σ : Type} (machine : Machine σ) : ReturnTo -> Prop
  | caller (top : Frame) (instruction : Instruction) (destination : Register) :
      machine.top? = some top -> top.template.Contains instruction ->
      (destination, 1) ∈ instruction.registers ->
      Expects machine (.caller destination)
  | tailReturn : Expects machine .tailReturn

/-- One transition of a machine. -/
inductive Transition {σ : Type} : Stage σ -> Stage σ -> Prop
  | heap (origins : Origins) (machine : Machine σ) (heap : Heap ObjectKind) :
      HeapChange origins machine.heap heap ->
      origins.lax ∨ (machine.heap.Tidy -> machine.heap.Tends heap) ->
      Transition ⟨origins, machine⟩ ⟨origins, { machine with heap }⟩
  | cells (origins : Origins) (machine : Machine σ) (cells : Cells) :
      CellsChange machine.cells cells ->
      Transition ⟨origins, machine⟩ ⟨origins, { machine with cells }⟩
  /-- A scope begins whose `this` is not known yet. -/
  | scope (origins : Origins) (machine : Machine σ) (scope : Scope) :
      scope.this = .pending machine.cells.addThisCell.1 ->
      Transition ⟨origins, machine⟩
        ⟨origins.withScope scope, { machine with cells := machine.cells.addThisCell.2 }⟩
  /-- A super call of the innermost frame gives the `this` of its scope a value. -/
  | bindThis (origins : Origins) (machine : Machine σ) (top : Frame)
      (destination first : Register) (count : Nat) (this : Value) :
      machine.top? = some top -> top.HasFetched (.superCall destination first count) ->
      Transition ⟨origins, machine⟩
        ⟨origins, { machine with cells := (machine.cells.bindThis top.scope this).2 }⟩
  /-- Tables that no frame and no object depends on. -/
  | tables (origins : Origins) (machine : Machine σ) (symbols : Array (Option String))
      (jobs : EventLoop (Job σ) (HostProgram σ)) (rejections : Rejections ObjectId)
      (unhandled : List Value) (hosts : Array (HostFunction σ))
      (journal : Array (PromiseEvent σ)) (world : σ) :
      Transition ⟨origins, machine⟩
        ⟨origins, { machine with symbols, jobs, rejections, unhandled, hosts, journal, world }⟩
  /-- Read through an inline cache. -/
  | consult (origins : Origins) (machine : Machine σ) (id : ObjectId) (name : String)
      (template : Template) (slot : Nat) :
      origins.template template -> template.Accesses slot name ->
      Transition ⟨origins, machine⟩
        ⟨origins, (machine.cachedLookup id name template.id slot).2⟩
  /-- Remember a place that was written. -/
  | remember (origins : Origins) (machine : Machine σ) (id : ObjectId) (name : String)
      (template : Template) (slot : Nat) :
      origins.template template -> template.Accesses slot name ->
      Transition ⟨origins, machine⟩
        ⟨origins, machine.rememberOwn id name template.id slot⟩
  | enterNative (origins : Origins) (machine : Machine σ) :
      machine.nativeDepth < machine.config.maxNativeDepth ->
      Transition ⟨origins, machine⟩
        ⟨origins, { machine with nativeDepth := machine.nativeDepth + 1 }⟩
  | leaveNative (origins : Origins) (machine : Machine σ) :
      Transition ⟨origins, machine⟩
        ⟨origins, { machine with nativeDepth := machine.nativeDepth - 1 }⟩
  /-- A template is made of a chunk. -/
  | load (origins : Origins) (machine : Machine σ) (chunk : Chunk) :
      Transition ⟨origins, machine⟩
        ⟨origins.withTemplate (machine.addTemplate chunk).1, (machine.addTemplate chunk).2⟩
  /-- A frame is made for a run of its own. -/
  | open (origins : Origins) (machine : Machine σ) (frame : Frame) :
      frame.Fresh machine.cells -> origins.Admits frame ->
      frame.returnTo = .boundary ->
      Transition ⟨origins, machine⟩ ⟨origins.withFrame frame, machine⟩
  | prepare (origins : Origins) (machine : Machine σ) (before after : Frame) :
      origins.frame before -> before.Prepared after ->
      Transition ⟨origins, machine⟩ ⟨origins.withFrame after, machine⟩
  /-- A frame begins a run of its own. -/
  | push (origins : Origins) (machine : Machine σ) (frame : Frame) :
      origins.frame frame -> machine.frames.size < machine.config.maxCallDepth ->
      Transition ⟨origins, machine⟩ ⟨origins, machine.pushFrame frame⟩
  /-- A function is called in place. -/
  | call (origins : Origins) (machine : Machine σ) (frame : Frame) :
      frame.Fresh machine.cells -> origins.Admits frame ->
      machine.frames.size < machine.config.maxCallDepth ->
      machine.Expects frame.returnTo ->
      Transition ⟨origins, machine⟩ ⟨origins, machine.pushFrame frame⟩
  /-- A function that is called last takes the place of its caller. -/
  | replace (origins : Origins) (machine : Machine σ) (top frame : Frame) :
      machine.top? = some top -> frame.Fresh machine.cells ->
      origins.Admits frame -> frame.returnTo = top.returnTo ->
      Transition ⟨origins, machine⟩ ⟨origins, machine.popFrame.pushFrame frame⟩
  | pop (origins : Origins) (machine : Machine σ) :
      Transition ⟨origins, machine⟩ ⟨origins, machine.popFrame⟩
  /-- A frame leaves the stack to be parked; it returns to where a frame that was run
  before it returns. -/
  | take (origins : Origins) (machine : Machine σ) (top known : Frame) :
      machine.top? = some top -> origins.frame known -> top.returnTo = known.returnTo ->
      Transition ⟨origins, machine⟩ ⟨origins.withFrame top, machine.takeFrame⟩
  | move (origins : Origins) (machine : Machine σ) (top moved : Frame) :
      machine.top? = some top -> top.Move moved ->
      Transition ⟨origins, machine⟩ ⟨origins, machine.modifyTop fun _ => moved⟩
  /-- The innermost frame makes a closure of a function nested in its code. -/
  | capture (origins : Origins) (machine : Machine σ) (top : Frame) (nested : Template) :
      machine.top? = some top -> nested ∈ top.template.nested ->
      Transition ⟨origins, machine⟩ ⟨origins, (machine.captureClosure nested).2⟩
  | detach (origins : Origins) (machine : Machine σ) (first : Register) :
      Transition ⟨origins, machine⟩ ⟨origins, machine.detachFrom first⟩
  | collect (origins : Origins) (machine : Machine σ) (kept : List Value) :
      (∀ id, origins.spared id -> machine.heap.contains id = true ->
        (machine.collectGarbage kept).2.heap.contains id = true) ->
      Transition ⟨origins, machine⟩ ⟨origins, (machine.collectGarbage kept).2⟩

/-- One stage follows another by any number of transitions. -/
abbrev Stage.Leads {σ : Type} (before after : Stage σ) : Prop :=
  Relation.ReflTransGen Transition before after

/-- A property of stages that every transition keeps. -/
theorem Stage.Leads.invariant
    {σ : Type}
    {holds : Stage σ -> Prop}
    (step : ∀ {before after : Stage σ}, holds before -> Transition before after ->
      holds after)
    {before after : Stage σ}
    (leads : before.Leads after)
    (start : holds before) :
    holds after := by
  induction leads with
  | refl => exact start
  | tail _ transition reached => exact step reached transition

end ScriptVM

import ScriptVM.Bytecode.Builder
import ScriptVM.Proofs.Verification

/-!
# Sessions of a builder

A builder is used through calls in any order. Whatever it hands out, be it a register, a
constant or a cache slot, stays in its chunk, and no two allocations overlap, as long as the
count of registers does not wrap around.
-/

namespace ScriptVM

/-- A call of a builder. -/
inductive BuilderCall
  | withParameters (count : Nat)
  | withRest
  | sloppy
  | parameter (index : Nat)
  | rest
  | register
  | registers (count : Nat)
  | capture (captured : Capture)
  | string (value : String)
  | number (value : Float)
  | cacheSlot
  | function (nested : Chunk)
  | label
  | bind (label : Nat)
  | locate (line column : Nat)
  | emit (instruction : Instruction)
  | loadNumber (destination : Register) (value : Float)
  | loadString (destination : Register) (value : String)
  | getNamed (destination object : Register) (name : String)
  | setNamed (object : Register) (name : String) (value : Register)
  | getGlobal (destination : Register) (name : String)
  | defineGlobal (name : String) (source : Register)

namespace BuilderCall

/-- The call declares parameters. -/
def describes : BuilderCall -> Bool
  | withParameters _ | withRest => true
  | _ => false

/-- The call allocates registers. -/
def allocates : BuilderCall -> Bool
  | register | registers _ => true
  | _ => false

/-- The registers that a call is given for an instruction that it composes. -/
def operands : BuilderCall -> List Register
  | loadNumber destination _ | loadString destination _ => [destination]
  | getGlobal destination _ => [destination]
  | getNamed destination object _ => [destination, object]
  | setNamed object _ value => [object, value]
  | defineGlobal _ source => [source]
  | _ => []

/-- The caller put this into an instruction. -/
def RefersTo
    (call : BuilderCall)
    (referent : Referent) : Prop :=
  (∃ instruction, call = .emit instruction ∧ instruction.RefersTo referent) ∨
    ∃ register ∈ call.operands, referent = .register register

end BuilderCall

namespace ChunkBuilder

/-- Carry out a call. The answer is what the call gives, if it gives anything. -/
def perform
    (builder : ChunkBuilder) : BuilderCall -> Option Nat × ChunkBuilder
  | .withParameters count => (none, builder.withParameters count)
  | .withRest => (none, builder.withRest)
  | .sloppy => (none, builder.sloppy)
  | .parameter index => (builder.parameter index, builder)
  | .rest => (builder.rest, builder)
  | .register => builder.register.map some id
  | .registers count => (builder.registers count).map some id
  | .capture captured => (builder.capture captured).map some id
  | .string value => (builder.string value).map some id
  | .number value => (builder.number value).map some id
  | .cacheSlot => builder.cacheSlot.map some id
  | .function nested => (builder.function nested).map some id
  | .label => builder.label.map some id
  | .bind label => (none, builder.bind label)
  | .locate line column => (none, builder.locate line column)
  | .emit instruction => (builder.emit instruction).map some id
  | .loadNumber destination value => (builder.loadNumber destination value).map some id
  | .loadString destination value => (builder.loadString destination value).map some id
  | .getNamed destination object name =>
      (builder.getNamed destination object name).map some id
  | .setNamed object name value => (builder.setNamed object name value).map some id
  | .getGlobal destination name => (builder.getGlobal destination name).map some id
  | .defineGlobal name source => (builder.defineGlobal name source).map some id

/-- The registers and the cache slots that the chunk then has can be counted. -/
def Counts (builder : ChunkBuilder) : BuilderCall -> Prop
  | .withParameters count => count + builder.chunk.info.hasRest.toNat < countBound
  | .withRest => builder.chunk.info.parameterCount + 1 < countBound
  | .register => builder.chunk.registerCount + 1 < countBound
  | .registers count => builder.chunk.registerCount + count < countBound
  | .cacheSlot | .getNamed .. | .setNamed .. => builder.chunk.cacheSlots + 1 < countBound
  | _ => True

/-- The builder after a session. -/
def after
    (builder : ChunkBuilder)
    (calls : List BuilderCall) : ChunkBuilder :=
  calls.foldl (fun builder call => (builder.perform call).2) builder

end ChunkBuilder

/-- A call of a session and the builder that it reaches. -/
structure BuilderStep where
  before : ChunkBuilder
  call : BuilderCall

namespace BuilderStep

/-- What the call gives. -/
def answer (step : BuilderStep) : Option Nat :=
  (step.before.perform step.call).1

/-- The builder after the call. -/
def afterwards (step : BuilderStep) : ChunkBuilder :=
  (step.before.perform step.call).2

/-- The step hands out the register: that of a declared parameter, or one that it
allocates. -/
def HandsOut
    (step : BuilderStep)
    (register : Register) : Prop :=
  match step.call with
  | .parameter index =>
      step.answer = some register ∧ index < step.before.chunk.info.parameterCount
  | .rest => step.answer = some register ∧ step.before.chunk.info.hasRest
  | .register => step.answer = some register
  | .registers count =>
      ∃ first, step.answer = some first ∧ first <= register ∧ register < first + count
  | _ => False

/-- The step hands out what an operand may refer to. -/
def Supplies
    (step : BuilderStep) : Referent -> Prop
  | .register register => step.HandsOut register
  | .constant index =>
      step.answer = some index ∧
        ((∃ value, step.call = .string value) ∨ ∃ value, step.call = .number value)
  | .name index => step.answer = some index ∧ ∃ value, step.call = .string value
  | .function index => step.answer = some index ∧ ∃ nested, step.call = .function nested
  | .cacheSlot slot => step.answer = some slot ∧ step.call = .cacheSlot

/-- The step hands out the index of a captured variable. -/
def Captures
    (step : BuilderStep)
    (index : Nat) : Prop :=
  step.answer = some index ∧ ∃ captured, step.call = .capture captured

end BuilderStep

namespace ChunkBuilder

variable {builder : ChunkBuilder} {calls : List BuilderCall}

/-- The steps of a session. -/
def steps : ChunkBuilder -> List BuilderCall -> List BuilderStep
  | _, [] => []
  | builder, call :: calls =>
      { before := builder, call } :: (builder.perform call).2.steps calls

theorem steps_append (builder : ChunkBuilder) (earlier later : List BuilderCall) :
    builder.steps (earlier ++ later) =
      builder.steps earlier ++ (builder.after earlier).steps later := by
  induction earlier generalizing builder with
  | nil => rfl
  | cons call earlier inductionHypothesis =>
      exact congrArg (_ :: ·) (inductionHypothesis (builder.perform call).2)

/-- At no call of the session a count of registers or cache slots wraps around. -/
def CountsThrough (builder : ChunkBuilder) (calls : List BuilderCall) : Prop :=
  ∀ step ∈ builder.steps calls, step.before.Counts step.call

theorem CountsThrough.parts
    (earlier : List BuilderCall)
    {later : List BuilderCall}
    (counts : builder.CountsThrough (earlier ++ later)) :
    builder.CountsThrough earlier ∧ (builder.after earlier).CountsThrough later := by
  unfold CountsThrough at counts
  rw [steps_append] at counts
  exact List.forall_mem_append.1 counts

/-- What every call keeps holds after every session. -/
theorem holds_after
    (holds : ChunkBuilder -> Prop)
    (start : holds builder)
    (step : ∀ builder, ∀ call ∈ calls, holds builder -> holds (builder.perform call).2) :
    holds (builder.after calls) := by
  induction calls generalizing builder with
  | nil => exact start
  | cons call calls inductionHypothesis =>
      exact inductionHypothesis (step builder call List.mem_cons_self start)
        fun builder other member => step builder other (List.mem_cons_of_mem _ member)

/-- A step of a session comes after some calls and before the others. -/
theorem steps_split
    {step : BuilderStep}
    (member : step ∈ builder.steps calls) :
    ∃ earlier later, calls = earlier ++ step.call :: later ∧
      step.before = builder.after earlier ∧
      builder.after calls = step.afterwards.after later := by
  induction calls generalizing builder with
  | nil => cases member
  | cons call calls inductionHypothesis =>
      cases member with
      | head => exact ⟨[], calls, rfl, rfl, rfl⟩
      | tail _ later =>
          obtain ⟨earlier, later, split, before, after⟩ := inductionHypothesis later
          exact ⟨call :: earlier, later, congrArg (call :: ·) split, before, after⟩

end ChunkBuilder

/-! ## Growing chunks -/

/-- Everything of a chunk but its instructions and what it counts is still there in a later
one. -/
structure Chunk.Extends (earlier later : Chunk) : Prop where
  constants : ∃ more, later.constants = earlier.constants ++ more
  functions : ∃ more, later.functions = earlier.functions ++ more
  captures : ∃ more, later.info.captures = earlier.info.captures ++ more
  kind : later.info.kind = earlier.info.kind

/-- No register and no cache slot of a chunk is lost in a later one. -/
structure Chunk.Keeps (earlier later : Chunk) : Prop where
  registers : earlier.registerCount <= later.registerCount
  cacheSlots : earlier.cacheSlots <= later.cacheSlots

theorem Chunk.Keeps.refl (chunk : Chunk) : chunk.Keeps chunk :=
  ⟨Nat.le_refl _, Nat.le_refl _⟩

theorem Chunk.Keeps.trans
    {first second third : Chunk}
    (earlier : first.Keeps second)
    (later : second.Keeps third) :
    first.Keeps third :=
  ⟨Nat.le_trans earlier.registers later.registers,
    Nat.le_trans earlier.cacheSlots later.cacheSlots⟩

namespace Chunk.Extends

variable {earlier later : Chunk}

theorem refl (chunk : Chunk) : chunk.Extends chunk :=
  ⟨⟨#[], Array.append_empty.symm⟩, ⟨[], (List.append_nil _).symm⟩,
    ⟨[], (List.append_nil _).symm⟩, rfl⟩

theorem trans {last : Chunk} (first : earlier.Extends later) (second : later.Extends last) :
    earlier.Extends last := by
  obtain ⟨constants, constantsSame⟩ := first.constants
  obtain ⟨functions, functionsSame⟩ := first.functions
  obtain ⟨captures, capturesSame⟩ := first.captures
  obtain ⟨moreConstants, moreConstantsSame⟩ := second.constants
  obtain ⟨moreFunctions, moreFunctionsSame⟩ := second.functions
  obtain ⟨moreCaptures, moreCapturesSame⟩ := second.captures
  refine ⟨⟨constants ++ moreConstants, ?_⟩, ⟨functions ++ moreFunctions, ?_⟩,
    ⟨captures ++ moreCaptures, ?_⟩, second.kind.trans first.kind⟩
  · rw [moreConstantsSame, constantsSame, Array.append_assoc]
  · rw [moreFunctionsSame, functionsSame, List.append_assoc]
  · rw [moreCapturesSame, capturesSame, List.append_assoc]

theorem constant
    (grows : earlier.Extends later)
    {index : Nat}
    {value : Constant}
    (stands : earlier.constants[index]? = some value) :
    later.constants[index]? = some value := by
  obtain ⟨more, same⟩ := grows.constants
  have below : index < earlier.constants.size := (Array.getElem?_eq_some_iff.1 stands).1
  rw [same, Array.getElem?_append_left below, stands]

/-- What a chunk has is found in every later one that has lost nothing that it counts. -/
theorem resolves
    (grows : earlier.Extends later)
    (keeps : earlier.Keeps later)
    {referent : Referent}
    (resolves : earlier.Resolves referent) :
    later.Resolves referent := by
  cases referent with
  | register register => exact Nat.lt_of_lt_of_le resolves keeps.registers
  | constant index =>
      obtain ⟨more, same⟩ := grows.constants
      unfold Chunk.Resolves at resolves ⊢
      rw [same, Array.size_append]
      omega
  | name index =>
      obtain ⟨text, found⟩ := Option.isSome_iff_exists.1 resolves
      obtain ⟨value, stands, same⟩ := Option.bind_eq_some_iff.1 found
      refine Option.isSome_iff_exists.2 ⟨text, ?_⟩
      exact Option.bind_eq_some_iff.2 ⟨value, grows.constant stands, same⟩
  | function index =>
      obtain ⟨more, same⟩ := grows.functions
      unfold Chunk.Resolves at resolves ⊢
      rw [same, List.length_append]
      omega
  | cacheSlot slot => exact Nat.lt_of_lt_of_le resolves keeps.cacheSlots

end Chunk.Extends

/-! ## Names -/

/-- The first entry of the chunk's constants that is the text. -/
def Chunk.Interns
    (chunk : Chunk)
    (value : String)
    (index : Nat) : Prop :=
  chunk.constants.findIdx? (fun entry => entry == .string value) = some index

namespace Chunk.Interns

variable {chunk : Chunk} {value : String} {index : Nat}

theorem stands (interns : chunk.Interns value index) :
    chunk.constants[index]? = some (.string value) := by
  obtain ⟨below, found, _⟩ := Array.findIdx?_eq_some_iff_getElem.1 interns
  rw [Array.getElem?_eq_getElem below, beq_iff_eq.1 found]

theorem string? (interns : chunk.Interns value index) : chunk.string? index = some value := by
  unfold Chunk.string?
  rw [interns.stands]
  rfl

theorem extend
    {later : Chunk}
    (interns : chunk.Interns value index)
    (grows : chunk.Extends later) :
    later.Interns value index := by
  obtain ⟨more, same⟩ := grows.constants
  unfold Interns at interns ⊢
  rw [same, Array.findIdx?_append, interns]
  rfl

theorem index_eq_iff
    {other : String}
    {place : Nat}
    (first : chunk.Interns value index)
    (second : chunk.Interns other place) :
    index = place ↔ value = other := by
  constructor
  · intro same
    subst same
    have texts := first.string?.symm.trans second.string?
    exact Option.some.inj texts
  · intro same
    subst same
    exact Option.some.inj (Eq.trans (Eq.symm first) second)

end Chunk.Interns

namespace ChunkBuilder

variable {prepared : ChunkBuilder} {operands : List Register} {instruction : Instruction}
variable {calls : List BuilderCall}

/-- The index of a string is that of its first entry. -/
theorem string_interns (builder : ChunkBuilder) (value : String) :
    (builder.string value).2.chunk.Interns value (builder.string value).1 := by
  unfold string Chunk.Interns
  split
  · next index found => exact found
  · next missing =>
      unfold constant
      rw [Array.findIdx?_push, missing]
      simp

theorem string_resolves (builder : ChunkBuilder) (value : String) :
    (builder.string value).2.chunk.Resolves (.name (builder.string value).1) :=
  Option.isSome_iff_exists.2 ⟨value, (builder.string_interns value).string?⟩

theorem cacheSlots_string (builder : ChunkBuilder) (value : String) :
    (builder.string value).2.chunk.cacheSlots = builder.chunk.cacheSlots := by
  unfold string
  split <;> rfl

theorem cacheSlot_extends (builder : ChunkBuilder) :
    builder.chunk.Extends builder.cacheSlot.2.chunk :=
  { Chunk.Extends.refl builder.chunk with }

section Counted

variable (counted : prepared.chunk.cacheSlots + 1 < countBound)
include counted

theorem cacheSlot_resolves :
    prepared.cacheSlot.2.chunk.Resolves (.cacheSlot prepared.cacheSlot.1) :=
  Nat.lt_of_lt_of_eq (Nat.lt_succ_self _) (Nat.mod_eq_of_lt counted).symm

theorem cacheSlot_keeps : prepared.chunk.Keeps prepared.cacheSlot.2.chunk :=
  ⟨Nat.le_refl _, Nat.le_of_lt (cacheSlot_resolves counted)⟩

end Counted

theorem number_resolves (builder : ChunkBuilder) (value : Float) :
    (builder.number value).2.chunk.Resolves (.constant (builder.number value).1) := by
  change builder.chunk.constants.size < (builder.chunk.constants.push (.number value)).size
  rw [Array.size_push]
  exact Nat.lt_succ_self _

/-- The instruction that a call composes from the registers that it is given. Whatever
else the instruction refers to is in the chunk. -/
inductive Composes (prepared : ChunkBuilder) : List Register -> Instruction -> Prop
  | integer (destination : Register) (value : Int) :
      Composes prepared [destination] (.loadInt destination value)
  | constant (destination : Register) {index : Nat} :
      prepared.chunk.Resolves (.constant index) ->
      Composes prepared [destination] (.loadConst destination index)
  | reading (destination object : Register) {name cache : Nat} :
      prepared.chunk.Resolves (.name name) ->
      prepared.chunk.Resolves (.cacheSlot cache) ->
      Composes prepared [destination, object] (.getNamed destination object name cache)
  | writing (object value : Register) {name cache : Nat} :
      prepared.chunk.Resolves (.name name) ->
      prepared.chunk.Resolves (.cacheSlot cache) ->
      Composes prepared [object, value] (.setNamed object name value cache)
  | global (destination : Register) {name : Nat} :
      prepared.chunk.Resolves (.name name) ->
      Composes prepared [destination] (.getGlobal destination name)
  | definition (source : Register) {name : Nat} :
      prepared.chunk.Resolves (.name name) ->
      Composes prepared [source] (.defineGlobal name source)

theorem Composes.registers
    (composes : prepared.Composes operands instruction) :
    instruction.registers = operands.map fun register => (register, 1) := by
  cases composes <;> rfl

/-- A composed instruction refers to the registers that its call is given, and to what is
in the chunk. -/
theorem Composes.resolves
    (composes : prepared.Composes operands instruction)
    {referent : Referent}
    (refers : instruction.RefersTo referent) :
    (∃ register ∈ operands, referent = .register register) ∨
      prepared.chunk.Resolves referent := by
  cases referent with
  | register register =>
      obtain ⟨block, member, above, below⟩ := refers
      rw [composes.registers] at member
      obtain ⟨operand, given, rfl⟩ := List.mem_map.1 member
      have same : register = operand := Nat.le_antisymm (Nat.le_of_lt_succ below) above
      exact .inl ⟨operand, given, congrArg Referent.register same⟩
  | constant index =>
      obtain ⟨destination, rfl⟩ := refers
      cases composes with
      | constant _ constant => exact .inr constant
  | name index =>
      right
      cases composes with
      | integer | constant => cases refers
      | reading _ _ name | writing _ _ name | global _ name | definition _ name =>
          cases List.mem_singleton.1 refers
          exact name
  | function index =>
      obtain ⟨destination, rfl⟩ := refers
      cases composes
  | cacheSlot slot =>
      right
      obtain ⟨destination, object, name, rfl⟩ | ⟨object, name, value, rfl⟩ := refers
      · cases composes with
        | reading _ _ _ cache => exact cache
      · cases composes with
        | writing _ _ _ cache => exact cache

/-! ## Calls -/

/-- What a call does to a builder before it appends an instruction, if it appends one. -/
structure Alters (builder : ChunkBuilder) (call : BuilderCall) (later : ChunkBuilder) :
    Prop where
  grows : builder.chunk.Extends later.chunk
  keeps : builder.Counts call -> builder.chunk.Keeps later.chunk
  code : later.chunk.code = builder.chunk.code
  functions : ∀ inner ∈ later.chunk.functions,
    inner ∈ builder.chunk.functions ∨ call = .function inner
  labels : ∀ label offset : Nat, later.labels[label]? = some (some offset) ->
    builder.labels[label]? = some (some offset) ∨ offset = builder.chunk.code.size
  parameters : call.describes = false ->
    later.chunk.info.parameterRegisters = builder.chunk.info.parameterRegisters

variable (builder : ChunkBuilder) (call : BuilderCall)

namespace Alters

theorem refl :
    builder.Alters call builder :=
  ⟨.refl _, fun _ => .refl _, rfl, fun _ => .inl, fun _ _ => .inl, fun _ => rfl⟩

/-- Most calls change the chunk's pools only. -/
theorem grow
    {later : ChunkBuilder}
    (grows : builder.chunk.Extends later.chunk)
    (keeps : builder.chunk.Keeps later.chunk)
    (code : later.chunk.code = builder.chunk.code)
    (functions : later.chunk.functions = builder.chunk.functions)
    (labels : later.labels = builder.labels)
    (parameters : call.describes = false ->
      later.chunk.info.parameterRegisters = builder.chunk.info.parameterRegisters) :
    builder.Alters call later :=
  ⟨grows, fun _ => keeps, code, fun _ member => .inl (functions ▸ member),
    fun _ _ bound => .inl (labels ▸ bound), parameters⟩

theorem constant (value : Constant) : builder.Alters call (builder.constant value).2 :=
  grow builder call { Chunk.Extends.refl builder.chunk with constants := ⟨#[value], rfl⟩ }
    { Chunk.Keeps.refl builder.chunk with } rfl rfl rfl fun _ => rfl

theorem string (value : String) : builder.Alters call (builder.string value).2 := by
  unfold ChunkBuilder.string
  split
  · exact refl builder call
  · exact constant builder call _

variable {builder call} in
theorem cacheSlot
    {prepared : ChunkBuilder}
    (alters : builder.Alters call prepared)
    (counted : builder.Counts call -> prepared.chunk.cacheSlots + 1 < countBound) :
    builder.Alters call prepared.cacheSlot.2 where
  grows := alters.grows.trans prepared.cacheSlot_extends
  keeps counts := (alters.keeps counts).trans (cacheSlot_keeps (counted counts))
  code := alters.code
  functions := alters.functions
  labels := alters.labels
  parameters := alters.parameters

theorem describe
    (change : FunctionInfo -> FunctionInfo)
    (describes : call.describes)
    (captures : (change builder.chunk.info).captures = builder.chunk.info.captures)
    (kind : (change builder.chunk.info).kind = builder.chunk.info.kind) :
    builder.Alters call (builder.describe change) where
  grows :=
    { Chunk.Extends.refl builder.chunk with
      captures := ⟨[], captures.trans (List.append_nil _).symm⟩
      kind := kind }
  keeps _ := ⟨Nat.le_max_left _ _, Nat.le_refl _⟩
  code := rfl
  functions _ := .inl
  labels _ _ := .inl
  parameters settled := by
    rw [settled] at describes
    cases describes

theorem allocate
    {count : Nat}
    (counted : builder.Counts call -> builder.chunk.registerCount + count < countBound) :
    builder.Alters call (builder.registers count).2 where
  grows := { Chunk.Extends.refl builder.chunk with }
  keeps counts :=
    ⟨Nat.le_trans (Nat.le_add_right _ _)
        (Nat.le_of_eq (Nat.mod_eq_of_lt (counted counts)).symm),
      Nat.le_refl _⟩
  code := rfl
  functions _ := .inl
  labels _ _ := .inl
  parameters _ := rfl

theorem label :
    builder.Alters call builder.label.2 where
  grows := .refl _
  keeps _ := .refl _
  code := rfl
  functions _ := .inl
  labels index offset bound := by
    change (builder.labels.push none)[index]? = _ at bound
    rw [Array.getElem?_push] at bound
    split at bound
    · cases bound
    · exact .inl bound
  parameters _ := rfl

theorem bind (fixed : Nat) : builder.Alters call (builder.bind fixed) := by
  unfold ChunkBuilder.bind
  split
  · refine ⟨.refl _, fun _ => .refl _, rfl, fun _ => .inl, fun index offset bound => ?_,
      fun _ => rfl⟩
    dsimp only at bound
    rw [Array.getElem?_setIfInBounds] at bound
    split at bound
    · split at bound
      · cases bound
        exact .inr rfl
      · cases bound
    · exact .inl bound
  · exact ⟨.refl _, fun _ => .refl _, rfl, fun _ => .inl, fun _ _ => .inl, fun _ => rfl⟩

end Alters

/-- A call alters the builder, and at most appends one instruction then. Either the
instruction is the caller's own, or it is composed, as far as the call can be counted. -/
theorem perform_cases :
    builder.Alters call (builder.perform call).2 ∨
      ∃ prepared instruction, builder.Alters call prepared ∧
        (call = .emit instruction ∨
          (builder.Counts call -> prepared.Composes call.operands instruction)) ∧
        (builder.perform call).2 = (prepared.emit instruction).2 := by
  have free (name : String) (counts : builder.chunk.cacheSlots + 1 < countBound) :
      (builder.string name).2.chunk.cacheSlots + 1 < countBound :=
    (builder.cacheSlots_string name).symm ▸ counts
  have named (name : String) (counts : builder.chunk.cacheSlots + 1 < countBound) :=
    (cacheSlot_extends _).resolves (cacheSlot_keeps (free name counts))
      (builder.string_resolves name)
  cases call with
  | withParameters count =>
      exact .inl (.describe builder _ (fun info => { info with parameterCount := count })
        rfl rfl rfl)
  | withRest =>
      exact .inl (.describe builder _ (fun info => { info with hasRest := true }) rfl rfl rfl)
  | sloppy =>
      exact .inl (.grow builder _ { Chunk.Extends.refl builder.chunk with }
        { Chunk.Keeps.refl builder.chunk with } rfl rfl rfl fun _ => rfl)
  | parameter | rest | locate =>
      exact .inl (.grow builder _ (.refl _) (.refl _) rfl rfl rfl fun _ => rfl)
  | register | registers => exact .inl (.allocate builder _ id)
  | capture captured =>
      exact .inl (.grow builder _
        { Chunk.Extends.refl builder.chunk with captures := ⟨[captured], rfl⟩ }
        { Chunk.Keeps.refl builder.chunk with } rfl rfl rfl fun _ => rfl)
  | string value => exact .inl (.string builder _ value)
  | number value => exact .inl (.constant builder _ _)
  | cacheSlot => exact .inl ((Alters.refl builder _).cacheSlot id)
  | function nested =>
      refine .inl ⟨{ Chunk.Extends.refl builder.chunk with functions := ⟨[nested], rfl⟩ },
        fun _ => { Chunk.Keeps.refl builder.chunk with }, rfl, fun inner member => ?_,
        fun _ _ => .inl, fun _ => rfl⟩
      rcases List.mem_append.1 member with before | added
      · exact .inl before
      · cases List.mem_singleton.1 added
        exact .inr rfl
  | label => exact .inl (.label builder _)
  | bind fixed => exact .inl (.bind builder _ fixed)
  | emit instruction => exact .inr ⟨builder, instruction, .refl builder _, .inl rfl, rfl⟩
  | loadNumber destination value =>
      right
      rw [perform, loadNumber]
      split
      · exact ⟨builder, _, .refl builder _, .inr fun _ => .integer _ _, rfl⟩
      · exact ⟨_, _, .constant builder _ _,
          .inr fun _ => .constant _ (builder.number_resolves value), rfl⟩
  | loadString destination value =>
      have stands := (builder.string_interns value).stands
      exact .inr ⟨_, _, .string builder _ value,
        .inr fun _ => .constant _ (Array.getElem?_eq_some_iff.1 stands).1, rfl⟩
  | getNamed destination object name =>
      exact .inr ⟨_, _, (Alters.string builder _ name).cacheSlot (free name), .inr fun counts =>
        .reading _ _ (named name counts) (cacheSlot_resolves (free name counts)), rfl⟩
  | setNamed object name value =>
      exact .inr ⟨_, _, (Alters.string builder _ name).cacheSlot (free name), .inr fun counts =>
        .writing _ _ (named name counts) (cacheSlot_resolves (free name counts)), rfl⟩
  | getGlobal destination name =>
      exact .inr ⟨_, _, .string builder _ name,
        .inr fun _ => .global _ (builder.string_resolves name), rfl⟩
  | defineGlobal name source =>
      exact .inr ⟨_, _, .string builder _ name,
        .inr fun _ => .definition _ (builder.string_resolves name), rfl⟩

theorem perform_extends :
    builder.chunk.Extends (builder.perform call).2.chunk := by
  rcases builder.perform_cases call with alters | ⟨prepared, _, alters, _, same⟩
  · exact alters.grows
  · rw [same]
    exact alters.grows.trans { Chunk.Extends.refl prepared.chunk with }

variable {builder call}

/-- Nothing is lost while it can be counted. -/
theorem keeps_perform (counts : builder.Counts call) :
    builder.chunk.Keeps (builder.perform call).2.chunk := by
  rcases builder.perform_cases call with alters | ⟨prepared, _, alters, _, same⟩
  · exact alters.keeps counts
  · rw [same]
    exact (alters.keeps counts).trans { Chunk.Keeps.refl prepared.chunk with }

theorem keeps_after
    (counts : builder.CountsThrough calls) :
    builder.chunk.Keeps (builder.after calls).chunk := by
  induction calls generalizing builder with
  | nil => exact .refl _
  | cons call calls inductionHypothesis =>
      obtain ⟨first, rest⟩ := List.forall_mem_cons.1 counts
      exact (keeps_perform first).trans (inductionHypothesis rest)

theorem after_extends (builder : ChunkBuilder) (calls : List BuilderCall) :
    builder.chunk.Extends (builder.after calls).chunk :=
  holds_after (fun later => builder.chunk.Extends later.chunk) (.refl _)
    fun later call _ grows => grows.trans (later.perform_extends call)

/-! ## Registers -/

/-- Only declaring parameters moves the registers that they take. -/
theorem perform_parameterRegisters
    (builder : ChunkBuilder)
    {call : BuilderCall}
    (settled : call.describes = false) :
    (builder.perform call).2.chunk.info.parameterRegisters =
      builder.chunk.info.parameterRegisters := by
  rcases builder.perform_cases call with alters | ⟨prepared, _, alters, _, same⟩
  · exact alters.parameters settled
  · rw [same]
    exact alters.parameters settled

theorem after_parameterRegisters
    (builder : ChunkBuilder)
    (calls : List BuilderCall)
    (settled : ∀ call ∈ calls, call.describes = false) :
    (builder.after calls).chunk.info.parameterRegisters =
      builder.chunk.info.parameterRegisters :=
  holds_after
    (fun later => later.chunk.info.parameterRegisters = builder.chunk.info.parameterRegisters)
    rfl fun later _ member same =>
      (later.perform_parameterRegisters (settled _ member)).trans same

/-- The registers of the parameters are reserved. -/
def Reserves (builder : ChunkBuilder) : Prop :=
  builder.chunk.info.parameterRegisters <= builder.chunk.registerCount

theorem Reserves.perform
    (reserves : builder.Reserves)
    {call : BuilderCall}
    (counts : builder.Counts call) :
    (builder.perform call).2.Reserves := by
  cases settled : call.describes with
  | true =>
      cases call with
      | withParameters | withRest =>
          exact Nat.le_trans (Nat.le_of_eq (Nat.mod_eq_of_lt counts).symm) (Nat.le_max_right _ _)
      | _ => cases settled
  | false =>
      unfold Reserves
      rw [builder.perform_parameterRegisters settled]
      exact Nat.le_trans reserves (keeps_perform counts).registers

theorem Reserves.after
    (reserves : builder.Reserves)
    (counts : builder.CountsThrough calls) :
    (builder.after calls).Reserves := by
  induction calls generalizing builder with
  | nil => exact reserves
  | cons call calls inductionHypothesis =>
      obtain ⟨first, rest⟩ := List.forall_mem_cons.1 counts
      exact inductionHypothesis (reserves.perform first) rest

theorem start_reserves (name : String) (kind : FunctionKind) :
    (start name kind).Reserves :=
  Nat.le_refl _

end ChunkBuilder

namespace BuilderStep

variable {step : BuilderStep} {register : Register}

/-- A register that is handed out but not allocated belongs to a parameter. -/
theorem HandsOut.declared
    (handed : step.HandsOut register)
    (fixed : step.call.allocates = false) :
    register < step.before.chunk.info.parameterRegisters := by
  obtain ⟨before, call⟩ := step
  unfold FunctionInfo.parameterRegisters
  cases call with
  | parameter index =>
      obtain ⟨answer, declared⟩ := handed
      cases answer
      exact Nat.lt_of_lt_of_le declared (Nat.le_add_right _ _)
  | rest =>
      obtain ⟨answer, declared⟩ := handed
      cases answer
      rw [declared]
      exact Nat.lt_succ_self _
  | register | registers => cases fixed
  | _ => cases handed

/-- An allocated register was not there before. -/
theorem HandsOut.fresh (handed : step.HandsOut register) (allocated : step.call.allocates) :
    step.before.chunk.registerCount <= register := by
  obtain ⟨before, call⟩ := step
  cases call with
  | register =>
      cases handed
      exact Nat.le_refl _
  | registers count =>
      obtain ⟨first, answer, above, _⟩ := handed
      cases answer
      exact above
  | _ => cases allocated

theorem HandsOut.exists
    (handed : step.HandsOut register)
    (reserves : step.before.Reserves)
    (counts : step.before.Counts step.call) :
    register < step.afterwards.chunk.registerCount := by
  cases allocated : step.call.allocates with
  | false =>
      exact Nat.lt_of_lt_of_le (handed.declared allocated)
        (Nat.le_trans reserves (ChunkBuilder.keeps_perform counts).registers)
  | true =>
      obtain ⟨before, call⟩ := step
      cases call with
      | register =>
          cases handed
          exact Nat.lt_of_lt_of_eq (Nat.lt_succ_self _) (Nat.mod_eq_of_lt counts).symm
      | registers count =>
          obtain ⟨first, answer, _, below⟩ := handed
          cases answer
          exact Nat.lt_of_lt_of_eq below (Nat.mod_eq_of_lt counts).symm
      | _ => cases allocated

end BuilderStep

/-- Two steps hand out different registers, if one of them allocates. -/
def BuilderStep.Apart (first second : BuilderStep) : Prop :=
  (first.call.allocates ∨ second.call.allocates) ->
    ∀ register, first.HandsOut register -> ¬second.HandsOut register

/-- No parameter is declared after registers were allocated. -/
def DeclaresFirst (calls : List BuilderCall) : Prop :=
  calls.Pairwise fun earlier later => earlier.allocates -> later.describes = false

namespace DeclaresFirst

variable {builder : ChunkBuilder} {calls : List BuilderCall}

/-- After registers were allocated, the parameters keep theirs. -/
theorem settled
    (earlier : List BuilderCall)
    {later : List BuilderCall}
    {call : BuilderCall}
    (declares : DeclaresFirst (earlier ++ call :: later))
    (allocated : call.allocates) :
    ∀ other ∈ call :: later, other.describes = false := by
  obtain ⟨_, rest, _⟩ := List.pairwise_append.1 declares
  intro other member
  cases member with
  | head =>
      cases call with
      | register | registers => rfl
      | _ => cases allocated
  | tail _ member => exact (List.pairwise_cons.1 rest).1 other member allocated

theorem apart
    (declares : DeclaresFirst calls)
    (reserves : builder.Reserves)
    (counts : builder.CountsThrough calls) :
    (builder.steps calls).Pairwise BuilderStep.Apart := by
  induction calls generalizing builder with
  | nil => exact .nil
  | cons call calls inductionHypothesis =>
      obtain ⟨counted, rest⟩ := List.forall_mem_cons.1 counts
      refine .cons (fun step member => ?_)
        (inductionHypothesis (List.pairwise_cons.1 declares).2 (reserves.perform counted) rest)
      intro allocates register first second
      obtain ⟨earlier, later, split, before, _⟩ := ChunkBuilder.steps_split member
      cases allocated : step.call.allocates with
      | true =>
          have made := first.exists reserves counted
          have remaining : (builder.perform call).2.CountsThrough calls := rest
          rw [split] at remaining
          have grown := (ChunkBuilder.keeps_after (remaining.parts earlier).1).registers
          rw [← before] at grown
          exact Nat.not_le_of_lt made (Nat.le_trans grown (second.fresh allocated))
      | false =>
          have allocating : call.allocates := by simpa [allocated] using allocates
          have settled : ∀ other ∈ call :: earlier, other.describes = false := by
            intro other member
            refine settled [] declares allocating other ?_
            rw [split]
            simp only [List.mem_cons, List.mem_append] at member ⊢
            tauto
          have same := builder.after_parameterRegisters (call :: earlier) settled
          have declared := second.declared allocated
          rw [before] at declared
          have above := first.fresh allocating
          exact Nat.not_le_of_lt (same ▸ declared) (Nat.le_trans reserves above)

/-- What is allocated lies above the parameters of the finished function. -/
theorem above_parameters
    (declares : DeclaresFirst calls)
    (reserves : builder.Reserves)
    (counts : builder.CountsThrough calls)
    {step : BuilderStep}
    (member : step ∈ builder.steps calls)
    (allocated : step.call.allocates)
    {register : Register}
    (handed : step.HandsOut register) :
    (builder.after calls).chunk.info.parameterRegisters <= register := by
  obtain ⟨earlier, later, split, before, after⟩ := ChunkBuilder.steps_split member
  rw [split] at declares counts
  have same := step.before.after_parameterRegisters _ (settled earlier declares allocated)
  change (step.afterwards.after later).chunk.info.parameterRegisters = _ at same
  have reserved := reserves.after (counts.parts earlier).1
  rw [← before] at reserved
  rw [after, same]
  exact Nat.le_trans reserved (handed.fresh allocated)

end DeclaresFirst

/-! ## What a session hands out -/

namespace BuilderStep

variable {step : BuilderStep}

/-- What a step hands out is in the chunk from then on. -/
theorem Supplies.resolves
    {referent : Referent}
    (supplies : step.Supplies referent)
    (reserves : step.before.Reserves)
    (counts : step.before.Counts step.call) :
    step.afterwards.chunk.Resolves referent := by
  cases referent with
  | register register => exact HandsOut.exists supplies reserves counts
  | constant index =>
      obtain ⟨before, call⟩ := step
      obtain ⟨answer, ⟨value, rfl⟩ | ⟨value, rfl⟩⟩ := supplies
      · cases answer
        have stands := (before.string_interns value).stands
        exact (Array.getElem?_eq_some_iff.1 stands).1
      · cases answer
        exact before.number_resolves value
  | name index =>
      obtain ⟨before, call⟩ := step
      obtain ⟨answer, value, rfl⟩ := supplies
      cases answer
      exact before.string_resolves value
  | function index =>
      obtain ⟨before, call⟩ := step
      obtain ⟨answer, nested, rfl⟩ := supplies
      cases answer
      change before.chunk.functions.length < (before.chunk.functions ++ [nested]).length
      rw [List.length_append]
      exact Nat.lt_succ_self _
  | cacheSlot slot =>
      obtain ⟨before, call⟩ := step
      obtain ⟨answer, rfl⟩ := supplies
      cases answer
      exact ChunkBuilder.cacheSlot_resolves counts

theorem Captures.exists {index : Nat} (captures : step.Captures index) :
    index < step.afterwards.chunk.info.captures.length := by
  obtain ⟨before, call⟩ := step
  obtain ⟨answer, captured, rfl⟩ := captures
  cases answer
  change before.chunk.info.captures.length < (before.chunk.info.captures ++ [captured]).length
  rw [List.length_append]
  exact Nat.lt_succ_self _

end BuilderStep

namespace ChunkBuilder

variable {builder : ChunkBuilder} {calls : List BuilderCall} {step : BuilderStep}

/-- The chunk after a step grows into that after the session. -/
theorem step_extends (member : step ∈ builder.steps calls) :
    step.afterwards.chunk.Extends (builder.after calls).chunk := by
  obtain ⟨_, later, _, _, after⟩ := steps_split member
  rw [after]
  exact step.afterwards.after_extends later

/-- The chunk has whatever some step of the session handed out. -/
theorem supplied_resolves
    (reserves : builder.Reserves)
    (counts : builder.CountsThrough calls)
    (member : step ∈ builder.steps calls)
    {referent : Referent}
    (supplies : step.Supplies referent) :
    (builder.after calls).chunk.Resolves referent := by
  have counted := counts step member
  have grows := step_extends member
  obtain ⟨earlier, later, split, before, after⟩ := steps_split member
  rw [split] at counts
  obtain ⟨first, rest⟩ := counts.parts earlier
  have reserved := reserves.after first
  rw [← before] at reserved rest
  refine grows.resolves ?_ (supplies.resolves reserved counted)
  rw [after]
  exact keeps_after (List.forall_mem_cons.1 rest).2

theorem captured_exists
    (member : step ∈ builder.steps calls)
    {index : Nat}
    (captures : step.Captures index) :
    index < (builder.after calls).chunk.info.captures.length := by
  obtain ⟨more, same⟩ := (step_extends member).captures
  rw [same, List.length_append]
  exact Nat.lt_of_lt_of_le captures.exists (Nat.le_add_right _ _)

/-- A session gives an index for every string, and the index stays that of the string. -/
theorem string_answer_interns
    (member : step ∈ builder.steps calls)
    {value : String}
    (asked : step.call = .string value) :
    ∃ index, step.answer = some index ∧ (builder.after calls).chunk.Interns value index := by
  have grows := step_extends member
  obtain ⟨before, call⟩ := step
  cases asked
  exact ⟨_, rfl, (before.string_interns value).extend grows⟩

end ChunkBuilder

end ScriptVM

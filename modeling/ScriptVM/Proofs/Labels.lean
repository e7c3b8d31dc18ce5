import Mathlib.Data.List.Induction
import ScriptVM.Proofs.BuiltChunks

/-!
# Labels of a session

A label is a number until the chunk is finished; then it stands for the offset at which it was
bound. Finishing succeeds exactly when every label that a jump refers to was bound, and bound
once, and it changes nothing but the jump targets.
-/

namespace ScriptVM

/-! ## What a session binds, emits and stores -/

namespace BuilderCall

/-- The call appends an instruction. -/
def emits : BuilderCall -> Bool
  | emit _ | loadNumber .. | loadString .. | getNamed .. | setNamed .. => true
  | getGlobal .. | defineGlobal .. => true
  | _ => false

/-- The call creates a label. -/
def createsLabel : BuilderCall -> Bool
  | .label => true
  | _ => false

/-- The label that the call binds. -/
def bound? : BuilderCall -> Option Nat
  | bind fixed => some fixed
  | _ => none

/-- The source position that the call gives to the instructions that follow. -/
def located? : BuilderCall -> Option SourcePosition
  | locate line column => some { line, column }
  | _ => none

/-- The constant that the call stores or looks up. -/
def literal? : BuilderCall -> Option Constant
  | string value | loadString _ value => some (.string value)
  | getNamed _ _ name | setNamed _ name _ => some (.string name)
  | getGlobal _ name | defineGlobal name _ => some (.string name)
  | number value => some (.number value)
  | loadNumber _ value =>
      if ChunkBuilder.isSmallInteger value then none else some (.number value)
  | _ => none

/-- The nested function that the call adds. -/
def nested? : BuilderCall -> Option Chunk
  | function nested => some nested
  | _ => none

/-- A text is stored once, a number each time. -/
def store (pool : Array Constant) : Option Constant -> Array Constant
  | none => pool
  | some (.number value) => pool.push (.number value)
  | some (.string value) =>
      if pool.contains (.string value) then pool else pool.push (.string value)

@[simp] theorem bound?_eq_some {call : BuilderCall} {label : Nat} :
    call.bound? = some label ↔ call = .bind label := by
  cases call <;> simp [bound?]

end BuilderCall

/-- The source position of the instructions that are emitted next: the last one that was given. -/
def positionAfter (calls : List BuilderCall) : Option SourcePosition :=
  (calls.filterMap BuilderCall.located?).getLast?

/-- The label is bound after so many instructions. -/
def BoundAt (calls : List BuilderCall) (label offset : Nat) : Prop :=
  ∃ earlier later, calls = earlier ++ .bind label :: later ∧
    offset = earlier.countP BuilderCall.emits

/-- No label is bound twice, and none before it exists. Labels are numbered in the order in which
they are created. -/
structure BindsOnce (calls : List BuilderCall) : Prop where
  once : (calls.filterMap BuilderCall.bound?).Nodup
  created : ∀ earlier label later, calls = earlier ++ .bind label :: later ->
    label < earlier.countP BuilderCall.createsLabel

/-- Every label that the caller jumps to is bound, be it before the jump or after it. -/
def BindsTargets (calls : List BuilderCall) : Prop :=
  ∀ instruction, .emit instruction ∈ calls -> ∀ label ∈ instruction.targets, .bind label ∈ calls

namespace BuilderStep

/-- The instruction that the step appends, with labels for its jump targets. -/
def emitted? (step : BuilderStep) : Option Instruction :=
  match step.call with
  | .emit instruction => some instruction
  | .loadNumber destination value =>
      if ChunkBuilder.isSmallInteger value then
        some (.loadInt destination (Number.truncate value))
      else some (.loadConst destination step.before.chunk.constants.size)
  | .loadString destination value =>
      some (.loadConst destination (step.before.string value).1)
  | .getNamed destination object name =>
      some (.getNamed destination object (step.before.string name).1
        step.before.chunk.cacheSlots)
  | .setNamed object name value =>
      some (.setNamed object (step.before.string name).1 value step.before.chunk.cacheSlots)
  | .getGlobal destination name => some (.getGlobal destination (step.before.string name).1)
  | .defineGlobal name source => some (.defineGlobal (step.before.string name).1 source)
  | _ => none

/-- The instruction that the step appends, with its source position. -/
def placed? (step : BuilderStep) : Option PlacedInstruction :=
  step.emitted?.map fun instruction => { instruction, position := step.before.position }

end BuilderStep

/-- One instruction is the other with an offset in place of each jump label; what is no jump
target stays. -/
inductive Instruction.Aims (offset : Nat -> Nat -> Prop) : Instruction -> Instruction -> Prop
  | jump {label target : Nat} :
      offset label target -> Aims offset (.jump label) (.jump target)
  | gotoFinally {label target : Nat} :
      offset label target -> Aims offset (.gotoFinally label) (.gotoFinally target)
  | leave {label target : Nat} (depth : Nat) :
      offset label target -> Aims offset (.leave label depth) (.leave target depth)
  | jumpIfTrue (condition : Register) {label target : Nat} :
      offset label target ->
      Aims offset (.jumpIfTrue condition label) (.jumpIfTrue condition target)
  | jumpIfFalse (condition : Register) {label target : Nat} :
      offset label target ->
      Aims offset (.jumpIfFalse condition label) (.jumpIfFalse condition target)
  | jumpIfNullish (condition : Register) {label target : Nat} :
      offset label target ->
      Aims offset (.jumpIfNullish condition label) (.jumpIfNullish condition target)
  | jumpIfUndefined (condition : Register) {label target : Nat} :
      offset label target ->
      Aims offset (.jumpIfUndefined condition label) (.jumpIfUndefined condition target)
  | jumpIfNotUndefined (condition : Register) {label target : Nat} :
      offset label target ->
      Aims offset (.jumpIfNotUndefined condition label) (.jumpIfNotUndefined condition target)
  | jumpIfDone (result : Register) {label target : Nat} :
      offset label target ->
      Aims offset (.jumpIfDone result label) (.jumpIfDone result target)
  | enterTry {catchLabel catchTarget finallyLabel finallyTarget : Option Nat} :
      Option.Rel offset catchLabel catchTarget -> Option.Rel offset finallyLabel finallyTarget ->
      Aims offset (.enterTry catchLabel finallyLabel) (.enterTry catchTarget finallyTarget)
  | still {instruction : Instruction} :
      instruction.targets = [] -> Aims offset instruction instruction

/-- The same with its source position, which stays. -/
structure PlacedInstruction.Aims
    (offset : Nat -> Nat -> Prop)
    (placed resolved : PlacedInstruction) : Prop where
  instruction : placed.instruction.Aims offset resolved.instruction
  position : resolved.position = placed.position

/-- The chunk is what a session of a new builder has put together, with offsets for labels. -/
structure ChunkBuilder.Completes
    (builder : ChunkBuilder)
    (calls : List BuilderCall)
    (chunk : Chunk) : Prop where
  code : List.Forall₂ (PlacedInstruction.Aims (BoundAt calls))
    ((builder.steps calls).filterMap BuilderStep.placed?) chunk.code.toList
  /-- Labels that are bound at the end stand for the number of instructions. -/
  size : chunk.code.size = calls.countP BuilderCall.emits
  positions : ∀ earlier call later, calls = earlier ++ call :: later -> call.emits = true ->
    chunk.ownPosition? (earlier.countP BuilderCall.emits) = positionAfter earlier
  constants : chunk.constants =
    calls.foldl (fun pool call => BuilderCall.store pool call.literal?) builder.chunk.constants
  functions : chunk.functions = builder.chunk.functions ++ calls.filterMap BuilderCall.nested?
  info : chunk.info = (builder.after calls).chunk.info
  registers : chunk.registerCount = (builder.after calls).chunk.registerCount
  cacheSlots : chunk.cacheSlots = (builder.after calls).chunk.cacheSlots

/-! ## Resolving targets -/

namespace Instruction

variable {resolve : Nat -> Except BuildError Nat} {offset : Nat -> Nat -> Prop}

theorem mapM_eq_ok_iff {label target : Option Nat} :
    label.mapM resolve = .ok target ↔
      Option.Rel (fun label target => resolve label = .ok target) label target := by
  cases label with
  | none =>
      constructor
      · intro same
        cases same
        exact .none
      · rintro ⟨⟩
        rfl
  | some label =>
      rw [Option.mapM_some]
      constructor
      · intro mapped
        obtain ⟨offset, found, same⟩ := steps_of_bind mapped
        cases same
        exact .some found
      · rintro (⟨found⟩ | _)
        rw [found]
        rfl

/-- Replacing the targets of an instruction succeeds with nothing but the instruction whose
targets are replaced. -/
theorem mapTargetsM_eq_ok_iff {instruction resolved : Instruction} :
    instruction.mapTargetsM resolve = .ok resolved ↔
      instruction.Aims (fun label target => resolve label = .ok target) resolved := by
  constructor
  · intro mapped
    cases instruction with
    | enterTry catchLabel finallyLabel =>
        obtain ⟨catchTarget, caught, rest⟩ := steps_of_bind mapped
        obtain ⟨finallyTarget, ended, same⟩ := steps_of_bind rest
        cases same
        exact .enterTry (mapM_eq_ok_iff.1 caught) (mapM_eq_ok_iff.1 ended)
    | jump | gotoFinally | leave | jumpIfTrue | jumpIfFalse | jumpIfNullish | jumpIfUndefined
    | jumpIfNotUndefined | jumpIfDone =>
        obtain ⟨target, found, same⟩ := steps_of_bind mapped
        cases same
        constructor
        exact found
    | _ =>
        cases mapped
        exact .still rfl
  · intro aims
    cases aims with
    | enterTry caught ended =>
        simp only [mapTargetsM, mapM_eq_ok_iff.2 caught, mapM_eq_ok_iff.2 ended]
        rfl
    | still none =>
        cases instruction with
        | enterTry catchLabel finallyLabel =>
            cases catchLabel <;> cases finallyLabel <;> first | rfl | cases none
        | jump | gotoFinally | leave | jumpIfTrue | jumpIfFalse | jumpIfNullish
        | jumpIfUndefined | jumpIfNotUndefined | jumpIfDone => cases none
        | _ => rfl
    | jump found | gotoFinally found | leave _ found | jumpIfTrue _ found
    | jumpIfFalse _ found | jumpIfNullish _ found | jumpIfUndefined _ found
    | jumpIfNotUndefined _ found | jumpIfDone _ found =>
        simp only [mapTargetsM, found]
        rfl

/-- An instruction can be aimed exactly if all its labels have offsets. -/
theorem exists_aims_iff {instruction : Instruction} :
    (∃ resolved, instruction.Aims offset resolved) ↔
      ∀ label ∈ instruction.targets, ∃ target, offset label target := by
  constructor
  · rintro ⟨resolved, aims⟩ label member
    cases aims with
    | enterTry caught ended =>
        simp only [targets, List.mem_append, Option.mem_toList] at member
        rcases member with member | member
        · cases member
          cases caught with
          | some found => exact ⟨_, found⟩
        · cases member
          cases ended with
          | some found => exact ⟨_, found⟩
    | still none =>
        rw [none] at member
        cases member
    | _ =>
        cases List.mem_singleton.1 member
        exact ⟨_, by assumption⟩
  · intro all
    have lifted : ∀ label : Option Nat, (∀ found ∈ label, ∃ target, offset found target) ->
        ∃ target, Option.Rel offset label target := by
      intro label given
      cases label with
      | none => exact ⟨none, .none⟩
      | some label =>
          obtain ⟨target, found⟩ := given label rfl
          exact ⟨some target, .some found⟩
    cases instruction with
    | enterTry catchLabel finallyLabel =>
        obtain ⟨_, caught⟩ := lifted catchLabel fun label given =>
          all label (by simpa [targets] using .inl given)
        obtain ⟨_, ended⟩ := lifted finallyLabel fun label given =>
          all label (by simpa [targets] using .inr given)
        exact ⟨_, .enterTry caught ended⟩
    | jump | gotoFinally | leave | jumpIfTrue | jumpIfFalse | jumpIfNullish
    | jumpIfUndefined | jumpIfNotUndefined | jumpIfDone =>
        obtain ⟨target, found⟩ := all _ (List.mem_singleton_self _)
        exact ⟨_, by constructor; exact found⟩
    | _ => exact ⟨_, .still rfl⟩

end Instruction

namespace ChunkBuilder

variable {builder : ChunkBuilder}

theorem resolve_eq_ok_iff {label offset : Nat} :
    builder.resolve label = .ok offset ↔ builder.labels[label]? = some (some offset) := by
  unfold resolve
  split
  · next found same =>
      rw [Option.join_eq_some_iff] at same
      simp [same]
  · next missing =>
      constructor
      · intro failed
        cases failed
      · intro found
        simp [found] at missing

theorem resolveTargets_eq_ok_iff {placed resolved : PlacedInstruction} :
    builder.resolveTargets placed = .ok resolved ↔
      placed.Aims (fun label target => builder.labels[label]? = some (some target))
        resolved := by
  have steps : placed.instruction.mapTargetsM builder.resolve = .ok resolved.instruction ↔ _ :=
    Instruction.mapTargetsM_eq_ok_iff
  simp only [resolve_eq_ok_iff] at steps
  unfold resolveTargets
  constructor
  · intro mapped
    obtain ⟨instruction, found, same⟩ := steps_of_bind mapped
    cases same
    exact ⟨steps.1 found, rfl⟩
  · rintro ⟨aims, position⟩
    rw [steps.2 aims]
    obtain ⟨instruction, _⟩ := resolved
    cases position
    rfl

theorem mapM_resolveTargets_eq_ok_iff {code resolved : List PlacedInstruction} :
    code.mapM builder.resolveTargets = .ok resolved ↔
      List.Forall₂ (PlacedInstruction.Aims fun label target =>
        builder.labels[label]? = some (some target)) code resolved := by
  induction code generalizing resolved with
  | nil =>
      constructor
      · rintro ⟨⟩
        exact .nil
      · rintro ⟨⟩
        rfl
  | cons placed code inductionHypothesis =>
      rw [List.mapM_cons]
      constructor
      · intro mapped
        obtain ⟨first, found, rest⟩ := steps_of_bind mapped
        obtain ⟨others, following, same⟩ := steps_of_bind rest
        cases same
        exact .cons (resolveTargets_eq_ok_iff.1 found) (inductionHypothesis.1 following)
      · rintro (_ | ⟨aims, rest⟩)
        rw [resolveTargets_eq_ok_iff.2 aims, inductionHypothesis.2 rest]
        rfl

/-- Finishing succeeds if no label was bound in vain and every target has its offset; then it
replaces the code. -/
theorem finish_eq_ok_iff {chunk : Chunk} :
    builder.finish = .ok chunk ↔ builder.rebound = none ∧
      ∃ code, chunk = { builder.chunk with code := code.toArray } ∧
        List.Forall₂ (PlacedInstruction.Aims fun label target =>
          builder.labels[label]? = some (some target)) builder.chunk.code.toList code := by
  unfold finish
  cases builder.rebound with
  | some label =>
      constructor
      · rintro ⟨⟩
      · rintro ⟨⟨⟩, _⟩
  | none =>
      constructor
      · intro finished
        obtain ⟨code, mapped, same⟩ := steps_of_bind finished
        cases same
        exact ⟨rfl, code, rfl, mapM_resolveTargets_eq_ok_iff.1 mapped⟩
      · rintro ⟨_, code, rfl, aims⟩
        have mapped := mapM_resolveTargets_eq_ok_iff.2 aims
        show (builder.chunk.code.toList.mapM builder.resolveTargets >>= _) = _
        rw [mapped]
        rfl

/-! ## What one call does -/

/-- Interning a text only touches the constants. -/
theorem string_snd (builder : ChunkBuilder) (value : String) :
    (builder.string value).2 =
      { builder with
        chunk := { builder.chunk with
          constants := BuilderCall.store builder.chunk.constants (some (.string value)) } } := by
  have known : builder.chunk.constants.contains (.string value) =
      (builder.chunk.constants.findIdx? fun entry => entry == .string value).isSome := by
    rw [Array.findIdx?_isSome, Array.contains_eq_any_beq]
    simp only [BEq.comm]
  unfold string BuilderCall.store
  dsimp only
  split
  · next index found =>
      rw [known, found, Option.isSome_some, if_pos rfl]
      -- A chunk holds chunks, so it is what its fields make of it only by cases.
      obtain ⟨⟨_⟩, _⟩ := builder
      rfl
  · next missing =>
      rw [known, missing, Option.isSome_none, if_neg Bool.false_ne_true]
      rfl

variable (builder : ChunkBuilder) (call : BuilderCall)

theorem perform_code :
    (builder.perform call).2.chunk.code.toList =
      builder.chunk.code.toList ++ (BuilderStep.mk builder call).placed?.toList := by
  cases call with
  | emit => simp [perform, emit, BuilderStep.placed?, BuilderStep.emitted?]
  | loadNumber destination value =>
      by_cases small : isSmallInteger value
      · simp [perform, loadNumber, emit, BuilderStep.placed?, BuilderStep.emitted?, small]
      · simp [perform, loadNumber, number, constant, emit, BuilderStep.placed?,
          BuilderStep.emitted?, small]
  | loadString | getNamed | setNamed | getGlobal | defineGlobal =>
      simp [perform, loadString, getNamed, setNamed, getGlobal, defineGlobal, emit, cacheSlot,
        string_snd, BuilderStep.placed?, BuilderStep.emitted?]
  | string => simp [perform, string_snd, BuilderStep.placed?, BuilderStep.emitted?]
  | bind label =>
      unfold perform bind
      dsimp only
      split <;> simp [BuilderStep.placed?, BuilderStep.emitted?]
  | _ =>
      simp [perform, withParameters, withRest, sloppy, describe, register, registers, capture,
        number, constant, cacheSlot, function, label, locate, BuilderStep.placed?,
        BuilderStep.emitted?]

theorem perform_functions :
    (builder.perform call).2.chunk.functions =
      builder.chunk.functions ++ call.nested?.toList := by
  cases call with
  | loadNumber destination value =>
      by_cases small : isSmallInteger value <;>
        simp [perform, loadNumber, number, constant, emit, BuilderCall.nested?, small]
  | bind label =>
      unfold perform bind
      dsimp only
      split <;> simp [BuilderCall.nested?]
  | _ =>
      simp [perform, withParameters, withRest, sloppy, describe, register, registers, capture,
        number, constant, cacheSlot, function, label, locate, string_snd, loadString, getNamed,
        setNamed, getGlobal, defineGlobal, emit, BuilderCall.nested?]

theorem perform_constants :
    (builder.perform call).2.chunk.constants =
      BuilderCall.store builder.chunk.constants call.literal? := by
  cases call with
  | loadNumber destination value =>
      by_cases small : isSmallInteger value <;>
        simp [perform, loadNumber, number, constant, emit, BuilderCall.literal?,
          BuilderCall.store, small]
  | bind label =>
      unfold perform bind
      dsimp only
      split <;> simp [BuilderCall.literal?, BuilderCall.store]
  | string | loadString | getNamed | setNamed | getGlobal | defineGlobal =>
      simp [perform, cacheSlot, string_snd, loadString, getNamed, setNamed, getGlobal,
        defineGlobal, emit, BuilderCall.literal?]
  | _ =>
      simp [perform, withParameters, withRest, sloppy, describe, register, registers, capture,
        number, constant, cacheSlot, function, label, locate, emit, BuilderCall.literal?,
        BuilderCall.store]

/-- Only creating and binding labels concerns labels. -/
theorem perform_labels (created : call.createsLabel = false) (bound : call.bound? = none) :
    (builder.perform call).2.labels = builder.labels ∧
      (builder.perform call).2.rebound = builder.rebound := by
  cases call with
  | label => cases created
  | bind => cases bound
  | loadNumber destination value =>
      by_cases small : isSmallInteger value <;>
        simp [perform, loadNumber, number, constant, emit, small]
  | _ =>
      simp [perform, withParameters, withRest, sloppy, describe, register, registers, capture,
        number, constant, cacheSlot, function, locate, string_snd, loadString, getNamed,
        setNamed, getGlobal, defineGlobal, emit]

theorem perform_position :
    (builder.perform call).2.position = call.located?.or builder.position := by
  cases call with
  | loadNumber destination value =>
      by_cases small : isSmallInteger value <;>
        simp [perform, loadNumber, number, constant, emit, BuilderCall.located?, small]
  | bind label =>
      unfold perform bind
      dsimp only
      split <;> simp [BuilderCall.located?]
  | _ =>
      simp [perform, withParameters, withRest, sloppy, describe, register, registers, capture,
        number, constant, cacheSlot, function, label, locate, string_snd, loadString, getNamed,
        setNamed, getGlobal, defineGlobal, emit, BuilderCall.located?]

theorem isSome_placed? :
    (BuilderStep.mk builder call).placed?.isSome = call.emits := by
  cases call with
  | loadNumber destination value =>
      by_cases small : isSmallInteger value <;>
        simp [BuilderStep.placed?, BuilderStep.emitted?, BuilderCall.emits, small]
  | _ => rfl

/-! ## Whole sessions -/

variable {calls : List BuilderCall}

theorem after_concat :
    builder.after (calls ++ [call]) = ((builder.after calls).perform call).2 := by
  unfold after
  rw [List.foldl_append]
  rfl

theorem steps_split_at (later : List BuilderCall) :
    builder.steps (calls ++ call :: later) =
      builder.steps calls ++ ⟨builder.after calls, call⟩ ::
        ((builder.after calls).perform call).2.steps later := by
  induction calls generalizing builder with
  | nil => rfl
  | cons first calls inductionHypothesis =>
      show _ :: (builder.perform first).2.steps (calls ++ call :: later) = _
      rw [inductionHypothesis]
      rfl

theorem steps_concat :
    builder.steps (calls ++ [call]) = builder.steps calls ++ [⟨builder.after calls, call⟩] :=
  steps_split_at builder call []

theorem after_position (name : String) (kind : FunctionKind) (calls : List BuilderCall) :
    ((start name kind).after calls).position = positionAfter calls := by
  unfold positionAfter
  induction calls using List.reverseRecOn with
  | nil => rfl
  | append_singleton calls call inductionHypothesis =>
      rw [after_concat, perform_position, inductionHypothesis, List.filterMap_append]
      cases located : call.located? <;> simp [located]

/-- The code is the list of what the calls emit. -/
theorem after_code (calls : List BuilderCall) :
    (builder.after calls).chunk.code.toList =
      builder.chunk.code.toList ++ (builder.steps calls).filterMap BuilderStep.placed? := by
  induction calls using List.reverseRecOn with
  | nil => simp [after, steps]
  | append_singleton calls call inductionHypothesis =>
      rw [after_concat, perform_code, inductionHypothesis, steps_concat, List.filterMap_append,
        List.append_assoc]
      simp [List.filterMap_cons]
      cases (BuilderStep.mk (builder.after calls) call).placed? <;> rfl

theorem after_functions (calls : List BuilderCall) :
    (builder.after calls).chunk.functions =
      builder.chunk.functions ++ calls.filterMap BuilderCall.nested? := by
  induction calls using List.reverseRecOn with
  | nil => simp [after]
  | append_singleton calls call inductionHypothesis =>
      rw [after_concat, perform_functions, inductionHypothesis, List.filterMap_append,
        List.append_assoc]
      cases nested : call.nested? <;> simp [nested]

theorem after_constants (calls : List BuilderCall) :
    (builder.after calls).chunk.constants =
      calls.foldl (fun pool call => BuilderCall.store pool call.literal?)
        builder.chunk.constants := by
  induction calls using List.reverseRecOn with
  | nil => rfl
  | append_singleton calls call inductionHypothesis =>
      rw [after_concat, perform_constants, inductionHypothesis, List.foldl_append]
      rfl

theorem length_placed (calls : List BuilderCall) :
    ((builder.steps calls).filterMap BuilderStep.placed?).length =
      calls.countP BuilderCall.emits := by
  induction calls using List.reverseRecOn with
  | nil => rfl
  | append_singleton calls call inductionHypothesis =>
      have emits := isSome_placed? (builder.after calls) call
      rw [steps_concat, List.filterMap_append, List.length_append, inductionHypothesis,
        List.countP_append, List.countP_singleton, ← emits]
      cases placed : (BuilderStep.mk (builder.after calls) call).placed? <;> simp [placed]

theorem after_size {name : String} {kind : FunctionKind} (calls : List BuilderCall) :
    ((start name kind).after calls).chunk.code.size = calls.countP BuilderCall.emits := by
  have listed := (start name kind).after_code calls
  rw [← Array.length_toList, listed, List.length_append, length_placed]
  exact Nat.zero_add _

end ChunkBuilder

/-! ## Labels of a session -/

section

variable {calls : List BuilderCall} {call : BuilderCall} {label offset : Nat}

theorem mem_of_boundAt (bound : BoundAt calls label offset) : .bind label ∈ calls := by
  obtain ⟨earlier, later, rfl, _⟩ := bound
  simp

theorem exists_boundAt_iff :
    (∃ offset, BoundAt calls label offset) ↔ .bind label ∈ calls := by
  constructor
  · rintro ⟨offset, bound⟩
    exact mem_of_boundAt bound
  · intro member
    obtain ⟨earlier, later, rfl⟩ := List.append_of_mem member
    exact ⟨_, earlier, later, rfl, rfl⟩

/-- A later call binds one label more, or none. -/
theorem boundAt_concat :
    BoundAt (calls ++ [call]) label offset ↔
      BoundAt calls label offset ∨
        call = .bind label ∧ offset = calls.countP BuilderCall.emits := by
  constructor
  · rintro ⟨earlier, later, split, rfl⟩
    rcases List.eq_nil_or_concat later with rfl | ⟨later, last, rfl⟩
    · obtain ⟨rfl, same⟩ := List.append_inj' split rfl
      cases same
      exact .inr ⟨rfl, rfl⟩
    · rw [List.concat_eq_append, ← List.cons_append, ← List.append_assoc] at split
      obtain ⟨rfl, _⟩ := List.append_inj' split rfl
      exact .inl ⟨earlier, later, rfl, rfl⟩
  · rintro (⟨earlier, later, rfl, rfl⟩ | ⟨rfl, rfl⟩)
    · exact ⟨earlier, later ++ [call], by simp, rfl⟩
    · exact ⟨calls, [], rfl, rfl⟩

theorem bindsOnce_nil : BindsOnce [] := by
  constructor
  · simp
  · intro earlier label later split
    simp at split

/-- What the last call may bind exists and is not bound yet. -/
theorem bindsOnce_concat :
    BindsOnce (calls ++ [call]) ↔
      BindsOnce calls ∧ ∀ label, call = .bind label ->
        label < calls.countP BuilderCall.createsLabel ∧ .bind label ∉ calls := by
  have listed : ∀ label, label ∈ calls.filterMap BuilderCall.bound? ↔ .bind label ∈ calls := by
    intro label
    simp
  constructor
  · rintro ⟨once, created⟩
    rw [List.filterMap_append, List.nodup_append] at once
    refine ⟨⟨once.1, ?_⟩, ?_⟩
    · rintro earlier label later rfl
      exact created earlier label (later ++ [call]) (by simp)
    · rintro label rfl
      refine ⟨created calls label [] rfl, ?_⟩
      intro member
      exact once.2.2 label ((listed label).2 member) label (by simp) rfl
  · rintro ⟨⟨once, created⟩, fresh⟩
    constructor
    · rw [List.filterMap_append, List.nodup_append]
      refine ⟨once, ?_, ?_⟩
      · cases bound : call.bound? <;> simp [bound]
      · intro label member other last same
        subst same
        cases bound : call.bound? with
        | none => simp [bound] at last
        | some found =>
            simp [bound] at last
            subst last
            exact (fresh label (BuilderCall.bound?_eq_some.1 bound)).2 ((listed label).1 member)
    · intro earlier label later split
      rcases List.eq_nil_or_concat later with rfl | ⟨later, last, rfl⟩
      · obtain ⟨rfl, same⟩ := List.append_inj' split rfl
        cases same
        exact (fresh label rfl).1
      · rw [List.concat_eq_append, ← List.cons_append, ← List.append_assoc] at split
        obtain ⟨rfl, _⟩ := List.append_inj' split rfl
        exact created earlier label later rfl

end

namespace ChunkBuilder

variable {builder : ChunkBuilder} {calls : List BuilderCall} {call : BuilderCall}
variable {step : BuilderStep}

/-- What the labels of a builder tell of its session. -/
structure Labelled (builder : ChunkBuilder) (calls : List BuilderCall) : Prop where
  created : builder.labels.size = calls.countP BuilderCall.createsLabel
  sound : builder.rebound = none ↔ BindsOnce calls
  bound : BindsOnce calls -> ∀ label offset : Nat,
    builder.labels[label]? = some (some offset) ↔ BoundAt calls label offset

section

variable (labelled : builder.Labelled calls)
include labelled

/-- A call that does not bind anything leaves what is bound. -/
theorem Labelled.extend
    {later : ChunkBuilder}
    (binds : call.bound? = none)
    (created : later.labels.size =
      builder.labels.size + if call.createsLabel = true then 1 else 0)
    (rebound : later.rebound = builder.rebound)
    (same : ∀ label offset : Nat,
      later.labels[label]? = some (some offset) ↔ builder.labels[label]? = some (some offset)) :
    later.Labelled (calls ++ [call]) := by
  have other : ∀ label, call ≠ .bind label := by
    rintro label rfl
    cases binds
  have once : BindsOnce (calls ++ [call]) ↔ BindsOnce calls := by
    rw [bindsOnce_concat]
    constructor
    · exact And.left
    · intro once
      exact ⟨once, fun label last => absurd last (other label)⟩
  refine ⟨?_, ?_, ?_⟩
  · rw [created, labelled.created, List.countP_append, List.countP_singleton]
  · rw [rebound, labelled.sound, once]
  · intro binding label offset
    rw [same, labelled.bound (once.1 binding), boundAt_concat]
    constructor
    · exact Or.inl
    · rintro (bound | ⟨last, _⟩)
      · exact bound
      · exact absurd last (other label)

theorem Labelled.aside
    (created : call.createsLabel = false)
    (binds : call.bound? = none) :
    (builder.perform call).2.Labelled (calls ++ [call]) := by
  obtain ⟨labels, rebound⟩ := builder.perform_labels call created binds
  refine labelled.extend binds ?_ rebound ?_
  · simp [labels, created]
  · simp [labels]

theorem Labelled.bind
    (size : builder.chunk.code.size = calls.countP BuilderCall.emits)
    (label : Nat) :
    (builder.bind label).Labelled (calls ++ [.bind label]) := by
  have fresh : BindsOnce (calls ++ [.bind label]) ↔
      BindsOnce calls ∧ builder.labels[label]? = some none := by
    rw [bindsOnce_concat]
    constructor
    · rintro ⟨once, last⟩
      obtain ⟨existing, unbound⟩ := last label rfl
      refine ⟨once, ?_⟩
      rw [← labelled.created] at existing
      rw [Array.getElem?_eq_getElem existing]
      cases state : builder.labels[label] with
      | none => rfl
      | some offset =>
          have bound := (labelled.bound once label offset).1 (by
            rw [Array.getElem?_eq_getElem existing, state])
          exact absurd (mem_of_boundAt bound) unbound
    · rintro ⟨once, unbound⟩
      refine ⟨once, ?_⟩
      rintro _ ⟨⟩
      refine ⟨?_, ?_⟩
      · rw [← labelled.created]
        exact (Array.getElem?_eq_some_iff.1 unbound).1
      · intro member
        obtain ⟨offset, bound⟩ := exists_boundAt_iff.2 member
        rw [(labelled.bound once label offset).2 bound] at unbound
        cases unbound
  have created : calls.countP BuilderCall.createsLabel =
      (calls ++ [BuilderCall.bind label]).countP BuilderCall.createsLabel := by
    simp [BuilderCall.createsLabel]
  unfold ChunkBuilder.bind
  split
  · next unbound =>
      refine ⟨?_, ?_, ?_⟩
      · simpa [← created] using labelled.created
      · simp [labelled.sound, fresh, unbound]
      · intro once other offset
        have earlier := (fresh.1 once).1
        obtain ⟨inside, state⟩ := Array.getElem?_eq_some_iff.1 unbound
        rw [boundAt_concat, ← labelled.bound earlier, ← size]
        dsimp only
        rw [Array.getElem?_setIfInBounds]
        by_cases same : label = other
        · subst same
          simp [inside, state, eq_comm]
        · simp [same]
  · next bound =>
      refine ⟨?_, ?_, ?_⟩
      · simpa [← created] using labelled.created
      · simp only [fresh, reduceCtorEq, false_iff, not_and]
        exact fun _ => bound
      · intro once
        exact absurd (fresh.1 once).2 bound

end

theorem labelled_after (name : String) (kind : FunctionKind) (calls : List BuilderCall) :
    ((start name kind).after calls).Labelled calls := by
  induction calls using List.reverseRecOn with
  | nil =>
      refine ⟨rfl, ?_, ?_⟩
      · simp [after, start, bindsOnce_nil]
      · intro _ label offset
        simp [after, start, BoundAt]
  | append_singleton calls call labelled =>
      rw [after_concat]
      cases call with
      | bind label => exact labelled.bind (after_size calls) label
      | label =>
          refine labelled.extend rfl ?_ rfl ?_
          · exact Array.size_push _
          · intro label offset
            show (((start name kind).after calls).labels.push none)[label]? = _ ↔ _
            rw [Array.getElem?_push]
            split
            · next last => simp [last]
            · rfl
      | _ => exact labelled.aside rfl rfl

/-! ## Finished chunks -/

theorem targets_of_placed?
    {placed : PlacedInstruction}
    (written : step.placed? = some placed) :
    step.call = .emit placed.instruction ∨ placed.instruction.targets = [] := by
  obtain ⟨before, call⟩ := step
  obtain ⟨instruction, emitted, rfl⟩ := Option.map_eq_some_iff.1 written
  cases call with
  | emit => exact .inl (congrArg BuilderCall.emit (Option.some.inj emitted))
  | loadNumber destination value =>
      right
      by_cases small : isSmallInteger value <;> simp [BuilderStep.emitted?, small] at emitted <;>
        subst emitted <;> rfl
  | loadString | getNamed | setNamed | getGlobal | defineGlobal =>
      right
      cases emitted
      rfl
  | _ => cases emitted

theorem mem_calls_of_steps
    {builder : ChunkBuilder}
    (member : step ∈ builder.steps calls) :
    step.call ∈ calls := by
  obtain ⟨earlier, later, rfl, _⟩ := steps_split member
  simp

theorem exists_step (builder : ChunkBuilder) (member : call ∈ calls) :
    ∃ step ∈ builder.steps calls, step.call = call := by
  induction calls generalizing builder with
  | nil => cases member
  | cons first calls inductionHypothesis =>
      cases member with
      | head => exact ⟨_, List.mem_cons_self, rfl⟩
      | tail _ member =>
          obtain ⟨step, listed, same⟩ := inductionHypothesis _ member
          exact ⟨step, List.mem_cons_of_mem _ listed, same⟩

/-- Only the instructions that the caller composed have targets. -/
theorem bindsTargets_iff (builder : ChunkBuilder) :
    BindsTargets calls ↔
      ∀ placed ∈ (builder.steps calls).filterMap BuilderStep.placed?,
        ∀ label ∈ placed.instruction.targets, .bind label ∈ calls := by
  constructor
  · intro binds placed listed label member
    obtain ⟨step, stepped, written⟩ := List.mem_filterMap.1 listed
    rcases targets_of_placed? written with emitted | none
    · exact binds placed.instruction (emitted ▸ mem_calls_of_steps stepped) label member
    · rw [none] at member
      cases member
  · intro binds instruction emitted label member
    obtain ⟨step, stepped, same⟩ := exists_step builder emitted
    refine binds { instruction, position := step.before.position } ?_ label member
    refine List.mem_filterMap.2 ⟨step, stepped, ?_⟩
    simp [BuilderStep.placed?, BuilderStep.emitted?, same]

theorem exists_forall₂_iff {α β : Type} {related : α -> β -> Prop} {first : List α} :
    (∃ second, List.Forall₂ related first second) ↔
      ∀ left ∈ first, ∃ right, related left right := by
  induction first with
  | nil => exact ⟨fun _ _ => nofun, fun _ => ⟨[], .nil⟩⟩
  | cons left first inductionHypothesis =>
      rw [List.forall_mem_cons, ← inductionHypothesis]
      constructor
      · rintro ⟨_, _ | ⟨matching, rest⟩⟩
        exact ⟨⟨_, matching⟩, ⟨_, rest⟩⟩
      · rintro ⟨⟨right, matching⟩, second, rest⟩
        exact ⟨right :: second, .cons matching rest⟩

/-- Every jump of a session has its offset exactly if the labels that it jumps to are bound. -/
theorem exists_code_iff (builder : ChunkBuilder) :
    (∃ code, List.Forall₂ (PlacedInstruction.Aims (BoundAt calls))
      ((builder.steps calls).filterMap BuilderStep.placed?) code) ↔ BindsTargets calls := by
  rw [exists_forall₂_iff, bindsTargets_iff builder]
  refine forall₂_congr fun placed listed => ?_
  simp only [← @exists_boundAt_iff calls]
  rw [← Instruction.exists_aims_iff]
  constructor
  · rintro ⟨resolved, aims⟩
    exact ⟨_, aims.instruction⟩
  · rintro ⟨instruction, aims⟩
    exact ⟨{ placed with instruction }, aims, rfl⟩

/-- Every instruction has the position that was given last. -/
theorem ownPosition?_of_aims
    {name : String}
    {kind : FunctionKind}
    {earlier later : List BuilderCall}
    {offset : Nat -> Nat -> Prop}
    {chunk : Chunk}
    (aims : List.Forall₂ (PlacedInstruction.Aims offset)
      (((start name kind).steps (earlier ++ call :: later)).filterMap BuilderStep.placed?)
      chunk.code.toList)
    (emits : call.emits = true) :
    chunk.ownPosition? (earlier.countP BuilderCall.emits) = positionAfter earlier := by
  obtain ⟨placed, written⟩ := Option.isSome_iff_exists.1
    ((isSome_placed? ((start name kind).after earlier) call).trans emits)
  have position : placed.position = positionAfter earlier := by
    obtain ⟨instruction, _, rfl⟩ := Option.map_eq_some_iff.1 written
    exact after_position name kind earlier
  rw [steps_split_at, List.filterMap_append, List.filterMap_cons, written] at aims
  have rest := List.forall₂_drop_append _ _ _ aims.flip
  rw [length_placed] at rest
  cases split : chunk.code.toList.drop (earlier.countP BuilderCall.emits) with
  | nil =>
      rw [split] at rest
      cases rest
  | cons resolved following =>
      rw [split] at rest
      cases rest with
      | cons same _ =>
          have found : (chunk.code.toList.drop (earlier.countP BuilderCall.emits))[0]? =
              chunk.code.toList[earlier.countP BuilderCall.emits + 0]? :=
            List.getElem?_drop
          rw [split, List.getElem?_cons_zero, Nat.add_zero, Array.getElem?_toList] at found
          unfold Chunk.ownPosition?
          rw [← found, Option.bind_some, same.position, position]

/-- A session can be finished exactly if each label that it binds exists then and is bound once,
and each label that it jumps to is bound somewhere. In the finished chunk the offset of a label,
which is the number of instructions emitted before it was bound, stands in the place of the
label; everything else is as it was emitted and stored. -/
theorem labels_resolve
    (name : String)
    (kind : FunctionKind)
    (calls : List BuilderCall) :
    ((∃ chunk, ((start name kind).after calls).finish = .ok chunk) ↔
      BindsOnce calls ∧ BindsTargets calls) ∧
    ∀ chunk, ((start name kind).after calls).finish = .ok chunk ↔
      BindsOnce calls ∧ (start name kind).Completes calls chunk := by
  have labelled := labelled_after name kind calls
  have listed := (start name kind).after_code calls
  rw [show (start name kind).chunk.code.toList = [] from rfl, List.nil_append] at listed
  have finishes : ∀ chunk, ((start name kind).after calls).finish = .ok chunk ↔
      BindsOnce calls ∧ ∃ code,
        chunk = { ((start name kind).after calls).chunk with code := code.toArray } ∧
        List.Forall₂ (PlacedInstruction.Aims (BoundAt calls))
          (((start name kind).steps calls).filterMap BuilderStep.placed?) code := by
    intro chunk
    rw [finish_eq_ok_iff, labelled.sound, listed]
    refine and_congr_right fun once => ?_
    have same : (fun label target : Nat =>
        ((start name kind).after calls).labels[label]? = some (some target)) =
          BoundAt calls := by
      funext label target
      exact propext (labelled.bound once label target)
    rw [same]
  refine ⟨?_, fun chunk => ?_⟩
  · rw [← exists_code_iff (start name kind)]
    simp only [finishes]
    constructor
    · rintro ⟨chunk, once, code, _, aims⟩
      exact ⟨once, code, aims⟩
    · rintro ⟨once, code, aims⟩
      exact ⟨_, once, code, rfl, aims⟩
  · rw [finishes]
    refine and_congr_right fun once => ?_
    constructor
    · rintro ⟨code, rfl, aims⟩
      refine ⟨aims, ?_, ?_, after_constants _ calls, after_functions _ calls, rfl, rfl, rfl⟩
      · rw [← length_placed (start name kind), aims.length_eq]
        rfl
      · rintro earlier call later rfl emits
        exact ownPosition?_of_aims aims emits
    · rintro ⟨aims, _, _, constants, functions, info, registers, cacheSlots⟩
      refine ⟨chunk.code.toList, ?_, aims⟩
      rw [← after_constants] at constants
      rw [← after_functions] at functions
      cases chunk
      dsimp only at constants functions info registers cacheSlots
      rw [constants, functions, info, registers, cacheSlots]

/-- A jump back to the first instruction, and one forward to the end. -/
example :
    ((script.after [.label, .label, .bind 0, .emit (.jumpIfFalse 0 1), .emit (.jump 0),
      .bind 1]).finish.toOption.map fun chunk => chunk.code.toList.map (·.instruction)) =
      some [.jumpIfFalse 0 2, .jump 0] := by
  decide +kernel

end ChunkBuilder

end ScriptVM

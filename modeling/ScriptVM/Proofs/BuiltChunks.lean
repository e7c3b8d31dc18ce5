import ScriptVM.Proofs.BuilderSessions

/-!
# Built chunks are accepted

A verification accepts what a builder finishes, as long as every operand that its user
writes was handed out by the builder. The checks are those of `ScriptVM.Proofs.Verification`,
read in the other direction.
-/

namespace ScriptVM

/-! ## Passing the checks -/

/-- The instruction may stand in a function of this kind. -/
def FunctionKind.admits (kind : FunctionKind) : Instruction -> Bool
  | .initialYield | .yield .. | .yieldStar .. => kind.isGenerator
  | .await .. => kind.isAsync
  | .superCall .. => kind == .derivedConstructor || kind.isArrow
  | _ => true

namespace Instruction

/-- The instruction reads or writes the captured variable. -/
def Reaches (instruction : Instruction) (index : Nat) : Prop :=
  (∃ destination, instruction = .getUpvalue destination index) ∨
    ∃ source, instruction = .setUpvalue index source

theorem block_nonempty (start count : Nat) : ∀ mentioned ∈ block start count, 0 < mentioned.2 := by
  intro mentioned member
  unfold block at member
  split at member
  · cases member
  · next filled =>
      cases List.mem_singleton.1 member
      exact Nat.pos_of_ne_zero (by simpa using filled)

theorem registers_nonempty (instruction : Instruction) :
    ∀ mentioned ∈ instruction.registers, 0 < mentioned.2 := by
  cases instruction with
  | createClass _ heritage =>
      cases heritage <;> simp [registers]
  | createArray _ start count | superCall _ start count =>
      exact List.forall_mem_cons.2 ⟨Nat.one_pos, block_nonempty start count⟩
  | call _ _ _ start count | tailCall _ _ start count | construct _ _ start count =>
      exact List.forall_mem_append.2 ⟨by simp, block_nonempty start count⟩
  | _ => simp [registers]

end Instruction

namespace Chunk

variable {chunk : Chunk} {instruction : Instruction} {yielded : Bool} {limit : Nat}

/-- The chunk has what the instruction refers to besides its jump targets. -/
structure Supports (chunk : Chunk) (instruction : Instruction) : Prop where
  resolves : ∀ referent, instruction.RefersTo referent -> chunk.Resolves referent
  captured : ∀ index, instruction.Reaches index -> index < chunk.info.captures.length
  admitted : chunk.info.kind.admits instruction

/-- The instruction may stand in the chunk. -/
structure Fits (chunk : Chunk) (instruction : Instruction) : Prop extends
    chunk.Supports instruction where
  targets : ∀ target ∈ instruction.targets, target <= chunk.code.size

theorem checkRegisters_of_resolves
    (resolves : ∀ referent, instruction.RefersTo referent -> chunk.Resolves referent) :
    chunk.checkRegisters instruction = .ok () := by
  unfold checkRegisters
  split
  · rfl
  · next highest found =>
      obtain ⟨block, member, rfl⟩ := List.mem_map.1 (List.max?_eq_some_iff.1 found).1
      have filled := instruction.registers_nonempty block member
      have within := Nat.add_lt_add_left (Nat.sub_lt filled Nat.one_pos) block.1
      have last : block.1 + (block.2 - 1) < chunk.registerCount :=
        resolves (.register _) ⟨block, member, Nat.le_add_right _ _, within⟩
      exact if_pos (Nat.lt_of_le_of_lt (Nat.min_le_left _ _) last)

theorem checkTargets_of_le (targets : ∀ target ∈ instruction.targets, target <= chunk.code.size) :
    chunk.checkTargets instruction = .ok () := by
  unfold checkTargets
  rw [List.find?_eq_none.2 fun target member => by simpa using targets target member]

theorem Fits.checkOperands
    (fits : chunk.Fits instruction)
    (fresh : instruction = .initialYield -> yielded = false) :
    chunk.checkOperands yielded instruction = .ok () := by
  cases instruction with
  | loadConst destination index =>
      exact if_pos (fits.resolves (.constant index) ⟨destination, rfl⟩)
  | getGlobal _ name | getGlobalOrUndefined _ name | setGlobal name | defineGlobal name
  | checkHole _ name | deleteNamed _ _ name | «throwError» _ name =>
      exact if_pos (fits.resolves (.name name) (List.mem_singleton_self name))
  | getNamed destination object name cache =>
      have named := fits.resolves (.name name) (List.mem_singleton_self name)
      have cached := fits.resolves (.cacheSlot cache) (.inl ⟨destination, object, name, rfl⟩)
      change (chunk.checkName name >>= fun _ => chunk.checkCache cache) = .ok ()
      rw [show chunk.checkName name = .ok () from if_pos named]
      exact if_pos cached
  | setNamed object name value cache =>
      have named := fits.resolves (.name name) (List.mem_singleton_self name)
      have cached := fits.resolves (.cacheSlot cache) (.inr ⟨object, name, value, rfl⟩)
      change (chunk.checkName name >>= fun _ => chunk.checkCache cache) = .ok ()
      rw [show chunk.checkName name = .ok () from if_pos named]
      exact if_pos cached
  | createClosure destination index =>
      exact if_pos (fits.resolves (.function index) ⟨destination, rfl⟩)
  | getUpvalue destination index => exact if_pos (fits.captured index (.inl ⟨destination, rfl⟩))
  | setUpvalue index source => exact if_pos (fits.captured index (.inr ⟨source, rfl⟩))
  | initialYield =>
      cases fresh rfl
      refine if_pos ?_
      rw [Bool.not_false, Bool.and_true]
      exact fits.admitted
  | yield | yieldStar | await | superCall => exact if_pos fits.admitted
  | _ => rfl

theorem Fits.check
    (fits : chunk.Fits instruction)
    (fresh : instruction = .initialYield -> yielded = false) :
    chunk.checkInstruction yielded instruction = .ok () := by
  unfold checkInstruction
  rw [checkRegisters_of_resolves fits.resolves, checkTargets_of_le fits.targets,
    fits.checkOperands fresh]
  rfl

/-- Code passes that holds at most one initial yield, if none came before it. -/
theorem checkCode_of_fits
    (code : List PlacedInstruction)
    (fits : ∀ placed ∈ code, chunk.Fits placed.instruction)
    {offset : Nat}
    (few : yielded.toNat + code.countP (·.instruction == .initialYield) <= 1) :
    chunk.checkCode offset yielded code =
      .ok (yielded || code.any (·.instruction == .initialYield)) := by
  induction code generalizing offset yielded with
  | nil =>
      unfold checkCode
      rw [List.any_nil, Bool.or_false]
  | cons placed code inductionHypothesis =>
      rw [List.countP_cons] at few
      have fresh : placed.instruction = .initialYield -> yielded = false := by
        intro initial
        cases yielded with
        | false => rfl
        | true =>
            rw [if_pos (beq_iff_eq.2 initial), Bool.toNat_true] at few
            omega
      have rest : (yielded || placed.instruction == .initialYield).toNat +
          code.countP (·.instruction == .initialYield) <= 1 := by
        cases initial : placed.instruction == .initialYield with
        | false =>
            rw [Bool.or_false]
            exact Nat.le_trans (Nat.add_le_add_left (Nat.le_add_right _ _) _) few
        | true =>
            rw [fresh (beq_iff_eq.1 initial), Bool.or_true, Bool.toNat_true, Nat.add_comm]
            rw [initial, if_pos rfl] at few
            omega
      unfold checkCode
      rw [(fits placed List.mem_cons_self).check fresh]
      dsimp only
      rw [inductionHypothesis (fun other member => fits other (List.mem_cons_of_mem _ member))
        rest, List.any_cons, Bool.or_assoc]

theorem verifyFunction_of_fits
    (limited : chunk.registerCount <= limit)
    (fits : ∀ placed ∈ chunk.code.toList, chunk.Fits placed.instruction)
    (few : chunk.code.toList.countP (·.instruction == .initialYield) <= 1)
    (entered : chunk.info.kind.isGenerator ->
      chunk.code.toList.any (·.instruction == .initialYield)) :
    chunk.verifyFunction limit = .ok () := by
  have checked : chunk.checkCode 0 false chunk.code.toList = .ok _ :=
    checkCode_of_fits chunk.code.toList fits (by simpa using few)
  unfold verifyFunction
  rw [checked, if_neg (Nat.not_lt_of_le limited)]
  change (if _ then _ else _) = _
  refine if_neg ?_
  cases generator : chunk.info.kind.isGenerator with
  | false => simp
  | true => simp [entered generator]

theorem verifyCaptures_of_provides
    {nested : String}
    (captures : List Capture)
    (provided : ∀ capture ∈ captures, chunk.provides capture)
    {index : Nat} :
    chunk.verifyCaptures nested index captures = .ok () := by
  induction captures generalizing index with
  | nil => rfl
  | cons capture captures inductionHypothesis =>
      unfold verifyCaptures
      rw [if_pos (provided capture List.mem_cons_self)]
      exact inductionHypothesis fun other member => provided other (List.mem_cons_of_mem _ member)

theorem verifyNested_of_verify
    (functions : List Chunk)
    (accepted : ∀ inner ∈ functions, inner.verify limit = .ok () ∧
      ∀ capture ∈ inner.info.captures, chunk.provides capture) :
    verifyNested limit chunk functions = .ok () := by
  induction functions with
  | nil => rfl
  | cons inner functions inductionHypothesis =>
      obtain ⟨verified, provided⟩ := accepted inner List.mem_cons_self
      unfold verifyNested
      rw [verifyCaptures_of_provides _ provided, verified]
      exact inductionHypothesis fun other member => accepted other (List.mem_cons_of_mem _ member)

theorem verify_of_parts
    (function : chunk.verifyFunction limit = .ok ())
    (nested : verifyNested limit chunk chunk.functions = .ok ()) :
    chunk.verify limit = .ok () := by
  cases chunk
  unfold verify
  dsimp only
  rw [function]
  exact nested

end Chunk

/-! ## Resolving labels -/

/-- A computation that succeeds does so step by step. -/
theorem steps_of_bind
    {ε α β : Type}
    {first : Except ε α}
    {rest : α -> Except ε β}
    {answer : β}
    (succeeded : (first >>= rest) = .ok answer) :
    ∃ middle, first = .ok middle ∧ rest middle = .ok answer := by
  cases first with
  | error _ => cases succeeded
  | ok middle => exact ⟨middle, rfl, succeeded⟩

namespace Instruction

/-- One instruction is the other with its jump targets replaced. Those that have targets
refer to registers only. -/
structure Retargets
    {ε : Type}
    (resolve : Nat -> Except ε Nat)
    (instruction resolved : Instruction) : Prop where
  registers : resolved.registers = instruction.registers
  targets : ∀ target ∈ resolved.targets, ∃ label, resolve label = .ok target
  same : resolved = instruction ∨ (instruction.targets ≠ [] ∧ resolved.targets ≠ [])

theorem optional_of_map
    {ε : Type}
    {resolve : Nat -> Except ε Nat}
    {label target : Option Nat}
    (mapped : label.mapM resolve = .ok target) :
    (label = none ∧ target = none) ∨
      ∃ place offset, label = some place ∧ target = some offset ∧
        resolve place = .ok offset := by
  cases label with
  | none =>
      cases mapped
      exact .inl ⟨rfl, rfl⟩
  | some place =>
      rw [Option.mapM_some, map_eq_pure_bind] at mapped
      obtain ⟨offset, found, same⟩ := steps_of_bind mapped
      cases same
      exact .inr ⟨place, offset, rfl, rfl, found⟩

theorem retargets_of_map
    {ε : Type}
    {resolve : Nat -> Except ε Nat}
    {instruction resolved : Instruction}
    (mapped : instruction.mapTargetsM resolve = .ok resolved) :
    instruction.Retargets resolve resolved := by
  cases instruction with
  | jump label | gotoFinally label | leave label | jumpIfTrue _ label | jumpIfFalse _ label
  | jumpIfNullish _ label | jumpIfUndefined _ label | jumpIfNotUndefined _ label
  | jumpIfDone _ label =>
      obtain ⟨offset, found, same⟩ := steps_of_bind mapped
      cases same
      refine ⟨rfl, fun target member => ?_, .inr ⟨List.cons_ne_nil _ _, List.cons_ne_nil _ _⟩⟩
      cases List.mem_singleton.1 member
      exact ⟨label, found⟩
  | enterTry catchLabel finallyLabel =>
      obtain ⟨caught, foundCatch, later⟩ := steps_of_bind mapped
      obtain ⟨final, foundFinally, same⟩ := steps_of_bind later
      cases same
      rcases optional_of_map foundCatch with ⟨rfl, rfl⟩ | ⟨place, offset, rfl, rfl, caught⟩ <;>
        rcases optional_of_map foundFinally with ⟨rfl, rfl⟩ | ⟨second, end_, rfl, rfl, passed⟩
      · exact ⟨rfl, fun target member => absurd member List.not_mem_nil, .inl rfl⟩
      · refine ⟨rfl, fun target member => ?_, .inr ⟨List.cons_ne_nil _ _, List.cons_ne_nil _ _⟩⟩
        cases List.mem_singleton.1 member
        exact ⟨second, passed⟩
      · refine ⟨rfl, fun target member => ?_, .inr ⟨List.cons_ne_nil _ _, List.cons_ne_nil _ _⟩⟩
        cases List.mem_singleton.1 member
        exact ⟨place, caught⟩
      · refine ⟨rfl, fun target member => ?_, .inr ⟨List.cons_ne_nil _ _, List.cons_ne_nil _ _⟩⟩
        rcases List.mem_cons.1 member with rfl | member
        · exact ⟨place, caught⟩
        · cases List.mem_singleton.1 member
          exact ⟨second, passed⟩
  | _ =>
      cases mapped
      exact ⟨rfl, fun target member => absurd member List.not_mem_nil, .inl rfl⟩

variable {ε : Type} {resolve : Nat -> Except ε Nat} {instruction resolved : Instruction}

theorem refers_of_targets
    (aims : instruction.targets ≠ [])
    {referent : Referent}
    (refers : instruction.RefersTo referent) :
    ∃ register, referent = .register register := by
  cases referent with
  | register register => exact ⟨register, rfl⟩
  | constant | function =>
      obtain ⟨destination, rfl⟩ := refers
      exact absurd rfl aims
  | cacheSlot =>
      obtain ⟨destination, object, name, rfl⟩ | ⟨object, name, value, rfl⟩ := refers <;>
        exact absurd rfl aims
  | name =>
      have named : instruction.names ≠ [] := List.ne_nil_of_mem refers
      cases instruction <;> first | exact absurd rfl aims | exact absurd rfl named

namespace Retargets

section

variable (retargets : instruction.Retargets resolve resolved)
include retargets

theorem refers
    {referent : Referent}
    (refers : resolved.RefersTo referent) :
    instruction.RefersTo referent := by
  rcases retargets.same with rfl | ⟨_, aims⟩
  · exact refers
  · obtain ⟨register, rfl⟩ := refers_of_targets aims refers
    obtain ⟨block, member, within⟩ := refers
    exact ⟨block, retargets.registers ▸ member, within⟩

theorem reaches
    {index : Nat}
    (reaches : resolved.Reaches index) :
    instruction.Reaches index := by
  rcases retargets.same with rfl | ⟨_, aims⟩
  · exact reaches
  · obtain ⟨destination, rfl⟩ | ⟨source, rfl⟩ := reaches <;> exact absurd rfl aims

theorem admits
    {kind : FunctionKind}
    (admitted : kind.admits instruction) :
    kind.admits resolved := by
  rcases retargets.same with rfl | ⟨_, aims⟩
  · exact admitted
  · cases resolved with
    | initialYield | yield | yieldStar | await | superCall => exact absurd rfl aims
    | _ => rfl

end

theorem initialYield (retargets : instruction.Retargets resolve resolved) :
    (resolved == .initialYield) = (instruction == .initialYield) := by
  rcases retargets.same with rfl | ⟨labels, aims⟩
  · rfl
  · have left : resolved ≠ .initialYield := fun same => aims (by rw [same]; rfl)
    have right : instruction ≠ .initialYield := fun same => labels (by rw [same]; rfl)
    rw [beq_false_of_ne left, beq_false_of_ne right]

end Retargets

end Instruction

namespace ChunkBuilder

variable {builder : ChunkBuilder}

/-- No label is bound to an offset beyond the end. -/
def Anchored (builder : ChunkBuilder) : Prop :=
  ∀ label offset : Nat, builder.labels[label]? = some (some offset) ->
    offset <= builder.chunk.code.size

theorem Anchored.perform (anchored : builder.Anchored) (call : BuilderCall) :
    (builder.perform call).2.Anchored := by
  have kept {later : ChunkBuilder} (alters : builder.Alters call later) : later.Anchored := by
    intro label offset bound
    rw [alters.code]
    rcases alters.labels label offset bound with before | same
    · exact anchored label offset before
    · exact Nat.le_of_eq same
  rcases builder.perform_cases call with alters | ⟨prepared, instruction, alters, _, same⟩
  · exact kept alters
  · rw [same]
    intro label offset bound
    change offset <= (prepared.chunk.code.push _).size
    rw [Array.size_push]
    exact Nat.le_succ_of_le (kept alters label offset bound)

theorem anchored_after (name : String) (kind : FunctionKind) (calls : List BuilderCall) :
    ((start name kind).after calls).Anchored :=
  holds_after Anchored (fun label offset bound => by simp [start] at bound)
    fun _ call _ anchored => anchored.perform call

theorem target_le_of_resolve
    (anchored : builder.Anchored)
    {label offset : Nat}
    (resolved : builder.resolve label = .ok offset) :
    offset <= builder.chunk.code.size := by
  unfold resolve at resolved
  split at resolved
  · next bound =>
      cases resolved
      exact anchored label _ (Option.join_eq_some_iff.1 bound)
  · cases resolved

theorem retargets_of_resolveTargets
    {placed resolved : PlacedInstruction}
    (succeeded : builder.resolveTargets placed = .ok resolved) :
    placed.instruction.Retargets builder.resolve resolved.instruction := by
  obtain ⟨instruction, mapped, same⟩ := steps_of_bind succeeded
  cases same
  exact Instruction.retargets_of_map mapped

theorem retargets_of_mapM
    (code : List PlacedInstruction)
    {resolved : List PlacedInstruction}
    (mapped : code.mapM builder.resolveTargets = .ok resolved) :
    List.Forall₂ (fun placed resolved : PlacedInstruction =>
      placed.instruction.Retargets builder.resolve resolved.instruction) code resolved := by
  induction code generalizing resolved with
  | nil =>
      rw [List.mapM_nil] at mapped
      cases mapped
      exact .nil
  | cons placed code inductionHypothesis =>
      rw [List.mapM_cons] at mapped
      obtain ⟨first, succeeded, later⟩ := steps_of_bind mapped
      obtain ⟨others, mappedOthers, same⟩ := steps_of_bind later
      cases same
      exact .cons (retargets_of_resolveTargets succeeded) (inductionHypothesis mappedOthers)

theorem finish_cases {chunk : Chunk} (finished : builder.finish = .ok chunk) :
    ∃ code, chunk = { builder.chunk with code := code.toArray } ∧
      List.Forall₂ (fun placed resolved : PlacedInstruction =>
        placed.instruction.Retargets builder.resolve resolved.instruction)
        builder.chunk.code.toList code := by
  unfold finish at finished
  split at finished
  · cases finished
  · obtain ⟨code, mapped, same⟩ := steps_of_bind finished
    cases same
    exact ⟨code, rfl, retargets_of_mapM _ mapped⟩

end ChunkBuilder

/-! ## Sessions -/

/-- The call appends an initial yield. -/
def BuilderCall.enters : BuilderCall -> Bool
  | .emit instruction => instruction == .initialYield
  | _ => false

/-- The chunk has what the caller of a builder writes into instructions. -/
structure Chunk.Grants (chunk : Chunk) (call : BuilderCall) : Prop where
  resolves : ∀ referent, call.RefersTo referent -> chunk.Resolves referent
  captured : ∀ instruction, call = .emit instruction ->
    ∀ index, instruction.Reaches index -> index < chunk.info.captures.length
  admitted : ∀ instruction, call = .emit instruction -> chunk.info.kind.admits instruction

namespace ChunkBuilder

variable {builder : ChunkBuilder} {call : BuilderCall} {calls : List BuilderCall} {limit : Nat}

theorem Composes.plain
    {operands : List Register}
    {instruction : Instruction}
    (composes : builder.Composes operands instruction) :
    (∀ index, ¬instruction.Reaches index) ∧ (∀ kind, FunctionKind.admits kind instruction) ∧
      instruction ≠ .initialYield := by
  refine ⟨fun index reaches => ?_, fun kind => ?_, fun same => ?_⟩
  · obtain ⟨destination, rfl⟩ | ⟨source, rfl⟩ := reaches <;> cases composes
  · cases composes <;> rfl
  · subst same
    cases composes

/-- Whatever instruction a granted call appends, the chunk has what it needs. -/
theorem supports_of_grants
    {final : Chunk}
    {instruction : Instruction}
    (grants : final.Grants call)
    (grows : builder.chunk.Extends final)
    (keeps : builder.chunk.Keeps final)
    (written : call = .emit instruction ∨ builder.Composes call.operands instruction) :
    final.Supports instruction := by
  rcases written with rfl | composes
  · exact ⟨fun referent refers => grants.resolves referent (.inl ⟨instruction, rfl, refers⟩),
      grants.captured instruction rfl, grants.admitted instruction rfl⟩
  · obtain ⟨unreached, admitted, _⟩ := composes.plain
    refine ⟨fun referent refers => ?_, fun index reaches => absurd reaches (unreached index),
      admitted _⟩
    rcases composes.resolves refers with given | there
    · exact grants.resolves referent (.inr given)
    · exact grows.resolves keeps there

theorem supports_after
    {final : Chunk}
    (grants : ∀ call ∈ calls, final.Grants call)
    (counts : builder.CountsThrough calls)
    (grows : (builder.after calls).chunk.Extends final)
    (keeps : (builder.after calls).chunk.Keeps final)
    (supports : ∀ placed ∈ builder.chunk.code.toList, final.Supports placed.instruction) :
    ∀ placed ∈ (builder.after calls).chunk.code.toList,
      final.Supports placed.instruction := by
  induction calls generalizing builder with
  | nil => exact supports
  | cons call calls inductionHypothesis =>
      obtain ⟨first, rest⟩ := List.forall_mem_cons.1 counts
      refine inductionHypothesis (fun other member => grants other (.tail _ member)) rest grows
        keeps ?_
      change ∀ placed ∈ (builder.perform call).2.chunk.code.toList, _
      rcases builder.perform_cases call with alters | ⟨prepared, instruction, alters, written, same⟩
      · rw [alters.code]
        exact supports
      · have appended : prepared.chunk.Extends (builder.perform call).2.chunk := by
          rw [same]
          exact { Chunk.Extends.refl prepared.chunk with }
        have standing : prepared.chunk.Keeps (builder.perform call).2.chunk := by
          rw [same]
          exact { Chunk.Keeps.refl prepared.chunk with }
        have later := (appended.trans (after_extends _ calls)).trans grows
        have last := (standing.trans (keeps_after rest)).trans keeps
        intro placed member
        rw [same] at member
        change placed ∈ (prepared.chunk.code.push _).toList at member
        rw [Array.toList_push, alters.code] at member
        rcases List.mem_append.1 member with before | added
        · exact supports placed before
        · cases List.mem_singleton.1 added
          exact supports_of_grants (grants call List.mem_cons_self) later last
            (written.imp_right fun composes => composes first)

theorem emit_initialYields (builder : ChunkBuilder) (instruction : Instruction) :
    (builder.emit instruction).2.chunk.code.toList.countP (·.instruction == .initialYield) =
      builder.chunk.code.toList.countP (·.instruction == .initialYield) +
        (instruction == .initialYield).toNat := by
  change (builder.chunk.code.push _).toList.countP _ = _
  rw [Array.toList_push, List.countP_append, List.countP_singleton]
  dsimp only
  cases instruction == .initialYield <;> rfl

theorem perform_initialYields (counts : builder.Counts call) :
    (builder.perform call).2.chunk.code.toList.countP (·.instruction == .initialYield) =
      builder.chunk.code.toList.countP (·.instruction == .initialYield) + call.enters.toNat := by
  by_cases emits : ∃ instruction, call = .emit instruction
  · obtain ⟨instruction, rfl⟩ := emits
    exact builder.emit_initialYields instruction
  · have quiet : call.enters = false := by
      cases call with
      | emit instruction => exact absurd ⟨instruction, rfl⟩ emits
      | _ => rfl
    rw [quiet]
    rcases builder.perform_cases call with alters | ⟨prepared, instruction, alters, written, same⟩
    · rw [alters.code]
      rfl
    · obtain written | composes := written
      · exact absurd ⟨instruction, written⟩ emits
      · rw [same, emit_initialYields, alters.code, beq_false_of_ne (composes counts).plain.2.2]

theorem after_initialYields (counts : builder.CountsThrough calls) :
    (builder.after calls).chunk.code.toList.countP (·.instruction == .initialYield) =
      builder.chunk.code.toList.countP (·.instruction == .initialYield) +
        calls.countP BuilderCall.enters := by
  induction calls generalizing builder with
  | nil => rfl
  | cons call calls inductionHypothesis =>
      obtain ⟨first, rest⟩ := List.forall_mem_cons.1 counts
      change ((builder.perform call).2.after calls).chunk.code.toList.countP _ = _
      rw [inductionHypothesis rest, perform_initialYields first, List.countP_cons, Nat.add_assoc]
      cases call.enters
      · exact congrArg _ (Nat.zero_add _)
      · exact congrArg _ (Nat.add_comm _ _)

theorem functions_after (builder : ChunkBuilder) (calls : List BuilderCall) :
    ∀ inner ∈ (builder.after calls).chunk.functions,
      inner ∈ builder.chunk.functions ∨ .function inner ∈ calls := by
  refine holds_after (fun later => ∀ inner ∈ later.chunk.functions,
    inner ∈ builder.chunk.functions ∨ BuilderCall.function inner ∈ calls) (fun _ => .inl) ?_
  intro later call called known
  have kept {altered : ChunkBuilder} (alters : later.Alters call altered) :
      ∀ inner ∈ altered.chunk.functions,
        inner ∈ builder.chunk.functions ∨ BuilderCall.function inner ∈ calls := by
    intro inner member
    rcases alters.functions inner member with before | same
    · exact known inner before
    · exact .inr (same ▸ called)
  rcases later.perform_cases call with alters | ⟨prepared, _, alters, _, same⟩
  · exact kept alters
  · rw [same]
    intro inner member
    exact kept alters inner member

/-- Everything that the caller writes into a chunk is the builder's own. A register is one
that was handed out; a nested function captures what the chunk has in the end. -/
structure Sourced (builder : ChunkBuilder) (calls : List BuilderCall) (limit : Nat) :
    Prop where
  referents : ∀ call ∈ calls, ∀ referent, call.RefersTo referent ->
    ∃ step ∈ builder.steps calls, step.Supplies referent
  captured : ∀ instruction, .emit instruction ∈ calls ->
    ∀ index, instruction.Reaches index -> ∃ step ∈ builder.steps calls, step.Captures index
  admitted : ∀ instruction, .emit instruction ∈ calls ->
    builder.chunk.info.kind.admits instruction
  entered : builder.chunk.info.kind.isGenerator -> calls.countP BuilderCall.enters = 1
  nested : ∀ inner, .function inner ∈ calls -> inner.verify limit = .ok () ∧
    ∀ capture ∈ inner.info.captures, (builder.after calls).chunk.provides capture

theorem Sourced.grants
    (sourced : builder.Sourced calls limit)
    (reserves : builder.Reserves)
    (counts : builder.CountsThrough calls) :
    ∀ call ∈ calls, (builder.after calls).chunk.Grants call := by
  intro call called
  refine ⟨fun referent refers => ?_, ?_, ?_⟩
  · obtain ⟨step, member, supplies⟩ := sourced.referents call called referent refers
    exact supplied_resolves reserves counts member supplies
  · rintro instruction rfl index reaches
    obtain ⟨step, member, captures⟩ := sourced.captured instruction called index reaches
    exact captured_exists member captures
  · rintro instruction rfl
    rw [(builder.after_extends calls).kind]
    exact sourced.admitted instruction called

/-- Outside of generators nothing is entered by an initial yield. -/
theorem Sourced.enters_le (sourced : builder.Sourced calls limit) :
    calls.countP BuilderCall.enters <= 1 := by
  cases generator : builder.chunk.info.kind.isGenerator with
  | true => exact Nat.le_of_eq (sourced.entered generator)
  | false =>
      refine Nat.le_trans (Nat.le_of_eq (List.countP_eq_zero.2 fun call called enters => ?_))
        (Nat.zero_le 1)
      cases call with
      | emit instruction =>
          cases beq_iff_eq.1 enters
          have admitted := sourced.admitted .initialYield called
          rw [FunctionKind.admits, generator] at admitted
          cases admitted
      | _ => cases enters

section Resolved

variable
    {resolve : Nat -> Except BuildError Nat}
    {code resolved : List PlacedInstruction}
    (retargets : List.Forall₂ (fun placed resolved : PlacedInstruction =>
      placed.instruction.Retargets resolve resolved.instruction) code resolved)

include retargets

theorem initialYields_of_retargets :
    resolved.countP (·.instruction == .initialYield) =
      code.countP (·.instruction == .initialYield) := by
  induction retargets with
  | nil => rfl
  | cons first _ inductionHypothesis =>
      rw [List.countP_cons, List.countP_cons, inductionHypothesis, first.initialYield]

theorem origin_of_retargets {later : PlacedInstruction} (member : later ∈ resolved) :
    ∃ placed ∈ code, placed.instruction.Retargets resolve later.instruction := by
  induction retargets with
  | nil => cases member
  | cons first _ inductionHypothesis =>
      cases member with
      | head => exact ⟨_, List.mem_cons_self, first⟩
      | tail _ member =>
          obtain ⟨placed, listed, origin⟩ := inductionHypothesis member
          exact ⟨placed, List.mem_cons_of_mem _ listed, origin⟩

end Resolved

/-- What a builder finishes is accepted, if everything in it is the builder's own. -/
theorem Sourced.verify
    {name : String}
    {kind : FunctionKind}
    {chunk : Chunk}
    (sourced : (start name kind).Sourced calls limit)
    (counts : (start name kind).CountsThrough calls)
    (finished : ((start name kind).after calls).finish = .ok chunk)
    (limited : chunk.registerCount <= limit) :
    chunk.verify limit = .ok () := by
  obtain ⟨code, rfl, retargets⟩ := finish_cases finished
  have reserves := start_reserves name kind
  have supports := supports_after (sourced.grants reserves counts) counts (.refl _) (.refl _)
    (fun placed member => absurd member List.not_mem_nil)
  have same := initialYields_of_retargets retargets
  rw [after_initialYields counts] at same
  change code.countP _ = 0 + _ at same
  rw [Nat.zero_add] at same
  refine Chunk.verify_of_parts (Chunk.verifyFunction_of_fits limited (fun later member => ?_) ?_ ?_)
    (Chunk.verifyNested_of_verify _ fun inner member => ?_)
  · obtain ⟨placed, listed, origin⟩ := origin_of_retargets retargets member
    obtain ⟨resolves, captured, admitted⟩ := supports placed listed
    refine ⟨⟨fun referent refers => ?_, fun index reaches => ?_, origin.admits admitted⟩,
      fun target aimed => ?_⟩
    · have grows : Chunk.Extends ((start name kind).after calls).chunk
          { ((start name kind).after calls).chunk with code := code.toArray } :=
        { Chunk.Extends.refl ((start name kind).after calls).chunk with }
      exact grows.resolves { Chunk.Keeps.refl _ with } (resolves referent (origin.refers refers))
    · exact captured index (origin.reaches reaches)
    · obtain ⟨label, resolved⟩ := origin.targets target aimed
      have below := target_le_of_resolve (anchored_after name kind calls) resolved
      rw [← Array.length_toList, retargets.length_eq] at below
      exact below
  · rw [same]
    exact sourced.enters_le
  · intro generator
    change (((start name kind).after calls).chunk.info.kind.isGenerator : Prop) at generator
    rw [((start name kind).after_extends calls).kind] at generator
    rw [sourced.entered generator] at same
    have some : 0 < code.countP (·.instruction == .initialYield) := by
      rw [same]
      exact Nat.one_pos
    exact List.any_eq_true.2 (List.countP_pos_iff.1 some)
  · obtain initially | called := functions_after (start name kind) calls inner member
    · cases initially
    · exact sourced.nested inner called

/-- What a session finishes is accepted, if its operands are the builder's own. No two
allocations of registers overlap, nor do they meet the registers of parameters. Both hold as long
as no count of registers or cache slots wraps around. A string has one index, which is that of the
string in the finished chunk. -/
theorem finished_sessions_accepted
    (name : String)
    (kind : FunctionKind)
    (calls : List BuilderCall)
    (declares : DeclaresFirst calls) :
    ((start name kind).CountsThrough calls ->
      (∀ limit chunk, (start name kind).Sourced calls limit ->
        ((start name kind).after calls).finish = .ok chunk ->
        chunk.registerCount <= limit -> chunk.verify limit = .ok ()) ∧
      ((start name kind).steps calls).Pairwise BuilderStep.Apart ∧
      ∀ step ∈ (start name kind).steps calls, step.call.allocates ->
        ∀ register, step.HandsOut register ->
          ((start name kind).after calls).chunk.info.parameterRegisters <= register) ∧
    (∀ first ∈ (start name kind).steps calls, ∀ second ∈ (start name kind).steps calls,
      ∀ text other, first.call = .string text -> second.call = .string other ->
        (first.answer = second.answer ↔ text = other)) ∧
    ∀ chunk, ((start name kind).after calls).finish = .ok chunk ->
      ∀ step ∈ (start name kind).steps calls, ∀ text, step.call = .string text ->
        ∃ index, step.answer = some index ∧ chunk.string? index = some text := by
  have reserves := start_reserves name kind
  refine ⟨fun counts =>
      ⟨fun limit chunk sourced finished limited => sourced.verify counts finished limited,
        declares.apart reserves counts, fun step member allocated register =>
          declares.above_parameters reserves counts member allocated⟩,
    fun first listed second member text other asked askedOther => ?_,
    fun chunk finished step member text asked => ?_⟩
  · obtain ⟨index, answered, interns⟩ := string_answer_interns listed asked
    obtain ⟨place, answeredOther, internsOther⟩ := string_answer_interns member askedOther
    rw [answered, answeredOther, Option.some.injEq]
    exact interns.index_eq_iff internsOther
  · obtain ⟨index, answered, interns⟩ := string_answer_interns member asked
    obtain ⟨code, rfl, _⟩ := finish_cases finished
    exact ⟨index, answered, interns.string?⟩

/-- A generator that yields a property of its parameter for ever. -/
def loopingSession : List BuilderCall :=
  [.withParameters 1, .parameter 0, .register, .string "next", .cacheSlot, .label,
    .emit .initialYield, .bind 0, .emit (.getNamed 1 0 0 0), .emit (.yield 1 1),
    .emit (.jump 0)]

theorem loopingSession_sourced :
    (start "g" .generator).Sourced loopingSession 2 := by
  have emitted {instruction : Instruction} (called : .emit instruction ∈ loopingSession) :
      instruction = .initialYield ∨ instruction = .getNamed 1 0 0 0 ∨
        instruction = .yield 1 1 ∨ instruction = .jump 0 := by
    simpa [loopingSession] using called
  refine ⟨fun call called referent refers => ?_, fun instruction called index reaches => ?_,
    fun instruction called => ?_, fun _ => rfl, fun inner called => ?_⟩
  · rcases refers with ⟨instruction, rfl, refers⟩ | ⟨register, given, _⟩
    · have parameter : ∃ step ∈ (start "g" .generator).steps loopingSession,
          step.Supplies (.register 0) := ⟨_, List.mem_of_getElem? (i := 1) rfl, rfl, Nat.one_pos⟩
      have allocated : ∃ step ∈ (start "g" .generator).steps loopingSession,
          step.Supplies (.register 1) := ⟨_, List.mem_of_getElem? (i := 2) rfl, rfl⟩
      have named : ∃ step ∈ (start "g" .generator).steps loopingSession,
          step.Supplies (.name 0) := ⟨_, List.mem_of_getElem? (i := 3) rfl, by decide +kernel, _, rfl⟩
      have cached : ∃ step ∈ (start "g" .generator).steps loopingSession,
          step.Supplies (.cacheSlot 0) := ⟨_, List.mem_of_getElem? (i := 4) rfl, by decide +kernel, rfl⟩
      rcases emitted called with rfl | rfl | rfl | rfl
      · cases referent <;>
          simp [Instruction.RefersTo, Instruction.registers, Instruction.names] at refers
      · cases referent with
        | register register =>
            have within : 1 <= register ∧ register < 2 ∨ register = 0 := by
              simpa [Instruction.RefersTo, Instruction.registers] using refers
            rcases within with ⟨above, below⟩ | rfl
            · cases Nat.le_antisymm (Nat.le_of_lt_succ below) above
              exact allocated
            · exact parameter
        | name index =>
            cases List.mem_singleton.1 refers
            exact named
        | cacheSlot slot =>
            obtain ⟨_, _, _, same⟩ | ⟨_, _, _, same⟩ := refers <;> cases same
            exact cached
        | constant | function =>
            obtain ⟨_, same⟩ := refers
            cases same
      · cases referent with
        | register register =>
            have within : 1 <= register ∧ register < 2 := by
              simpa [Instruction.RefersTo, Instruction.registers] using refers
            cases Nat.le_antisymm (Nat.le_of_lt_succ within.2) within.1
            exact allocated
        | _ => simp [Instruction.RefersTo, Instruction.names] at refers
      · cases referent <;>
          simp [Instruction.RefersTo, Instruction.registers, Instruction.names] at refers
    · simp only [loopingSession, List.mem_cons, List.not_mem_nil, or_false] at called
      rcases called with rfl | rfl | rfl | rfl | rfl | rfl | rfl | rfl | rfl | rfl | rfl <;>
        cases given
  · obtain ⟨destination, rfl⟩ | ⟨source, rfl⟩ := reaches <;>
      exact absurd (emitted called) (by simp)
  · rcases emitted called with rfl | rfl | rfl | rfl <;> rfl
  · simp [loopingSession] at called

theorem loopingSession_counts :
    (start "g" .generator).CountsThrough loopingSession := by
  simp only [CountsThrough, loopingSession, steps, List.forall_mem_cons]
  have declared : 1 < countBound := by decide
  have allocated : 2 < countBound := by decide
  have cached (builder : ChunkBuilder) (fresh : builder.chunk.cacheSlots = 0) :
      (builder.string "next").2.chunk.cacheSlots + 1 < countBound := by
    rw [cacheSlots_string, fresh]
    exact declared
  exact ⟨declared, trivial, allocated, trivial, cached _ rfl, trivial, trivial, trivial, trivial,
    trivial, trivial, nofun⟩

theorem loopingSession_accepted :
    DeclaresFirst loopingSession ∧ (start "g" .generator).CountsThrough loopingSession ∧
      ∃ chunk, ((start "g" .generator).after loopingSession).finish = .ok chunk ∧
        chunk.verify 2 = .ok () := by
  have declares : DeclaresFirst loopingSession := by
    unfold DeclaresFirst loopingSession
    decide
  have built : (((start "g" .generator).after loopingSession).finish.toOption.any fun chunk =>
      decide (chunk.registerCount <= 2)) = true := by
    decide +kernel
  cases finished : ((start "g" .generator).after loopingSession).finish with
  | error failure =>
      rw [finished] at built
      cases built
  | ok chunk =>
      rw [finished] at built
      exact ⟨declares, loopingSession_counts, chunk, rfl,
        ((finished_sessions_accepted "g" .generator loopingSession declares).1
          loopingSession_counts).1 2 chunk loopingSession_sourced finished
          (of_decide_eq_true built)⟩

/-- Without a rest parameter its register may be anyone's, or no one's. And once the count of
registers has wrapped around, registers are handed out that others have. -/
theorem undeclared_rest_and_wrapped_count :
    ((start "f" .normal).perform .rest).1 = some 0 ∧
      ((start "f" .normal).perform .register).1 = some 0 ∧
      (∃ chunk, ((start "f" .normal).after [.rest, .emit (.return 0)]).finish = .ok chunk ∧
        chunk.registerCount = 0 ∧
        chunk.verify Chunk.defaultMaxRegisters = .error
          { function := "f", offset := some 0, defect := .registerOutOfRange 0 0 }) ∧
      ((start "f" .normal).perform (.registers 4294967295)).1 = some 0 ∧
      (((start "f" .normal).after [.registers 4294967295, .registers 2]).perform .register).1 =
        some 1 :=
  ⟨rfl, rfl, ⟨_, rfl, rfl, rfl⟩, rfl, rfl⟩

end ChunkBuilder

end ScriptVM

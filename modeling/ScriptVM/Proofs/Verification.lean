import ScriptVM.Bytecode.Verifier
import ScriptVM.Proofs.Transition

/-!
# Accepted chunks

What it means for the code of a chunk that a verification accepts it: every operand of
every instruction refers to something that the chunk has, every jump target is an offset
of the chunk or its end, and the same holds of all functions nested in it.
-/

namespace ScriptVM

/-! ## Instructions -/

namespace Instruction

/-- The instruction suspends a generator. -/
def yields : Instruction -> Bool
  | .initialYield | .yield .. | .yieldStar .. => true
  | _ => false

/-- The instruction suspends an async function. -/
def awaits : Instruction -> Bool
  | .await .. => true
  | _ => false

end Instruction

namespace Chunk

variable {chunk : Chunk} {instruction : Instruction} {ε : Type} {block : Nat × Nat} {register : Nat}
variable {yielded : Bool}

/-- The chunk has what an operand refers to. -/
def Resolves
    (chunk : Chunk) : Referent -> Prop
  | .register register => register < chunk.registerCount
  | .constant index => index < chunk.constants.size
  | .name index => (chunk.string? index).isSome
  | .function index => index < chunk.functions.length
  | .cacheSlot slot => slot < chunk.cacheSlots

/-- Checks that come one after the other all succeed. -/
theorem checks_bind
    {first : Except ε Unit}
    {rest : Unit -> Except ε Unit}
    (accepted : (first >>= rest) = .ok ()) :
    first = .ok () ∧ rest () = .ok () := by
  cases first with
  | error defect => cases accepted
  | ok answer => exact ⟨rfl, accepted⟩

theorem guard_of_ok
    {condition : Prop}
    [Decidable condition]
    {defect : ε}
    (accepted : (if condition then .ok () else .error defect) = Except.ok ()) :
    condition := by
  split at accepted
  · next holds => exact holds
  · cases accepted

/-- The registers of a block lie below its last one. -/
theorem register_le_lastRegister
    (bounded : block.1 + (block.2 - 1) <= maxRegister)
    (within : register < block.1 + block.2) :
    register <= lastRegister block := by
  unfold lastRegister
  rw [Nat.min_eq_left bounded]
  omega

theorem registers_of_check
    (limited : chunk.registerCount <= maxRegister)
    (accepted : chunk.checkRegisters instruction = .ok ())
    (member : block ∈ instruction.registers)
    (within : register < block.1 + block.2) :
    register < chunk.registerCount := by
  have listed : lastRegister block ∈ instruction.registers.map lastRegister :=
    List.mem_map_of_mem member
  unfold checkRegisters at accepted
  split at accepted
  · next missing =>
      unfold highestRegister? at missing
      rw [List.max?_eq_none_iff.1 missing] at listed
      cases listed
  · next highest found =>
      have below : highest < chunk.registerCount := guard_of_ok accepted
      have last : lastRegister block <= highest :=
        (List.max?_eq_some_iff.1 found).2 _ listed
      -- The number of the last register was not cut off, since it is below the count.
      have bounded : block.1 + (block.2 - 1) <= maxRegister := by
        unfold lastRegister at last
        omega
      exact Nat.lt_of_le_of_lt (Nat.le_trans (register_le_lastRegister bounded within) last) below

theorem targets_of_check
    (accepted : chunk.checkTargets instruction = .ok ())
    {target : Nat}
    (member : target ∈ instruction.targets) :
    target <= chunk.code.size := by
  unfold checkTargets at accepted
  split at accepted
  · next none =>
      have fits := List.find?_eq_none.1 none target member
      simpa using fits
  · cases accepted

theorem names_of_check
    (accepted : chunk.checkOperands yielded instruction = .ok ())
    {name : Nat}
    (member : name ∈ instruction.names) :
    (chunk.string? name).isSome := by
  cases instruction with
  | getNamed destination object index cache =>
      cases List.mem_singleton.1 member
      exact guard_of_ok (checks_bind accepted).1
  | setNamed object index value cache =>
      cases List.mem_singleton.1 member
      exact guard_of_ok (checks_bind accepted).1
  | getGlobal | getGlobalOrUndefined | setGlobal | defineGlobal | checkHole | deleteNamed
  | «throwError» =>
      cases List.mem_singleton.1 member
      exact guard_of_ok accepted
  | _ => cases member

/-- The chunk has whatever the operands of a checked instruction refer to. -/
theorem resolves_of_check
    (limited : chunk.registerCount <= maxRegister)
    (accepted : chunk.checkInstruction yielded instruction = .ok ())
    {referent : Referent}
    (refers : instruction.RefersTo referent) :
    chunk.Resolves referent := by
  have registers := (checks_bind accepted).1
  have operands := (checks_bind (checks_bind accepted).2).2
  cases referent with
  | register register =>
      obtain ⟨block, member, _, within⟩ := refers
      exact registers_of_check limited registers member within
  | constant index =>
      obtain ⟨destination, rfl⟩ := refers
      unfold Resolves
      exact guard_of_ok operands
  | name index => exact names_of_check operands refers
  | function index =>
      obtain ⟨destination, rfl⟩ := refers
      unfold Resolves
      exact guard_of_ok operands
  | cacheSlot slot =>
      unfold Resolves
      obtain ⟨destination, object, name, rfl⟩ | ⟨object, name, value, rfl⟩ := refers <;>
        exact guard_of_ok (checks_bind operands).2

/-! ## Functions -/

theorem checkCode_instruction
    (code : List PlacedInstruction)
    {offset : Nat}
    {yielded answer : Bool}
    (accepted : chunk.checkCode offset yielded code = .ok answer)
    {placed : PlacedInstruction}
    (member : placed ∈ code) :
    ∃ yielded, chunk.checkInstruction yielded placed.instruction = .ok () := by
  induction code generalizing offset yielded with
  | nil => cases member
  | cons head rest step =>
      unfold checkCode at accepted
      split at accepted
      · cases accepted
      · next checked =>
          cases member with
          | head => exact ⟨yielded, checked⟩
          | tail _ later => exact step accepted later

theorem verifyFunction_sound {limit : Nat} (accepted : chunk.verifyFunction limit = .ok ()) :
    chunk.registerCount <= limit ∧ ∀ placed ∈ chunk.code.toList, ∃ yielded,
      chunk.checkInstruction yielded placed.instruction = .ok () := by
  unfold verifyFunction at accepted
  dsimp only at accepted
  split at accepted
  · cases accepted
  · next limited =>
      refine ⟨Nat.le_of_not_lt limited, fun placed member => ?_⟩
      cases checked : chunk.checkCode 0 false chunk.code.toList with
      | error refusal =>
          rw [checked] at accepted
          cases accepted
      | ok yielded => exact checkCode_instruction _ checked member

theorem provides_of_verifyCaptures
    {nested : String}
    (captures : List Capture)
    {index : Nat}
    (accepted : chunk.verifyCaptures nested index captures = .ok ())
    {capture : Capture}
    (member : capture ∈ captures) :
    chunk.provides capture := by
  induction captures generalizing index with
  | nil => cases member
  | cons first rest step =>
      unfold verifyCaptures at accepted
      split at accepted
      · next provided =>
          cases member with
          | head => exact provided
          | tail _ later => exact step accepted later
      · cases accepted

theorem verifyNested_sound
    {limit : Nat}
    {enclosing : Chunk}
    (functions : List Chunk)
    (accepted : verifyNested limit enclosing functions = .ok ())
    {nested : Chunk}
    (member : nested ∈ functions) :
    (∀ capture ∈ nested.info.captures, enclosing.provides capture) ∧
      nested.verify limit = .ok () := by
  induction functions with
  | nil => cases member
  | cons first rest step =>
      unfold verifyNested at accepted
      obtain ⟨captures, later⟩ := checks_bind accepted
      obtain ⟨verified, others⟩ := checks_bind later
      cases member with
      | head => exact ⟨fun _ => provides_of_verifyCaptures _ captures, verified⟩
      | tail _ later => exact step others later

/-- A chunk and all functions nested in it at some depth. -/
inductive Encloses (outer : Chunk) : Chunk -> Prop
  | self : Encloses outer outer
  | nested {middle inner : Chunk} :
      Encloses outer middle -> inner ∈ middle.functions -> Encloses outer inner

/-- Some verification whose limit is a register number accepts the chunk. -/
def Accepted (chunk : Chunk) : Prop :=
  ∃ limit, limit <= maxRegister ∧ chunk.verify limit = .ok ()

theorem verify_of_toBool
    {limit : Nat}
    (accepted : (chunk.verify limit).toBool = true) :
    chunk.verify limit = .ok () := by
  cases checked : chunk.verify limit with
  | ok answer => rfl
  | error refusal =>
      rw [checked] at accepted
      cases accepted

namespace Accepted

variable {chunk : Chunk} {placed : PlacedInstruction} {inner : Chunk}

theorem parts {limit : Nat} (accepted : chunk.verify limit = .ok ()) :
    chunk.verifyFunction limit = .ok () ∧
      verifyNested limit chunk chunk.functions = .ok () := by
  cases chunk
  unfold verify at accepted
  exact checks_bind accepted

/-- Every instruction is checked, and there are no more registers than register numbers. -/
theorem checked (accepted : chunk.Accepted) (member : placed ∈ chunk.code.toList) :
    chunk.registerCount <= maxRegister ∧ ∃ yielded,
      chunk.checkInstruction yielded placed.instruction = .ok () := by
  obtain ⟨limit, bounded, verified⟩ := accepted
  obtain ⟨limited, code⟩ := verifyFunction_sound (parts verified).1
  exact ⟨Nat.le_trans limited bounded, code placed member⟩

theorem resolves
    (accepted : chunk.Accepted)
    {placed : PlacedInstruction}
    (member : placed ∈ chunk.code.toList)
    {referent : Referent}
    (refers : placed.instruction.RefersTo referent) :
    chunk.Resolves referent := by
  obtain ⟨limited, yielded, checked⟩ := accepted.checked member
  exact resolves_of_check limited checked refers

theorem target_le
    (accepted : chunk.Accepted)
    (member : placed ∈ chunk.code.toList)
    {target : Nat}
    (aimed : target ∈ placed.instruction.targets) :
    target <= chunk.code.size := by
  obtain ⟨-, yielded, checked⟩ := accepted.checked member
  exact targets_of_check (checks_bind (checks_bind checked).2).1 aimed

/-- The variables that accepted code reads and writes are among those it captures. -/
theorem upvalue_lt
    (accepted : chunk.Accepted)
    (member : placed ∈ chunk.code.toList)
    {index : Nat}
    (used : (∃ destination, placed.instruction = .getUpvalue destination index) ∨
      ∃ source, placed.instruction = .setUpvalue index source) :
    index < chunk.info.captures.length := by
  obtain ⟨-, yielded, checked⟩ := accepted.checked member
  have operands := (checks_bind (checks_bind checked).2).2
  rcases used with ⟨destination, same⟩ | ⟨source, same⟩ <;>
  · rw [same] at operands
    exact guard_of_ok operands

theorem allowed_of_checkPlace
    {allowed : Bool}
    {instruction : Instruction}
    (checked : checkPlace allowed instruction = .ok ()) :
    allowed = true :=
  guard_of_ok checked

/-- Only generators hold instructions that suspend one. -/
theorem isGenerator
    (accepted : chunk.Accepted)
    (member : placed ∈ chunk.code.toList)
    (yields : placed.instruction.yields = true) :
    chunk.info.kind.isGenerator = true := by
  obtain ⟨-, yielded, checked⟩ := accepted.checked member
  have operands := (checks_bind (checks_bind checked).2).2
  unfold checkOperands at operands
  cases same : placed.instruction with
  | initialYield =>
      rw [same] at operands
      exact (Bool.and_eq_true_iff.1 (allowed_of_checkPlace operands)).1
  | yield | yieldStar =>
      rw [same] at operands
      exact allowed_of_checkPlace operands
  | _ =>
      rw [same] at yields
      cases yields

/-- Only async functions hold instructions that suspend one. -/
theorem isAsync
    (accepted : chunk.Accepted)
    (member : placed ∈ chunk.code.toList)
    (awaits : placed.instruction.awaits = true) :
    chunk.info.kind.isAsync = true := by
  obtain ⟨-, yielded, checked⟩ := accepted.checked member
  have operands := (checks_bind (checks_bind checked).2).2
  unfold checkOperands at operands
  cases same : placed.instruction with
  | await =>
      rw [same] at operands
      exact allowed_of_checkPlace operands
  | _ =>
      rw [same] at awaits
      cases awaits

theorem nested (accepted : chunk.Accepted) (member : inner ∈ chunk.functions) :
    inner.Accepted := by
  obtain ⟨limit, bounded, verified⟩ := accepted
  exact ⟨limit, bounded, (verifyNested_sound _ (parts verified).2 member).2⟩

theorem provides
    (accepted : chunk.Accepted)
    (member : inner ∈ chunk.functions)
    {capture : Capture}
    (captured : capture ∈ inner.info.captures) :
    chunk.provides capture := by
  obtain ⟨limit, bounded, verified⟩ := accepted
  exact (verifyNested_sound _ (parts verified).2 member).1 capture captured

/-- With a chunk everything that it encloses is accepted. -/
theorem encloses (accepted : chunk.Accepted) (enclosed : chunk.Encloses inner) :
    inner.Accepted := by
  induction enclosed with
  | self => exact accepted
  | nested _ member step => exact step.nested member

end Accepted
end Chunk
end ScriptVM

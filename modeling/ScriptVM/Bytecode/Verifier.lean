import ScriptVM.Bytecode.Assembly

/-!
# Verification

A chunk is accepted when every operand of every instruction is in range for the
function it stands in, suspensions stand in functions that can suspend, and the
same holds of all nested functions. A refusal names the first defect.
-/

namespace ScriptVM

/-- What is wrong with an instruction or a function. -/
inductive Defect
  | registerOutOfRange (register count : Nat)
  | badConstant (index : Nat)
  | jumpOutOfRange (target : Nat)
  | badFunction (index : Nat)
  | badUpvalue (index : Nat)
  | badCacheSlot (slot : Nat)
  /-- The instruction does not belong into this kind of function. -/
  | misplaced (mnemonic : String)
  | badCapture (index : Nat) (capture : Capture)
  | missingInitialYield
  | tooManyRegisters (count limit : Nat)
  deriving DecidableEq, Repr

namespace Defect

/-- The name of the kind of defect. -/
def name : Defect -> String
  | registerOutOfRange .. => "RegisterOutOfRange"
  | badConstant _ => "BadConstant"
  | jumpOutOfRange _ => "JumpOutOfRange"
  | badFunction _ => "BadFunction"
  | badUpvalue _ => "BadUpvalue"
  | badCacheSlot _ => "BadCacheSlot"
  | misplaced _ => "MisplacedSuspension"
  | badCapture .. => "BadCapture"
  | missingInitialYield => "MissingInitialYield"
  | tooManyRegisters .. => "TooManyRegisters"

/-- The text of a defect after the place where it stands. -/
def text : Defect -> String
  | registerOutOfRange register count =>
      "register r" ++ toString register ++ " out of range (" ++ toString count ++
        " registers)"
  | badConstant index => "invalid constant " ++ toString index
  | jumpOutOfRange target => "jump target " ++ toString target ++ " out of range"
  | badFunction index => "nested function " ++ toString index ++ " does not exist"
  | badUpvalue index => "upvalue " ++ toString index ++ " does not exist"
  | badCacheSlot slot => "cache slot " ++ toString slot ++ " out of range"
  | misplaced mnemonic => mnemonic ++ " is not allowed in this function"
  | badCapture index capture =>
      "capture " ++ toString index ++ " refers to a missing " ++
        (match capture with
        | .register _ => "register"
        | .upvalue _ => "upvalue")
  | missingInitialYield => "generator has no InitialYield"
  | tooManyRegisters count limit =>
      toString count ++ " registers exceeds the limit of " ++ toString limit

end Defect

/-- The first defect of a chunk: the function, the instruction unless the defect
is the function's own, and what is wrong. -/
structure Refusal where
  function : String
  offset : Option Nat
  defect : Defect
  deriving DecidableEq, Repr

namespace Refusal

/-- The text of a refusal. -/
def text (refusal : Refusal) : String :=
  let place :=
    match refusal.offset with
    | some offset => refusal.function ++ "@" ++ toString offset
    | none => refusal.function
  place ++ ": " ++ refusal.defect.text

end Refusal

namespace Chunk

/-- The largest register number. -/
def maxRegister : Nat := 4294967295

/-- The last register of a block; numbers do not go beyond the largest one. -/
def lastRegister (block : Register × Nat) : Nat :=
  min (block.1 + (block.2 - 1)) maxRegister

/-- The highest register that an instruction names. -/
def highestRegister? (instruction : Instruction) : Option Nat :=
  (instruction.registers.map lastRegister).max?

/-- The constant at an index exists. -/
def checkConstant (chunk : Chunk) (index : Nat) : Except Defect Unit :=
  if index < chunk.constants.size then .ok () else .error (.badConstant index)

/-- The constant at an index exists and is a string. -/
def checkName (chunk : Chunk) (index : Nat) : Except Defect Unit :=
  if (chunk.string? index).isSome then .ok () else .error (.badConstant index)

/-- The cache slot exists. -/
def checkCache (chunk : Chunk) (slot : Nat) : Except Defect Unit :=
  if slot < chunk.cacheSlots then .ok () else .error (.badCacheSlot slot)

/-- The captured variable exists. -/
def checkUpvalue (chunk : Chunk) (index : Nat) : Except Defect Unit :=
  if index < chunk.info.captures.length then .ok () else .error (.badUpvalue index)

/-- The registers of an instruction exist. -/
def checkRegisters (chunk : Chunk) (instruction : Instruction) : Except Defect Unit :=
  match highestRegister? instruction with
  | none => .ok ()
  | some register =>
      if register < chunk.registerCount then .ok ()
      else .error (.registerOutOfRange register chunk.registerCount)

/-- The jump targets of an instruction are offsets of the chunk or its end. -/
def checkTargets (chunk : Chunk) (instruction : Instruction) : Except Defect Unit :=
  match instruction.targets.find? fun target => chunk.code.size < target with
  | none => .ok ()
  | some target => .error (.jumpOutOfRange target)

/-- An instruction that only some functions may hold stands in one of them. -/
def checkPlace (allowed : Bool) (instruction : Instruction) : Except Defect Unit :=
  if allowed then .ok () else .error (.misplaced instruction.mnemonic)

/-- The other operands of an instruction are in range and the instruction may
stand where it does. `yielded` tells whether an initial yield came before. -/
def checkOperands (chunk : Chunk) (yielded : Bool) (instruction : Instruction) :
    Except Defect Unit :=
  let kind := chunk.info.kind
  match instruction with
  | .loadConst _ index => chunk.checkConstant index
  | .getGlobal _ name | .getGlobalOrUndefined _ name => chunk.checkName name
  | .setGlobal name _ | .defineGlobal name _ => chunk.checkName name
  | .checkHole _ name | .deleteNamed _ _ name => chunk.checkName name
  | .throwError _ message => chunk.checkName message
  | .getNamed _ _ name cache | .setNamed _ name _ cache => do
      chunk.checkName name
      chunk.checkCache cache
  | .createClosure _ index =>
      if index < chunk.functions.length then .ok () else .error (.badFunction index)
  | .getUpvalue _ index | .setUpvalue index _ => chunk.checkUpvalue index
  | .initialYield => checkPlace (kind.isGenerator && !yielded) instruction
  | .yield .. | .yieldStar .. => checkPlace kind.isGenerator instruction
  | .await .. => checkPlace kind.isAsync instruction
  | .superCall .. =>
      checkPlace (kind == .derivedConstructor || kind.isArrow) instruction
  | _ => .ok ()

/-- All checks of one instruction in the order in which defects are reported. -/
def checkInstruction (chunk : Chunk) (yielded : Bool) (instruction : Instruction) :
    Except Defect Unit := do
  chunk.checkRegisters instruction
  chunk.checkTargets instruction
  chunk.checkOperands yielded instruction

/-- Check instructions from an offset on; the answer tells whether there was an
initial yield. -/
def checkCode (chunk : Chunk) : Nat -> Bool -> List PlacedInstruction ->
    Except Refusal Bool
  | _, yielded, [] => .ok yielded
  | offset, yielded, placed :: rest =>
      match chunk.checkInstruction yielded placed.instruction with
      | .error defect =>
          .error { function := chunk.info.name, offset := some offset, defect }
      | .ok () =>
          chunk.checkCode (offset + 1)
            (yielded || placed.instruction == .initialYield) rest

/-- Check one function without the functions nested in it. -/
def verifyFunction (chunk : Chunk) (maxRegisters : Nat) : Except Refusal Unit := do
  let refuse (defect : Defect) : Except Refusal Unit :=
    .error { function := chunk.info.name, offset := none, defect }
  if maxRegisters < chunk.registerCount then
    refuse (.tooManyRegisters chunk.registerCount maxRegisters)
  let yielded <- chunk.checkCode 0 false chunk.code.toList
  if chunk.info.kind.isGenerator && !yielded then
    refuse .missingInitialYield

/-- The enclosing function has the variable that is captured. -/
def provides (chunk : Chunk) : Capture -> Bool
  | .register index => index < chunk.registerCount
  | .upvalue index => index < chunk.info.captures.length

/-- Check captures from an index on against the enclosing function. -/
def verifyCaptures (chunk : Chunk) (nested : String) :
    Nat -> List Capture -> Except Refusal Unit
  | _, [] => .ok ()
  | index, capture :: rest =>
      if chunk.provides capture then chunk.verifyCaptures nested (index + 1) rest
      else .error { function := nested, offset := none, defect := .badCapture index capture }

/-- The register limit unless another one is asked for. -/
def defaultMaxRegisters : Nat := 65536

mutual

/-- Check a chunk and everything nested in it. -/
def verify (maxRegisters : Nat) : Chunk -> Except Refusal Unit
  | { info, code, constants, registerCount, cacheSlots, functions } => do
      let chunk : Chunk := { info, code, constants, registerCount, cacheSlots, functions }
      chunk.verifyFunction maxRegisters
      verifyNested maxRegisters chunk functions

/-- Check the functions nested in a chunk: first the captures of each, then its
own chunk. -/
def verifyNested (maxRegisters : Nat) (enclosing : Chunk) :
    List Chunk -> Except Refusal Unit
  | [] => .ok ()
  | nested :: rest => do
      enclosing.verifyCaptures nested.info.name 0 nested.info.captures
      verify maxRegisters nested
      verifyNested maxRegisters enclosing rest

end

end Chunk
end ScriptVM

import ScriptVM.Bytecode.Chunk
import ScriptVM.Number.Binary

/-!
# Building chunks

A builder collects instructions, constants, registers and cache slots of one
function. While it does, jump targets are label numbers; finishing replaces each
by the offset its label was bound to.
-/

namespace ScriptVM

/-- Why a chunk could not be finished. -/
inductive BuildError
  /-- A jump refers to a label that was never bound. -/
  | unboundLabel (label : Nat)
  /-- A label was bound twice, or never created. -/
  | labelBoundTwice (label : Nat)
  deriving DecidableEq, Repr

namespace BuildError

/-- The name of the kind of build error. -/
def name : BuildError -> String
  | unboundLabel _ => "UnboundLabel"
  | labelBoundTwice _ => "LabelBoundTwice"

/-- The text of a build error. -/
def text : BuildError -> String
  | unboundLabel label =>
      "label " ++ toString label ++ " is referenced but never bound"
  | labelBoundTwice label =>
      "label " ++ toString label ++ " is bound more than once"

end BuildError

/-- A chunk under construction. -/
structure ChunkBuilder where
  chunk : Chunk
  /-- The offset of each label that is bound. -/
  labels : Array (Option Nat) := #[]
  /-- The source position of the instructions that follow. -/
  position : Option SourcePosition := none
  /-- The last label that could not be bound. -/
  rebound : Option Nat := none

namespace ChunkBuilder

/-- Start a function. -/
def start (name : String) (kind : FunctionKind) : ChunkBuilder :=
  { chunk := { info := { name, kind } } }

/-- Start a script. -/
def script : ChunkBuilder :=
  start "main" .script

/-- Registers and cache slots are counted modulo this number. -/
def countBound : Nat := 4294967296

/-- Change the function's description; parameters get registers. -/
def describe (builder : ChunkBuilder) (change : FunctionInfo -> FunctionInfo) :
    ChunkBuilder :=
  let info := change builder.chunk.info
  { builder with
    chunk := { builder.chunk with
      info
      registerCount :=
        max builder.chunk.registerCount (info.parameterRegisters % countBound) } }

/-- Declare the number of parameters. -/
def withParameters (builder : ChunkBuilder) (count : Nat) : ChunkBuilder :=
  builder.describe fun info => { info with parameterCount := count }

/-- Declare a rest parameter. -/
def withRest (builder : ChunkBuilder) : ChunkBuilder :=
  builder.describe fun info => { info with hasRest := true }

/-- Mark the function as not strict. -/
def sloppy (builder : ChunkBuilder) : ChunkBuilder :=
  { builder with
    chunk := { builder.chunk with info := { builder.chunk.info with strict := false } } }

/-- The register of a parameter. -/
def parameter (_ : ChunkBuilder) (index : Nat) : Register :=
  index

/-- The register of the rest parameter. -/
def rest (builder : ChunkBuilder) : Register :=
  builder.chunk.info.parameterCount

/-- Add a captured variable and give its index. -/
def capture (builder : ChunkBuilder) (captured : Capture) : Nat × ChunkBuilder :=
  let info := builder.chunk.info
  (info.captures.length,
    { builder with
      chunk := { builder.chunk with
        info := { info with captures := info.captures ++ [captured] } } })

/-- Allocate consecutive registers and give the first. -/
def registers (builder : ChunkBuilder) (count : Nat) : Register × ChunkBuilder :=
  (builder.chunk.registerCount,
    { builder with
      chunk := { builder.chunk with
        registerCount := (builder.chunk.registerCount + count) % countBound } })

/-- Allocate one register. -/
def register (builder : ChunkBuilder) : Register × ChunkBuilder :=
  builder.registers 1

/-- Add a constant and give its index. -/
def constant (builder : ChunkBuilder) (value : Constant) : Nat × ChunkBuilder :=
  (builder.chunk.constants.size,
    { builder with
      chunk := { builder.chunk with constants := builder.chunk.constants.push value } })

/-- The index of a string constant, added on first use. -/
def string (builder : ChunkBuilder) (value : String) : Nat × ChunkBuilder :=
  match builder.chunk.constants.findIdx? fun entry => entry == .string value with
  | some index => (index, builder)
  | none => builder.constant (.string value)

/-- Add a number constant and give its index. -/
def number (builder : ChunkBuilder) (value : Float) : Nat × ChunkBuilder :=
  builder.constant (.number value)

/-- Allocate a cache slot. -/
def cacheSlot (builder : ChunkBuilder) : Nat × ChunkBuilder :=
  (builder.chunk.cacheSlots,
    { builder with
      chunk := { builder.chunk with
        cacheSlots := (builder.chunk.cacheSlots + 1) % countBound } })

/-- Add a nested function and give its index. -/
def function (builder : ChunkBuilder) (nested : Chunk) : Nat × ChunkBuilder :=
  (builder.chunk.functions.length,
    { builder with
      chunk := { builder.chunk with functions := builder.chunk.functions ++ [nested] } })

/-- Create a label. -/
def label (builder : ChunkBuilder) : Nat × ChunkBuilder :=
  (builder.labels.size, { builder with labels := builder.labels.push none })

/-- Bind a label to the next instruction. -/
def bind (builder : ChunkBuilder) (label : Nat) : ChunkBuilder :=
  match builder.labels[label]? with
  | some none =>
      { builder with
        labels := builder.labels.setIfInBounds label (some builder.chunk.code.size) }
  | _ => { builder with rebound := some label }

/-- Give the following instructions a source position. -/
def locate (builder : ChunkBuilder) (line column : Nat) : ChunkBuilder :=
  { builder with position := some { line, column } }

/-- Append an instruction and give its offset. -/
def emit (builder : ChunkBuilder) (instruction : Instruction) : Nat × ChunkBuilder :=
  (builder.chunk.code.size,
    { builder with
      chunk := { builder.chunk with
        code := builder.chunk.code.push { instruction, position := builder.position } } })

/-- The number fits an integer operand: integral, in the signed 32-bit range
without its least value, and not negative zero. -/
def isSmallInteger (value : Float) : Bool :=
  Number.isIntegral value && value.abs <= 2147483647 &&
    !(value == 0 && Number.isNegative value)

/-- Load a number, as an operand if it fits and else as a constant. -/
def loadNumber (builder : ChunkBuilder) (destination : Register) (value : Float) :
    Nat × ChunkBuilder :=
  if isSmallInteger value then
    builder.emit (.loadInt destination (Number.truncate value))
  else
    let (index, builder) := builder.number value
    builder.emit (.loadConst destination index)

/-- Load a string constant. -/
def loadString (builder : ChunkBuilder) (destination : Register) (value : String) :
    Nat × ChunkBuilder :=
  let (index, builder) := builder.string value
  builder.emit (.loadConst destination index)

/-- Read a named property through a cache slot of its own. -/
def getNamed (builder : ChunkBuilder) (destination object : Register) (name : String) :
    Nat × ChunkBuilder :=
  let (name, builder) := builder.string name
  let (cache, builder) := builder.cacheSlot
  builder.emit (.getNamed destination object name cache)

/-- Write a named property through a cache slot of its own. -/
def setNamed (builder : ChunkBuilder) (object : Register) (name : String)
    (value : Register) : Nat × ChunkBuilder :=
  let (name, builder) := builder.string name
  let (cache, builder) := builder.cacheSlot
  builder.emit (.setNamed object name value cache)

/-- Read a global. -/
def getGlobal (builder : ChunkBuilder) (destination : Register) (name : String) :
    Nat × ChunkBuilder :=
  let (name, builder) := builder.string name
  builder.emit (.getGlobal destination name)

/-- Create or overwrite a global. -/
def defineGlobal (builder : ChunkBuilder) (name : String) (source : Register) :
    Nat × ChunkBuilder :=
  let (name, builder) := builder.string name
  builder.emit (.defineGlobal name source)

/-- The offset that a label is bound to. -/
def resolve (builder : ChunkBuilder) (label : Nat) : Except BuildError Nat :=
  match (builder.labels[label]?).join with
  | some offset => .ok offset
  | none => .error (.unboundLabel label)

/-- Replace the labels of one instruction by offsets. -/
def resolveTargets (builder : ChunkBuilder) (placed : PlacedInstruction) :
    Except BuildError PlacedInstruction := do
  let instruction <- placed.instruction.mapTargetsM builder.resolve
  return { placed with instruction }

/-- Replace all labels by offsets and give the chunk. -/
def finish (builder : ChunkBuilder) : Except BuildError Chunk := do
  if let some label := builder.rebound then
    throw (.labelBoundTwice label)
  let code <- builder.chunk.code.toList.mapM builder.resolveTargets
  return { builder.chunk with code := code.toArray }

end ChunkBuilder
end ScriptVM

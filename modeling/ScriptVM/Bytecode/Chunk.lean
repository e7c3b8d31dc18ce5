import ScriptVM.Bytecode.Instruction
import ScriptVM.Number.Text
import ScriptVM.Text.Quoted

/-!
# Chunks

A chunk is the compiled form of one function: its description, instructions with
source positions, constants, and the chunks of the functions nested in it.
-/

namespace ScriptVM

/-- What kind of function a chunk implements. -/
inductive FunctionKind
  | script
  | normal
  | arrow
  | method
  | generator
  | async
  | asyncArrow
  | classConstructor
  | derivedConstructor
  deriving DecidableEq, Repr, Inhabited

namespace FunctionKind

/-- All kinds in their listing order. -/
def all : List FunctionKind :=
  [script, normal, arrow, method, generator, async, asyncArrow,
    classConstructor, derivedConstructor]

/-- The name of the kind in assembly. -/
def name : FunctionKind -> String
  | script => "Script"
  | normal => "Normal"
  | arrow => "Arrow"
  | method => "Method"
  | generator => "Generator"
  | async => "Async"
  | asyncArrow => "AsyncArrow"
  | classConstructor => "ClassConstructor"
  | derivedConstructor => "DerivedConstructor"

/-- Calls give a generator, which suspends at `yield`. -/
def isGenerator (kind : FunctionKind) : Bool :=
  kind == generator

/-- Calls give a promise, and the body suspends at `await`. -/
def isAsync (kind : FunctionKind) : Bool :=
  kind == async || kind == asyncArrow

/-- The function shares `this`, `new.target` and the home object of the function
around it. -/
def isArrow (kind : FunctionKind) : Bool :=
  kind == arrow || kind == asyncArrow

/-- The function can be the target of `new`. -/
def isConstructor (kind : FunctionKind) : Bool :=
  kind == normal || kind == classConstructor || kind == derivedConstructor

/-- The function can only be the target of `new`. -/
def isClassConstructor (kind : FunctionKind) : Bool :=
  kind == classConstructor || kind == derivedConstructor

end FunctionKind

/-- A variable that a function captures: a register of the function directly
around it, or one of that function's own captured variables. -/
inductive Capture
  | register (index : Register)
  | upvalue (index : Nat)
  deriving DecidableEq, Repr

/-- What a frame needs to know about its function. Parameters occupy the first
registers; a rest parameter takes the next one. -/
structure FunctionInfo where
  name : String
  kind : FunctionKind
  parameterCount : Nat := 0
  hasRest : Bool := false
  strict : Bool := true
  captures : List Capture := []
  deriving DecidableEq, Repr

/-- Number of registers that the parameters take. -/
def FunctionInfo.parameterRegisters (info : FunctionInfo) : Nat :=
  info.parameterCount + info.hasRest.toNat

/-- A literal or a name in the constant pool. -/
inductive Constant
  | number (value : Float)
  | string (value : String)
  deriving DecidableEq, Inhabited

namespace Constant

/-- The text of a string constant. -/
def string? : Constant -> Option String
  | string value => some value
  | number _ => none

/-- The constant as it appears in a listing. -/
def text : Constant -> String
  | number value => Number.toText value
  | string value => Text.quote value

end Constant

/-- An instruction and the source position it was compiled from. -/
structure PlacedInstruction where
  instruction : Instruction
  position : Option SourcePosition := none
  deriving DecidableEq, Repr, Inhabited

/-- The compiled form of a function. -/
structure Chunk where
  info : FunctionInfo
  code : Array PlacedInstruction := #[]
  constants : Array Constant := #[]
  registerCount : Nat := info.parameterRegisters
  cacheSlots : Nat := 0
  functions : List Chunk := []

namespace Chunk

/-- The text of the string constant at an index. -/
def string? (chunk : Chunk) (index : Nat) : Option String :=
  (chunk.constants[index]?).bind Constant.string?

/-- The source position of the instruction at an offset, if it has one. -/
def ownPosition? (chunk : Chunk) (offset : Nat) : Option SourcePosition :=
  (chunk.code[offset]?).bind PlacedInstruction.position

/-- The last source position up to an offset. -/
def closestPosition? (chunk : Chunk) : Nat -> Option SourcePosition
  | 0 => chunk.ownPosition? 0
  | offset + 1 =>
      match chunk.ownPosition? (offset + 1) with
      | some position => some position
      | none => chunk.closestPosition? offset

/-- The source position at an offset: the instruction's own, or that of the
closest instruction before it that has one. -/
def positionAt? (chunk : Chunk) (offset : Nat) : Option SourcePosition :=
  chunk.closestPosition? (min offset (chunk.code.size - 1))

end Chunk
end ScriptVM

import ScriptVM.Bytecode.Chunk

/-!
# Assembly

The written form of an instruction is a mnemonic and a list of operands. Reading
is a partial inverse of writing: it takes the operands in order and refuses what
is missing, left over or of the wrong form.
-/

namespace ScriptVM

/-- One operand in written form. -/
inductive Operand
  | absent
  | integer (value : Int)
  | boolean (value : Bool)
  | word (name : String)
  deriving DecidableEq, Repr

namespace Operand

/-- Reads operands from the front of a list. -/
abbrev Reader := StateT (List Operand) Option

/-- The next operand. -/
def next : Reader Operand := fun operands =>
  match operands with
  | [] => none
  | operand :: rest => some (operand, rest)

/-- A register, index, target or count. -/
def natural : Reader Nat := do
  match <- next with
  | integer (.ofNat value) => return value
  | _ => failure

/-- A signed integer. -/
def signed : Reader Int := do
  match <- next with
  | integer value => return value
  | _ => failure

/-- A boolean. -/
def truth : Reader Bool := do
  match <- next with
  | boolean value => return value
  | _ => failure

/-- A number that may be absent. -/
def optional : Reader (Option Nat) := do
  match <- next with
  | absent => return none
  | integer (.ofNat value) => return some value
  | _ => failure

/-- A word of a vocabulary, found by its name. -/
def named {α : Type} (vocabulary : List α) (name : α -> String) : Reader α := do
  match <- next with
  | word text =>
      match vocabulary.find? fun entry => name entry == text with
      | some entry => return entry
      | none => failure
  | _ => failure

/-- A binary operator by name. -/
def binaryOperator : Reader BinaryOperator :=
  named BinaryOperator.all BinaryOperator.name

/-- A unary operator by name. -/
def unaryOperator : Reader UnaryOperator :=
  named UnaryOperator.all UnaryOperator.name

/-- A kind of class element by name. -/
def methodKind : Reader MethodKind :=
  named MethodKind.all MethodKind.name

/-- A kind of error by name. -/
def errorKind : Reader ErrorKind :=
  named (ErrorKind.internalError :: ErrorKind.constructible) ErrorKind.name

/-- The written form of a register, index, target or count. -/
def ofNat (value : Nat) : Operand :=
  integer value

/-- The written form of a number that may be absent. -/
def ofOption : Option Nat -> Operand
  | none => absent
  | some value => ofNat value

end Operand

namespace Instruction

open Operand

/-- The name of an instruction in assembly. -/
def mnemonic : Instruction -> String
  | .loadConst .. => "LoadConst"
  | .loadInt .. => "LoadInt"
  | .loadUndefined .. => "LoadUndefined"
  | .loadNull .. => "LoadNull"
  | .loadBool .. => "LoadBool"
  | .loadHole .. => "LoadHole"
  | .move .. => "Move"
  | .binary .. => "Binary"
  | .unary .. => "Unary"
  | .jump .. => "Jump"
  | .jumpIfTrue .. => "JumpIfTrue"
  | .jumpIfFalse .. => "JumpIfFalse"
  | .jumpIfNullish .. => "JumpIfNullish"
  | .jumpIfUndefined .. => "JumpIfUndefined"
  | .jumpIfNotUndefined .. => "JumpIfNotUndefined"
  | .getGlobal .. => "GetGlobal"
  | .getGlobalOrUndefined .. => "GetGlobalOrUndefined"
  | .setGlobal .. => "SetGlobal"
  | .defineGlobal .. => "DefineGlobal"
  | .getUpvalue .. => "GetUpvalue"
  | .setUpvalue .. => "SetUpvalue"
  | .closeUpvalues .. => "CloseUpvalues"
  | .checkHole .. => "CheckHole"
  | .throwError .. => "ThrowError"
  | .createObject .. => "CreateObject"
  | .createArray .. => "CreateArray"
  | .arrayPush .. => "ArrayPush"
  | .spreadIntoArray .. => "SpreadIntoArray"
  | .getNamed .. => "GetNamed"
  | .setNamed .. => "SetNamed"
  | .getIndexed .. => "GetIndexed"
  | .setIndexed .. => "SetIndexed"
  | .deleteNamed .. => "DeleteNamed"
  | .deleteIndexed .. => "DeleteIndexed"
  | .defineField .. => "DefineField"
  | .defineAccessor .. => "DefineAccessor"
  | .copyDataProperties .. => "CopyDataProperties"
  | .enumerateKeys .. => "EnumerateKeys"
  | .createClosure .. => "CreateClosure"
  | .call .. => "Call"
  | .callSpread .. => "CallSpread"
  | .tailCall .. => "TailCall"
  | .construct .. => "Construct"
  | .constructSpread .. => "ConstructSpread"
  | .return .. => "Return"
  | .loadThis .. => "LoadThis"
  | .loadArguments .. => "LoadArguments"
  | .loadNewTarget .. => "LoadNewTarget"
  | .loadCallee .. => "LoadCallee"
  | .createClass .. => "CreateClass"
  | .defineMethod .. => "DefineMethod"
  | .setFieldInitializer .. => "SetFieldInitializer"
  | .superCall .. => "SuperCall"
  | .superGet .. => "SuperGet"
  | .throw .. => "Throw"
  | .enterTry .. => "EnterTry"
  | .exitTry => "ExitTry"
  | .getException .. => "GetException"
  | .gotoFinally .. => "GotoFinally"
  | .endFinally => "EndFinally"
  | .leave .. => "Leave"
  | .initialYield => "InitialYield"
  | .yield .. => "Yield"
  | .yieldStar .. => "YieldStar"
  | .await .. => "Await"
  | .getIterator .. => "GetIterator"
  | .iteratorNext .. => "IteratorNext"
  | .jumpIfDone .. => "JumpIfDone"
  | .iteratorValue .. => "IteratorValue"
  | .iteratorClose .. => "IteratorClose"
  | .nop => "Nop"

/-- Read the operands that belong to a mnemonic. -/
def read (mnemonic : String) : Reader Instruction :=
  match mnemonic with
  | "LoadConst" => Instruction.loadConst <$> natural <*> natural
  | "LoadInt" => Instruction.loadInt <$> natural <*> signed
  | "LoadUndefined" => Instruction.loadUndefined <$> natural
  | "LoadNull" => Instruction.loadNull <$> natural
  | "LoadBool" => Instruction.loadBool <$> natural <*> truth
  | "LoadHole" => Instruction.loadHole <$> natural
  | "Move" => Instruction.move <$> natural <*> natural
  | "Binary" => Instruction.binary <$> binaryOperator
      <*> natural <*> natural <*> natural
  | "Unary" => Instruction.unary <$> unaryOperator <*> natural <*> natural
  | "Jump" => Instruction.jump <$> natural
  | "JumpIfTrue" => Instruction.jumpIfTrue <$> natural <*> natural
  | "JumpIfFalse" => Instruction.jumpIfFalse <$> natural <*> natural
  | "JumpIfNullish" => Instruction.jumpIfNullish <$> natural <*> natural
  | "JumpIfUndefined" => Instruction.jumpIfUndefined <$> natural <*> natural
  | "JumpIfNotUndefined" => Instruction.jumpIfNotUndefined <$> natural <*> natural
  | "GetGlobal" => Instruction.getGlobal <$> natural <*> natural
  | "GetGlobalOrUndefined" => Instruction.getGlobalOrUndefined <$> natural <*> natural
  | "SetGlobal" => Instruction.setGlobal <$> natural <*> natural
  | "DefineGlobal" => Instruction.defineGlobal <$> natural <*> natural
  | "GetUpvalue" => Instruction.getUpvalue <$> natural <*> natural
  | "SetUpvalue" => Instruction.setUpvalue <$> natural <*> natural
  | "CloseUpvalues" => Instruction.closeUpvalues <$> natural
  | "CheckHole" => Instruction.checkHole <$> natural <*> natural
  | "ThrowError" => Instruction.throwError <$> errorKind <*> natural
  | "CreateObject" => Instruction.createObject <$> natural
  | "CreateArray" => Instruction.createArray <$> natural <*> natural <*> natural
  | "ArrayPush" => Instruction.arrayPush <$> natural <*> natural
  | "SpreadIntoArray" => Instruction.spreadIntoArray <$> natural <*> natural
  | "GetNamed" => Instruction.getNamed <$> natural <*> natural <*> natural <*> natural
  | "SetNamed" => Instruction.setNamed <$> natural <*> natural <*> natural <*> natural
  | "GetIndexed" => Instruction.getIndexed <$> natural <*> natural <*> natural
  | "SetIndexed" => Instruction.setIndexed <$> natural <*> natural <*> natural
  | "DeleteNamed" => Instruction.deleteNamed <$> natural <*> natural <*> natural
  | "DeleteIndexed" => Instruction.deleteIndexed <$> natural <*> natural <*> natural
  | "DefineField" => Instruction.defineField <$> natural <*> natural <*> natural
  | "DefineAccessor" => Instruction.defineAccessor <$> natural
      <*> natural <*> natural <*> natural
  | "CopyDataProperties" => Instruction.copyDataProperties <$> natural <*> natural
  | "EnumerateKeys" => Instruction.enumerateKeys <$> natural <*> natural
  | "CreateClosure" => Instruction.createClosure <$> natural <*> natural
  | "Call" => Instruction.call <$> natural
      <*> natural <*> natural <*> natural <*> natural
  | "CallSpread" => Instruction.callSpread <$> natural
      <*> natural <*> natural <*> natural
  | "TailCall" => Instruction.tailCall <$> natural <*> natural <*> natural <*> natural
  | "Construct" => Instruction.construct <$> natural <*> natural <*> natural <*> natural
  | "ConstructSpread" => Instruction.constructSpread <$> natural <*> natural <*> natural
  | "Return" => Instruction.return <$> natural
  | "LoadThis" => Instruction.loadThis <$> natural
  | "LoadArguments" => Instruction.loadArguments <$> natural
  | "LoadNewTarget" => Instruction.loadNewTarget <$> natural
  | "LoadCallee" => Instruction.loadCallee <$> natural
  | "CreateClass" => Instruction.createClass <$> natural <*> optional
  | "DefineMethod" => Instruction.defineMethod <$> natural
      <*> natural <*> natural <*> methodKind
  | "SetFieldInitializer" => Instruction.setFieldInitializer <$> natural <*> natural
  | "SuperCall" => Instruction.superCall <$> natural <*> natural <*> natural
  | "SuperGet" => Instruction.superGet <$> natural <*> natural
  | "Throw" => Instruction.throw <$> natural
  | "EnterTry" => Instruction.enterTry <$> optional <*> optional
  | "ExitTry" => return .exitTry
  | "GetException" => Instruction.getException <$> natural
  | "GotoFinally" => Instruction.gotoFinally <$> natural
  | "EndFinally" => return .endFinally
  | "Leave" => Instruction.leave <$> natural <*> natural
  | "InitialYield" => return .initialYield
  | "Yield" => Instruction.yield <$> natural <*> natural
  | "YieldStar" => Instruction.yieldStar <$> natural <*> natural
  | "Await" => Instruction.await <$> natural <*> natural
  | "GetIterator" => Instruction.getIterator <$> natural <*> natural
  | "IteratorNext" => Instruction.iteratorNext <$> natural <*> natural
  | "JumpIfDone" => Instruction.jumpIfDone <$> natural <*> natural
  | "IteratorValue" => Instruction.iteratorValue <$> natural <*> natural
  | "IteratorClose" => Instruction.iteratorClose <$> natural
  | "Nop" => return .nop
  | _ => failure

/-- Read an instruction from its written form. -/
def ofAssembly? (mnemonic : String) (operands : List Operand) : Option Instruction :=
  match (read mnemonic).run operands with
  | some (instruction, []) => some instruction
  | _ => none

/-- The operands of an instruction in written form. -/
def operands : Instruction -> List Operand
  | .loadConst a b | .move a b | .jumpIfTrue a b | .jumpIfFalse a b
  | .jumpIfNullish a b | .jumpIfUndefined a b | .jumpIfNotUndefined a b
  | .getGlobal a b | .getGlobalOrUndefined a b | .setGlobal a b | .defineGlobal a b
  | .getUpvalue a b | .setUpvalue a b | .checkHole a b | .arrayPush a b
  | .spreadIntoArray a b | .copyDataProperties a b | .enumerateKeys a b
  | .createClosure a b | .setFieldInitializer a b | .superGet a b | .leave a b
  | .yield a b | .yieldStar a b | .await a b | .getIterator a b | .iteratorNext a b
  | .jumpIfDone a b | .iteratorValue a b => [ofNat a, ofNat b]
  | .loadInt a b => [ofNat a, integer b]
  | .loadUndefined a | .loadNull a | .loadHole a | .jump a | .closeUpvalues a
  | .createObject a | .return a | .loadThis a | .loadArguments a | .loadNewTarget a
  | .loadCallee a | .throw a | .getException a | .gotoFinally a | .iteratorClose a =>
      [ofNat a]
  | .loadBool a b => [ofNat a, boolean b]
  | .binary a b c d => [word a.name, ofNat b, ofNat c, ofNat d]
  | .unary a b c => [word a.name, ofNat b, ofNat c]
  | .throwError a b => [word a.name, ofNat b]
  | .createArray a b c | .getIndexed a b c | .setIndexed a b c | .deleteNamed a b c
  | .deleteIndexed a b c | .defineField a b c | .constructSpread a b c
  | .superCall a b c => [ofNat a, ofNat b, ofNat c]
  | .getNamed a b c d | .setNamed a b c d | .defineAccessor a b c d
  | .callSpread a b c d | .tailCall a b c d | .construct a b c d =>
      [ofNat a, ofNat b, ofNat c, ofNat d]
  | .call a b c d e => [ofNat a, ofNat b, ofNat c, ofNat d, ofNat e]
  | .createClass a b => [ofNat a, ofOption b]
  | .defineMethod a b c d => [ofNat a, ofNat b, ofNat c, word d.name]
  | .enterTry a b => [ofOption a, ofOption b]
  | .exitTry | .endFinally | .initialYield | .nop => []

end Instruction
end ScriptVM

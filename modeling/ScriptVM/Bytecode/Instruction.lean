import ScriptVM.Fault

/-!
# Instructions

The instruction set of the machine. Operands name registers of the running
frame, constants, nested functions, captured variables, cache slots and jump
targets, all by number.
-/

namespace ScriptVM

/-- A slot of the running frame's register window. -/
abbrev Register := Nat

/-- Operators with two operands. -/
inductive BinaryOperator
  | add | subtract | multiply | divide | modulo | power
  | bitAnd | bitOr | bitXor | shiftLeft | shiftRight | shiftRightUnsigned
  | equal | notEqual | strictEqual | strictNotEqual
  | less | lessOrEqual | greater | greaterOrEqual
  | membership | instanceOf
  deriving DecidableEq, Repr

namespace BinaryOperator

/-- All operators in their listing order. -/
def all : List BinaryOperator :=
  [add, subtract, multiply, divide, modulo, power,
    bitAnd, bitOr, bitXor, shiftLeft, shiftRight, shiftRightUnsigned,
    equal, notEqual, strictEqual, strictNotEqual,
    less, lessOrEqual, greater, greaterOrEqual, membership, instanceOf]

/-- The operator always gives a boolean. -/
def isComparison : BinaryOperator -> Bool
  | equal | notEqual | strictEqual | strictNotEqual => true
  | less | lessOrEqual | greater | greaterOrEqual => true
  | membership | instanceOf => true
  | _ => false

/-- The name of the operator in assembly. -/
def name : BinaryOperator -> String
  | add => "Add"
  | subtract => "Sub"
  | multiply => "Mul"
  | divide => "Div"
  | modulo => "Mod"
  | power => "Exp"
  | bitAnd => "BitAnd"
  | bitOr => "BitOr"
  | bitXor => "BitXor"
  | shiftLeft => "Shl"
  | shiftRight => "Shr"
  | shiftRightUnsigned => "UShr"
  | equal => "Eq"
  | notEqual => "NotEq"
  | strictEqual => "StrictEq"
  | strictNotEqual => "StrictNotEq"
  | less => "Lt"
  | lessOrEqual => "LtEq"
  | greater => "Gt"
  | greaterOrEqual => "GtEq"
  | membership => "In"
  | instanceOf => "InstanceOf"

end BinaryOperator

/-- Operators with one operand. -/
inductive UnaryOperator
  | negate | toNumber | logicalNot | bitNot | typeOf | void
  deriving DecidableEq, Repr

namespace UnaryOperator

/-- All operators in their listing order. -/
def all : List UnaryOperator :=
  [negate, toNumber, logicalNot, bitNot, typeOf, void]

/-- The name of the operator in assembly. -/
def name : UnaryOperator -> String
  | negate => "Neg"
  | toNumber => "Plus"
  | logicalNot => "Not"
  | bitNot => "BitNot"
  | typeOf => "TypeOf"
  | void => "Void"

end UnaryOperator

/-- The kind of class element that a method definition installs. -/
inductive MethodKind
  | method | getter | setter
  deriving DecidableEq, Repr

namespace MethodKind

/-- All kinds in their listing order. -/
def all : List MethodKind :=
  [method, getter, setter]

/-- The name of the kind in assembly. -/
def name : MethodKind -> String
  | method => "Method"
  | getter => "Getter"
  | setter => "Setter"

end MethodKind

/-- One instruction with its operands. -/
inductive Instruction
  | loadConst (destination : Register) (constant : Nat)
  | loadInt (destination : Register) (value : Int)
  | loadUndefined (destination : Register)
  | loadNull (destination : Register)
  | loadBool (destination : Register) (value : Bool)
  /-- Mark a binding as uninitialised. -/
  | loadHole (destination : Register)
  | move (destination source : Register)
  | binary (operator : BinaryOperator) (destination left right : Register)
  | unary (operator : UnaryOperator) (destination source : Register)
  | jump (target : Nat)
  | jumpIfTrue (condition : Register) (target : Nat)
  | jumpIfFalse (condition : Register) (target : Nat)
  | jumpIfNullish (condition : Register) (target : Nat)
  | jumpIfUndefined (condition : Register) (target : Nat)
  | jumpIfNotUndefined (condition : Register) (target : Nat)
  /-- Read a global, which must exist. -/
  | getGlobal (destination : Register) (name : Nat)
  | getGlobalOrUndefined (destination : Register) (name : Nat)
  /-- Assign a global, which must exist in strict code. -/
  | setGlobal (name : Nat) (source : Register)
  /-- Create or overwrite a global. -/
  | defineGlobal (name : Nat) (source : Register)
  | getUpvalue (destination : Register) (index : Nat)
  | setUpvalue (index : Nat) (source : Register)
  /-- Detach captured variables of the registers from `first` on. -/
  | closeUpvalues (first : Register)
  /-- Raise an error if a binding is still uninitialised. -/
  | checkHole (source : Register) (name : Nat)
  | throwError (kind : ErrorKind) (message : Nat)
  | createObject (destination : Register)
  | createArray (destination start : Register) (count : Nat)
  | arrayPush (array value : Register)
  /-- Append everything that an iterable yields. -/
  | spreadIntoArray (array iterable : Register)
  | getNamed (destination object : Register) (name cache : Nat)
  | setNamed (object : Register) (name : Nat) (value : Register) (cache : Nat)
  | getIndexed (destination object key : Register)
  | setIndexed (object key value : Register)
  | deleteNamed (destination object : Register) (name : Nat)
  | deleteIndexed (destination object key : Register)
  /-- Define an own enumerable data property. -/
  | defineField (object key value : Register)
  /-- Define an own enumerable accessor; undefined halves stay as they are. -/
  | defineAccessor (object key getter setter : Register)
  | copyDataProperties (destination source : Register)
  /-- Collect the enumerable string keys along the prototype chain. -/
  | enumerateKeys (destination object : Register)
  | createClosure (destination : Register) (function : Nat)
  | call (destination callee receiver arguments : Register) (count : Nat)
  /-- Call with the elements of an array as arguments. -/
  | callSpread (destination callee receiver arguments : Register)
  /-- Return the result of a call that takes over the current frame. -/
  | tailCall (callee receiver arguments : Register) (count : Nat)
  | construct (destination callee arguments : Register) (count : Nat)
  | constructSpread (destination callee arguments : Register)
  | return (value : Register)
  | loadThis (destination : Register)
  | loadArguments (destination : Register)
  | loadNewTarget (destination : Register)
  | loadCallee (destination : Register)
  /-- Turn a constructor closure into a class with an optional heritage. -/
  | createClass (constructor : Register) (heritage : Option Register)
  | defineMethod (target key method : Register) (kind : MethodKind)
  | setFieldInitializer (constructor initializer : Register)
  | superCall (destination arguments : Register) (count : Nat)
  | superGet (destination key : Register)
  | throw (value : Register)
  | enterTry (catchTarget finallyTarget : Option Nat)
  | exitTry
  | getException (destination : Register)
  /-- Enter a finally body with nothing pending. -/
  | gotoFinally (target : Nat)
  /-- Resume what was pending when the finally body was entered. -/
  | endFinally
  /-- Jump out of `depth` try regions, running their finally bodies. -/
  | leave (target depth : Nat)
  /-- Park a fresh generator after its parameters are set up. -/
  | initialYield
  | yield (destination value : Register)
  | yieldStar (destination iterator : Register)
  | await (destination value : Register)
  | getIterator (destination iterable : Register)
  | iteratorNext (destination iterator : Register)
  | jumpIfDone (result : Register) (target : Nat)
  | iteratorValue (destination result : Register)
  | iteratorClose (iterator : Register)
  | nop
  deriving DecidableEq, Repr, Inhabited

namespace Instruction

/-- Control never reaches the next instruction. -/
def isTerminator : Instruction -> Bool
  | jump _ | .return _ | tailCall .. | throw _ | .throwError .. => true
  | gotoFinally _ | endFinally | leave .. => true
  | _ => false

/-- The instruction parks a coroutine. -/
def isSuspension : Instruction -> Bool
  | initialYield | yield .. | yieldStar .. | await .. => true
  | _ => false

/-- The jump targets among the operands. -/
def targets : Instruction -> List Nat
  | jump target | gotoFinally target | leave target _ => [target]
  | jumpIfTrue _ target | jumpIfFalse _ target => [target]
  | jumpIfNullish _ target | jumpIfUndefined _ target => [target]
  | jumpIfNotUndefined _ target | jumpIfDone _ target => [target]
  | enterTry catchTarget finallyTarget =>
      catchTarget.toList ++ finallyTarget.toList
  | _ => []

/-- Replace every jump target, in operand order. -/
def mapTargetsM {m : Type -> Type} [Monad m] (f : Nat -> m Nat) :
    Instruction -> m Instruction
  | jump target => return jump (<- f target)
  | gotoFinally target => return gotoFinally (<- f target)
  | leave target depth => return leave (<- f target) depth
  | jumpIfTrue condition target => return jumpIfTrue condition (<- f target)
  | jumpIfFalse condition target => return jumpIfFalse condition (<- f target)
  | jumpIfNullish condition target => return jumpIfNullish condition (<- f target)
  | jumpIfUndefined condition target =>
      return jumpIfUndefined condition (<- f target)
  | jumpIfNotUndefined condition target =>
      return jumpIfNotUndefined condition (<- f target)
  | jumpIfDone result target => return jumpIfDone result (<- f target)
  | enterTry catchTarget finallyTarget => do
      let catchTarget <- catchTarget.mapM f
      let finallyTarget <- finallyTarget.mapM f
      return enterTry catchTarget finallyTarget
  | instruction => return instruction

/-- A block of registers that holds arguments; an empty block is not mentioned. -/
def block (first : Register) (count : Nat) : List (Register × Nat) :=
  if count == 0 then [] else [(first, count)]

/-- The registers among the operands as blocks with a length, in a fixed order. -/
def registers : Instruction -> List (Register × Nat)
  | loadConst d _ | loadInt d _ | loadUndefined d | loadNull d => [(d, 1)]
  | loadBool d _ | loadHole d | getGlobal d _ => [(d, 1)]
  | getGlobalOrUndefined d _ | getUpvalue d _ | createObject d => [(d, 1)]
  | createClosure d _ | loadThis d | loadArguments d => [(d, 1)]
  | loadNewTarget d | loadCallee d | getException d => [(d, 1)]
  | move d s | unary _ d s => [(d, 1), (s, 1)]
  | binary _ d l r => [(d, 1), (l, 1), (r, 1)]
  | jumpIfTrue c _ | jumpIfFalse c _ | jumpIfNullish c _ => [(c, 1)]
  | jumpIfUndefined c _ | jumpIfNotUndefined c _ | jumpIfDone c _ => [(c, 1)]
  | setGlobal _ s | defineGlobal _ s | setUpvalue _ s | checkHole s _ => [(s, 1)]
  | closeUpvalues first => [(first, 1)]
  | createArray d start count => (d, 1) :: block start count
  | arrayPush array v => [(array, 1), (v, 1)]
  | spreadIntoArray array iterable => [(array, 1), (iterable, 1)]
  | getNamed d o _ _ | deleteNamed d o _ => [(d, 1), (o, 1)]
  | setNamed o _ v _ => [(o, 1), (v, 1)]
  | getIndexed d o k | deleteIndexed d o k => [(d, 1), (o, 1), (k, 1)]
  | setIndexed o k v | defineField o k v => [(o, 1), (k, 1), (v, 1)]
  | defineAccessor o k g s => [(o, 1), (k, 1), (g, 1), (s, 1)]
  | copyDataProperties d s | enumerateKeys d s => [(d, 1), (s, 1)]
  | call d callee receiver arguments count =>
      [(d, 1), (callee, 1), (receiver, 1)] ++ block arguments count
  | callSpread d callee receiver arguments =>
      [(d, 1), (callee, 1), (receiver, 1), (arguments, 1)]
  | tailCall callee receiver arguments count =>
      [(callee, 1), (receiver, 1)] ++ block arguments count
  | construct d callee arguments count =>
      [(d, 1), (callee, 1)] ++ block arguments count
  | constructSpread d callee arguments => [(d, 1), (callee, 1), (arguments, 1)]
  | .return v | throw v => [(v, 1)]
  | createClass constructor heritage =>
      (constructor, 1) :: heritage.toList.map fun register => (register, 1)
  | defineMethod target key method _ => [(target, 1), (key, 1), (method, 1)]
  | setFieldInitializer constructor initializer =>
      [(constructor, 1), (initializer, 1)]
  | superCall d arguments count => (d, 1) :: block arguments count
  | superGet d key => [(d, 1), (key, 1)]
  | yield d v | await d v => [(d, 1), (v, 1)]
  | yieldStar d iterator | iteratorNext d iterator => [(d, 1), (iterator, 1)]
  | getIterator d iterable => [(d, 1), (iterable, 1)]
  | iteratorValue d result => [(d, 1), (result, 1)]
  | iteratorClose iterator => [(iterator, 1)]
  | jump _ | .throwError .. | enterTry .. | exitTry | gotoFinally _ => []
  | endFinally | leave .. | initialYield | nop => []

end Instruction
end ScriptVM

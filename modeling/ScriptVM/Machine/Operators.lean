import ScriptVM.Machine.Conversion

/-!
# Operators

What the binary and unary operators compute. Both operands of an operator are
converted from left to right; what follows is a function of the converted
operands.
-/

namespace ScriptVM

namespace Number

/-- The power of a number. An exponent that is not a number, and an infinite one of
a base of magnitude one, give no number. -/
def power (base exponent : Float) : Float :=
  if exponent.isNaN || (base.abs == 1 && exponent.isInf) then 0.0 / 0.0
  else base ^ exponent

/-- The distance of a shift. -/
def shiftCount (word : Nat) : Nat :=
  word % 32

/-- The signed reading of the low thirty-two bits of an integer. -/
def wrapSigned (n : Int) : Int :=
  Int.bmod n 4294967296

end Number

namespace Value

/-- A boolean as a number; anything else as it is. -/
def withoutBoolean : Value -> Value
  | boolean value => number (if value then 1 else 0)
  | value => value

/-- Loose equality of two values that are not objects. -/
def looselyEquals (left right : Value) : Bool :=
  match left.withoutBoolean, right.withoutBoolean with
  | undefined, undefined | undefined, null | null, undefined | null, null => true
  | number left, string right => left == Number.ofText right
  | string left, number right => Number.ofText left == right
  | left, right => left.strictlyEquals right

/-- The value can be loosely equal to an object, by way of the object's primitive. -/
def comparesWithPrimitive : Value -> Bool
  | boolean _ | number _ | string _ | symbol _ => true
  | _ => false

end Value

/-- The answer of a comparison; none if a side is not a number. -/
abbrev Comparison := Option Bool

namespace Exec

variable {σ : Type}

/-- Compare two values that are not objects: strings unit by unit, anything else as
numbers. -/
def lessPrimitives (left right : Value) : Except Exception Comparison :=
  match left, right with
  | .string left, .string right => .ok (some (Text.less16 left right))
  | left, right => do
      let left <- left.primitiveNumber
      let right <- right.primitiveNumber
      return if left.isNaN || right.isNaN then none else some (left < right)

/-- Compare the primitives of two values, which are converted from left to right,
either the left with the right one or the right with the left one. -/
def compare (left right : Value) (swapped : Bool) : Exec σ Comparison := do
  let left <- toPrimitive left .number
  let right <- toPrimitive right .number
  ofExcept (if swapped then lessPrimitives right left else lessPrimitives left right)

/-- Convert both operands to numbers. -/
def numericOperands (left right : Value) : Exec σ (Float × Float) := do
  let left <- toNumber left
  return (left, <- toNumber right)

/-- Convert both operands to signed words. -/
def signedOperands (left right : Value) : Exec σ (Int × Int) := do
  let left <- toSignedWord left
  return (left, <- toSignedWord right)

/-- Apply an operation to the words of two signed operands. -/
def bitwise (operation : Nat -> Nat -> Nat) (left right : Value) : Exec σ Value := do
  let (left, right) <- signedOperands left right
  let word := fun (n : Int) => (n % 4294967296).toNat
  return .ofInt (Number.wrapSigned (operation (word left) (word right)))

/-- Add two values that are not objects: a string on either side joins texts. -/
def addPrimitives (left right : Value) : Except Exception Value := do
  if left.string?.isSome || right.string?.isSome then
    let left <- left.primitiveText
    let right <- right.primitiveText
    return .string (left ++ right)
  else
    let left <- left.primitiveNumber
    let right <- right.primitiveNumber
    return .number (left + right)

/-- Add two values. -/
def add (left right : Value) : Exec σ Value := do
  let left <- toPrimitive left .default
  let right <- toPrimitive right .default
  ofExcept (addPrimitives left right)

/-- Loose equality. An object is compared by its primitive, except with another
object. -/
def looseEquals (left right : Value) : Exec σ Bool := do
  if left.isObject && right.isObject then return left.strictlyEquals right
  else if left.isObject then
    if right.comparesWithPrimitive then
      return (<- toPrimitive left .default).looselyEquals right
    else return false
  else if right.isObject then
    if left.comparesWithPrimitive then
      return left.looselyEquals (<- toPrimitive right .default)
    else return false
  else return left.looselyEquals right

/-- An object of a prototype chain, beyond the object it starts from, is the given
one; the chain is followed for at most `limit` links. -/
def inherits (prototype : ObjectId) : (limit : Nat) -> ObjectId -> Exec σ Bool
  | 0, _ => raise .chainOverflow
  | limit + 1, id => do
      match <- getPrototypeOf id with
      | none => return false
      | some parent =>
          if parent == prototype then return true else inherits prototype limit parent

/-- The default answer of `instanceof`: the prototype object of the target is on the
chain of the value. A bound function stands for its target. -/
def ordinaryHasInstance (target value : Value) : Exec σ Bool := do
  match <- ask fun machine => machine.kindOf? target with
  | some (.bound inner _ _) => perform (.instanceOf value inner)
  | _ =>
      match value.objectId? with
      | none => return false
      | some id =>
          if !target.isCallable then return false
          match (<- getProperty target "prototype").objectId? with
          | none =>
              raise (.typeError
                "Function has non-object prototype in instanceof check")
          | some prototype =>
              inherits prototype
                (<- ask fun machine => machine.config.maxPrototypeChain) id

/-- The answer of `instanceof`. The target may have a method that answers. -/
def instanceOf (value target : Value) : Exec σ Bool := do
  if !target.isObject then
    raise (.typeError "Right-hand side of 'instanceof' is not an object")
  let checker <- getProperty target (.symbol .hasInstance)
  if !checker.isNullish then return (<- call checker target [value]).isTruthy
  if !target.isCallable then
    raise (.typeError "Right-hand side of 'instanceof' is not callable")
  ordinaryHasInstance target value

/-- The answer of the `in` operator. -/
def membership (key target : Value) : Exec σ Bool := do
  match target.objectId? with
  | none =>
      typeError fun machine =>
        "Cannot use 'in' operator to search for '" ++ machine.display key ++ "' in " ++
          machine.display target
  | some id => hasProperty id (<- toPropertyKey key)

/-- Apply a binary operator. -/
def binary (operator : BinaryOperator) (left right : Value) : Exec σ Value := do
  match operator with
  | .add => add left right
  | .subtract =>
      let (left, right) <- numericOperands left right
      return .number (left - right)
  | .multiply =>
      let (left, right) <- numericOperands left right
      return .number (left * right)
  | .divide =>
      let (left, right) <- numericOperands left right
      return .number (left / right)
  | .modulo =>
      let (left, right) <- numericOperands left right
      return .number (Number.remainder left right)
  | .power =>
      let (left, right) <- numericOperands left right
      return .number (Number.power left right)
  | .bitAnd => bitwise Nat.land left right
  | .bitOr => bitwise Nat.lor left right
  | .bitXor => bitwise Nat.xor left right
  | .shiftLeft =>
      let left <- toSignedWord left
      let count := Number.shiftCount (<- toWord right)
      return .ofInt (Number.wrapSigned (left <<< count))
  | .shiftRight =>
      let left <- toSignedWord left
      let count := Number.shiftCount (<- toWord right)
      return .ofInt (left >>> count)
  | .shiftRightUnsigned =>
      let left <- toWord left
      let count := Number.shiftCount (<- toWord right)
      return .ofNat (left >>> count)
  | .equal => return .boolean (<- looseEquals left right)
  | .notEqual => return .boolean !(<- looseEquals left right)
  | .strictEqual => return .boolean (left.strictlyEquals right)
  | .strictNotEqual => return .boolean !(left.strictlyEquals right)
  | .less => return .boolean ((<- compare left right false) == some true)
  | .greater => return .boolean ((<- compare left right true) == some true)
  | .lessOrEqual => return .boolean ((<- compare left right true) == some false)
  | .greaterOrEqual => return .boolean ((<- compare left right false) == some false)
  | .membership => return .boolean (<- membership left right)
  | .instanceOf => return .boolean (<- instanceOf left right)

/-- Apply a unary operator. -/
def unary (operator : UnaryOperator) (value : Value) : Exec σ Value := do
  match operator with
  | .negate => return .number (-(<- toNumber value))
  | .toNumber => return .number (<- toNumber value)
  | .logicalNot => return .boolean !value.isTruthy
  | .bitNot => return .ofInt (-1 - (<- toSignedWord value))
  | .typeOf => return .string value.typeOf
  | .void => return .undefined

end Exec
end ScriptVM

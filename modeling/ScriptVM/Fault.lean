/-!
# Engine faults

A fault is an error the engine itself raises: a kind, a message, and the call
stack at the time, innermost frame first. A handler turns it into an error
object; until then it has no identity a script could see.
-/

namespace ScriptVM

/-- The kind of an error, named after the constructor that creates it. -/
inductive ErrorKind
  | error
  | syntaxError
  | typeError
  | referenceError
  | rangeError
  | aggregateError
  | internalError
  deriving DecidableEq, Repr, Inhabited

namespace ErrorKind

/-- The name of the kind. -/
def name : ErrorKind -> String
  | error => "Error"
  | syntaxError => "SyntaxError"
  | typeError => "TypeError"
  | referenceError => "ReferenceError"
  | rangeError => "RangeError"
  | aggregateError => "AggregateError"
  | internalError => "InternalError"

/-- The kinds that scripts can construct, in the order they are installed. -/
def constructible : List ErrorKind :=
  [error, syntaxError, typeError, referenceError, rangeError, aggregateError]

end ErrorKind

/-- A position in the source text of a program, lines and columns from one. -/
structure SourcePosition where
  line : Nat := 0
  column : Nat := 0
  offset : Nat := 0
  deriving DecidableEq, Repr, Inhabited

/-- One frame of a captured call stack. -/
structure StackFrame where
  functionName : Option String
  sourceUrl : Option String
  line : Nat
  column : Nat
  deriving DecidableEq, Repr

namespace StackFrame

/-- The text of a frame in a stack trace. -/
def text (frame : StackFrame) : String :=
  let name := frame.functionName.getD "<anonymous>"
  let place := toString frame.line ++ ":" ++ toString frame.column
  match frame.sourceUrl with
  | some url => name ++ " (" ++ url ++ ":" ++ place ++ ")"
  | none => name ++ " (" ++ place ++ ")"

end StackFrame

/-- An error raised by the engine. -/
structure Fault where
  kind : ErrorKind
  message : String
  stack : List StackFrame := []
  position : Option SourcePosition := none
  deriving DecidableEq, Repr, Inhabited

namespace Fault

/-- A fault about an operand of the wrong type. -/
def typeError (message : String) : Fault :=
  { kind := .typeError, message }

/-- A fault about a binding. -/
def referenceError (message : String) : Fault :=
  { kind := .referenceError, message }

/-- A fault about a bound. -/
def rangeError (message : String) : Fault :=
  { kind := .rangeError, message }

/-- A fault of the engine or of malformed bytecode. -/
def internalError (message : String) : Fault :=
  { kind := .internalError, message }

/-- Attach a call stack. The innermost frame supplies the position unless there
already is one. -/
def withStack (fault : Fault) (stack : List StackFrame) : Fault :=
  let innermost := stack.head?.map fun frame =>
    { line := frame.line, column := frame.column : SourcePosition }
  { fault with stack, position := fault.position <|> innermost }

/-- The header line of a fault. -/
def text (fault : Fault) : String :=
  fault.kind.name ++ ": " ++ fault.message

/-- The header line followed by one line per frame. -/
def trace (fault : Fault) : String :=
  fault.stack.foldl (fun text frame => text ++ "\n    at " ++ frame.text)
    fault.text

end Fault
end ScriptVM

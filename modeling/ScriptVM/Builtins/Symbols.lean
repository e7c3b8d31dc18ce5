import ScriptVM.Builtins.Arguments
import ScriptVM.Machine.Conversion

/-!
# Built-ins of symbols

Creating symbols and describing them.
-/

namespace ScriptVM
namespace Builtins

open Exec

variable {σ : Type}

/-- Create a symbol with an optional description. -/
def createSymbol (description : Value) : Exec σ Value := do
  let description <-
    if description.isUndefined then pure none else some <$> toText description
  change fun machine => machine.newSymbol description

/-- The symbol that a method was called on. -/
def receiverSymbol (receiver : Value) (method : String) : Exec σ SymbolId := do
  match receiver with
  | .symbol id => return id
  | _ =>
      typeError fun machine =>
        "Symbol.prototype." ++ method ++ " requires that 'this' be a Symbol, got " ++
          machine.display receiver

/-- The text of a symbol. -/
def symbolToString (receiver : Value) : Exec σ Value := do
  let id <- receiverSymbol receiver "toString"
  return .string (<- ask fun machine => machine.symbolText id)

/-- The symbol itself. -/
def symbolValueOf (receiver : Value) : Exec σ Value := do
  return .symbol (<- receiverSymbol receiver "valueOf")

end Builtins
end ScriptVM

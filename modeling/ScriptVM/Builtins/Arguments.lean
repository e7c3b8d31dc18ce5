import ScriptVM.Value

/-!
# Arguments of built-ins

A built-in sees every argument it looks for; missing ones are undefined.
-/

namespace ScriptVM
namespace Builtins

/-- The argument at an index. -/
def argument (arguments : List Value) (index : Nat) : Value :=
  (arguments[index]?).getD .undefined

end Builtins
end ScriptVM

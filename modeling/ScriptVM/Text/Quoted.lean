import ScriptVM.Text.Unprintable

/-!
# Quoted text

The diagnostic form of a string: double quotes around it, quotes and backslashes
escaped, and unprintable characters written by name or by code.
-/

namespace ScriptVM
namespace Text

/-- The lower-case hexadecimal digits of a natural number. -/
def hexDigits (n : Nat) : List Char :=
  Nat.toDigits 16 n

/-- The escaped form of one character. -/
def escapeChar (c : Char) : List Char :=
  match c with
  | '"' => ['\\', '"']
  | '\\' => ['\\', '\\']
  | '\n' => ['\\', 'n']
  | '\t' => ['\\', 't']
  | '\r' => ['\\', 'r']
  | '\x00' => ['\\', '0']
  | c =>
      if isUnprintable c then
        ['\\', 'u', '\x7b'] ++ hexDigits c.toNat ++ ['\x7d']
      else [c]

/-- The text between double quotes with every character escaped as needed. -/
def quote (text : String) : String :=
  String.ofList ('"' :: (text.toList.flatMap escapeChar ++ ['"']))

end Text
end ScriptVM

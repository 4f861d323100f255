import RowSync.Text.Extending
import RowSync.Text.Ignorable
import RowSync.Text.Unprintable

/-!
# Quoted Text

Text quoted for messages, so that every character of it can be seen: quotes, backslashes and line
ends are escaped, and characters without a visible form of their own are written by code point.
-/

namespace RowSync.Text

/-- A character inside quotes. -/
def quotedChar (c : Char) : List Char :=
  match c with
  | '\x00' => ['\\', '0']
  | '\t' => ['\\', 't']
  | '\r' => ['\\', 'r']
  | '\n' => ['\\', 'n']
  | '\"' => ['\\', '\"']
  | '\\' => ['\\', '\\']
  | c =>
    if isExtending c || isIgnorable c || isUnprintable c then
      ['\\', 'u', '\x7b'] ++ Nat.toDigits 16 c.toNat ++ ['\x7d']
    else [c]

/-- Text in quotes. -/
def quoted (s : String) : String :=
  "\"" ++ String.ofList (s.toList.flatMap quotedChar) ++ "\""

end RowSync.Text

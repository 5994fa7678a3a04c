/-
SceneScript.Text.Quoted — text between double quotes, as messages show it.

Inside the quotes a backslash stands before a double quote and a backslash;
NUL, tab, line feed and carriage return have a letter; a character that cannot
be seen on its own is written by its number, `\u` with the hexadecimal digits in
braces. All else stands for itself, the single quote too.
-/
import SceneScript.Text.Hidden

namespace SceneScript.Text

/-- One character as it stands between the quotes. -/
def quoteChar (c : Char) : List Char :=
  match c with
  | '\x00' => ['\\', '0']
  | '\t' => ['\\', 't']
  | '\r' => ['\\', 'r']
  | '\n' => ['\\', 'n']
  | '\\' => ['\\', '\\']
  | '"' => ['\\', '"']
  | c =>
    if isHidden c then
      ['\\', 'u', '\x7b'] ++ Nat.toDigits 16 c.toNat ++ ['\x7d']
    else [c]

/-- Text between double quotes. -/
def quote (text : String) : String :=
  String.ofList ('"' :: text.toList.flatMap quoteChar ++ ['"'])

end SceneScript.Text

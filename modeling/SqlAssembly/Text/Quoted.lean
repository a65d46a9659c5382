import SqlAssembly.Text.Escaped

/-!
# Text shown between quotes

A text is shown between double quotes on one line: quotes and backslashes behind a backslash, line
breaks, tabs and NUL by a letter or digit, and every other character of `Text.isEscaped` by its code
point.
-/

namespace SqlAssembly.Text

/-- How a character is shown between quotes. -/
def shownChar (c : Char) : List Char :=
  match c with
  | '"' => ['\\', '"']
  | '\\' => ['\\', '\\']
  | '\n' => ['\\', 'n']
  | '\r' => ['\\', 'r']
  | '\t' => ['\\', 't']
  | '\x00' => ['\\', '0']
  | c =>
    if isEscaped c then ['\\', 'u', '\x7b'] ++ Nat.toDigits 16 c.toNat ++ ['\x7d'] else [c]

/-- A text between quotes. -/
def quoted (s : String) : String :=
  String.ofList ('"' :: s.toList.flatMap shownChar ++ ['"'])

end SqlAssembly.Text

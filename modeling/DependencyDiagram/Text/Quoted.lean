import DependencyDiagram.Text.Printable

/-!
# Quoted literals in messages

Messages that cite an identifier show its names as quoted literals. A quotation mark and a
backslash are escaped, four controls have letters of their own, a printable character
stands for itself, and every other character is written as its code point in lower-case
hexadecimal between braces. An apostrophe stays.
-/

namespace DependencyDiagram.Text

/-- The escape of one character inside a quoted literal. -/
def quotedCharacter (character : Char) : List Char :=
  match character with
  | '\x00' => ['\\', '0']
  | '\t' => ['\\', 't']
  | '\n' => ['\\', 'n']
  | '\r' => ['\\', 'r']
  | '"' => ['\\', '"']
  | '\\' => ['\\', '\\']
  | _ =>
    if isPrintable character then [character]
    else ['\\', 'u', '\x7b'] ++ Nat.toDigits 16 character.toNat ++ ['\x7d']

/-- A text as a quoted literal. -/
def quoted (text : String) : String :=
  String.ofList ('"' :: text.toList.flatMap quotedCharacter ++ ['"'])

/-- Marks and controls are escaped, an apostrophe and a letter outside ASCII are not. -/
example :
    quoted "it's \"é\"\n" = "\"it's \\\"é\\\"\\n\"" ∧
      quoted "\u0301" = "\"\\u\x7b301\x7d\"" := by decide +kernel

end DependencyDiagram.Text

import DependencyDiagram.Text.Numeral

/-!
# How JSON spells texts and numbers

A string literal is handled by its spelling, the characters between its quotation marks. A
spelling is well formed when every escape in it is complete and it holds no bare control;
it then denotes a sequence of code units. The units denote a text unless half of a
surrogate pair stands alone. So a spelling can be well formed without denoting a text, and
such a literal is acceptable exactly where its value does not matter.

A text is written with the shortest escapes: quotation mark, backslash and five controls
have a letter, every other control is written by its code, and all else stands for itself.
-/

namespace DependencyDiagram.Json

/-- The four hexadecimal digits of a number below 65536, in lower case. -/
def fourDigits (value : Nat) : List Char :=
  [Nat.digitChar (value / 4096 % 16), Nat.digitChar (value / 256 % 16),
    Nat.digitChar (value / 16 % 16), Nat.digitChar (value % 16)]

/-- The spelling of one character. -/
def spellCharacter (character : Char) : List Char :=
  match character with
  | '"' => ['\\', '"']
  | '\\' => ['\\', '\\']
  | '\x08' => ['\\', 'b']
  | '\x0c' => ['\\', 'f']
  | '\n' => ['\\', 'n']
  | '\r' => ['\\', 'r']
  | '\t' => ['\\', 't']
  | _ =>
    if character.toNat < 32 then ['\\', 'u'] ++ fourDigits character.toNat else [character]

/-- The spelling of a text. -/
def spell (text : String) : String := String.ofList (text.toList.flatMap spellCharacter)

/-- The code unit that a one-letter escape stands for. -/
def escapedUnit? : Char → Option Nat
  | '"' => some 34
  | '\\' => some 92
  | '/' => some 47
  | 'b' => some 8
  | 'f' => some 12
  | 'n' => some 10
  | 'r' => some 13
  | 't' => some 9
  | _ => none

/-- The code units that a spelling denotes, or nothing when it is not well formed. A
character that is not escaped counts as one unit, whatever its code point. -/
def units? : List Char → Option (List Nat)
  | [] => some []
  | '\\' :: 'u' :: first :: second :: third :: fourth :: rest => do
    return (← Text.hexadecimal? [first, second, third, fourth]) :: (← units? rest)
  | '\\' :: letter :: rest => do return (← escapedUnit? letter) :: (← units? rest)
  | character :: rest =>
    if character.toNat < 32 ∨ character = '"' ∨ character = '\\' then none
    else (units? rest).map (character.toNat :: ·)

/-- The leading half of a surrogate pair. -/
def isHighHalf (unit : Nat) : Bool := 0xD800 ≤ unit && unit < 0xDC00

/-- The trailing half of a surrogate pair. -/
def isLowHalf (unit : Nat) : Bool := 0xDC00 ≤ unit && unit < 0xE000

/-- The character that a unit denotes by itself. -/
def loneCharacter? (unit : Nat) : Option Char :=
  if isHighHalf unit || isLowHalf unit then none else some (Char.ofNat unit)

/-- The characters that code units denote, or nothing when half of a pair stands alone. -/
def characters? : List Nat → Option (List Char)
  | [] => some []
  | [unit] => (loneCharacter? unit).map ([·])
  | high :: low :: rest =>
    if isHighHalf high && isLowHalf low then
      (characters? rest).map (Char.ofNat (0x10000 + (high - 0xD800) * 0x400 + (low - 0xDC00)) :: ·)
    else do return (← loneCharacter? high) :: (← characters? (low :: rest))

/-- A literal with this spelling is acceptable where its value does not matter. -/
def isWellFormed (spelling : String) : Bool := (units? spelling.toList).isSome

/-- The text that a spelling denotes. -/
def unspell? (spelling : String) : Option String := do
  return String.ofList (← characters? (← units? spelling.toList))

/-- Drop the leading digits, of which there must be at least one. -/
def afterDigits? : List Char → Option (List Char)
  | [] => none
  | first :: rest => if first.isDigit then some (rest.dropWhile Char.isDigit) else none

/-- Drop the digits of a whole number, which begins with a zero only if it is zero. -/
def afterWhole? : List Char → Option (List Char)
  | '0' :: rest => some rest
  | characters => afterDigits? characters

/-- Drop a fraction, if one follows. -/
def afterFraction? : List Char → Option (List Char)
  | '.' :: rest => afterDigits? rest
  | characters => some characters

/-- Drop one sign, if one follows. -/
def afterSign : List Char → List Char
  | '+' :: rest | '-' :: rest => rest
  | characters => characters

/-- Drop an exponent, if one follows. -/
def afterExponent? : List Char → Option (List Char)
  | 'e' :: rest | 'E' :: rest => afterDigits? (afterSign rest)
  | characters => some characters

/-- Drop a minus sign, if one follows. -/
def afterMinus : List Char → List Char
  | '-' :: rest => rest
  | characters => characters

/-- The characters spell a number of any size and precision. -/
def isNumber (characters : List Char) : Bool :=
  ((afterWhole? (afterMinus characters)).bind afterFraction?).bind afterExponent? == some []

/-- The number up to a bound that a spelling denotes, if it is spelled as a whole number
without sign, fraction, exponent or needless zeros. -/
def wholeNumber? (bound : Nat) (spelling : String) : Option Nat :=
  if afterWhole? spelling.toList = some [] then
    (Text.digits? spelling.toList).filter (· ≤ bound)
  else none

/-- Escapes of either kind are read, pairs of halves are joined, and a lone half denotes no
text although its spelling is well formed. -/
example :
    unspell? "a\\u0041\\n\\/" = some "aA\n/" ∧ unspell? "\\ud83d\\ude00" = some "😀" ∧
      unspell? "\\ud83d" = none ∧ isWellFormed "\\ud83d" = true ∧
      isWellFormed "\\u00" = false := by decide

/-- Controls are written by letter or by code. -/
example : spell "\"é\n\x01" = "\\\"é\\n\\u0001" := by decide

/-- Whole numbers are told apart from other numbers. -/
example :
    isNumber "-0.5e+10".toList = true ∧ isNumber "01".toList = false ∧
      isNumber "1.".toList = false ∧ wholeNumber? 10 "7" = some 7 ∧ wholeNumber? 10 "11" = none ∧
      wholeNumber? 10 "1.0" = none := by decide

end DependencyDiagram.Json

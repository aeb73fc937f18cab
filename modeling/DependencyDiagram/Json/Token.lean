import DependencyDiagram.Json.Spelling

/-!
# Tokens of JSON text

Text is cut into punctuation, string literals and words in one pass from left to right.
The scanner remembers only what kind of token it is inside of. A word is a longest run of
characters that neither separate nor punctuate; at its end it must be one of the three
literal names or a number. Cutting at the longest run refuses nothing that could be
accepted, because no two words and no word and literal may follow each other directly.
-/

namespace DependencyDiagram.Json

/-- The smallest parts of JSON text. Strings and numbers keep their spelling. So nothing is
lost before it is known what a field makes of them. -/
inductive Token where
  | openBrace
  | closeBrace
  | openBracket
  | closeBracket
  | comma
  | colon
  | null
  | bool (value : Bool)
  | number (spelling : String)
  | string (spelling : String)
deriving DecidableEq, Repr

namespace Token

/-- The written form of a token. -/
def written : Token → String
  | openBrace => "\x7b"
  | closeBrace => "\x7d"
  | openBracket => "["
  | closeBracket => "]"
  | comma => ","
  | colon => ":"
  | null => "null"
  | bool true => "true"
  | bool false => "false"
  | number spelling => spelling
  | string spelling => "\"" ++ spelling ++ "\""

/-- The token that a single character is. -/
def ofPunctuation? : Char → Option Token
  | '\x7b' => some openBrace
  | '\x7d' => some closeBrace
  | '[' => some openBracket
  | ']' => some closeBracket
  | ',' => some comma
  | ':' => some colon
  | _ => none

/-- The token that a word is. -/
def ofWord? (characters : List Char) : Option Token :=
  if characters = "null".toList then some null
  else if characters = "true".toList then some (bool true)
  else if characters = "false".toList then some (bool false)
  else if isNumber characters then some (number (String.ofList characters))
  else none

/-- The token of a literal with the given spelling. -/
def ofLiteral? (characters : List Char) : Option Token :=
  if isWellFormed (String.ofList characters) then some (string (String.ofList characters)) else none

end Token

/-- The four characters that may stand between tokens. -/
def isSeparator (character : Char) : Bool :=
  character == ' ' || character == '\t' || character == '\n' || character == '\r'

/-- Where the scanner stands. The characters of an unfinished token come latest first. A
word ends only where a character follows that does not belong to it, and a quotation mark
behind a backslash does not end a literal. -/
inductive Standing where
  | between
  | inWord (read : List Char)
  | inLiteral (read : List Char)
  | afterBackslash (read : List Char)
deriving DecidableEq, Repr

/-- The scanner: the finished tokens, latest first, and where it stands. -/
structure Scanner where
  found : List Token
  standing : Standing
deriving DecidableEq, Repr

namespace Scanner

/-- The scanner before the first character. -/
def start : Scanner := ⟨[], .between⟩

/-- Take a character that no unfinished token claims. -/
def begin (found : List Token) (character : Char) : Scanner :=
  if isSeparator character then ⟨found, .between⟩
  else if character = '"' then ⟨found, .inLiteral []⟩
  else match Token.ofPunctuation? character with
    | some token => ⟨token :: found, .between⟩
    | none => ⟨found, .inWord [character]⟩

/-- A character that cannot belong to a word. -/
def endsWord (character : Char) : Bool :=
  isSeparator character || character == '"' || (Token.ofPunctuation? character).isSome

/-- Take one character. -/
def step (scanner : Scanner) (character : Char) : Option Scanner :=
  match scanner.standing with
  | .between => some (begin scanner.found character)
  | .inWord read =>
    if endsWord character then
      (Token.ofWord? read.reverse).map (fun token => begin (token :: scanner.found) character)
    else some { scanner with standing := .inWord (character :: read) }
  | .inLiteral read =>
    if character = '"' then
      (Token.ofLiteral? read.reverse).map (fun token => ⟨token :: scanner.found, .between⟩)
    else if character = '\\' then some { scanner with standing := .afterBackslash (character :: read) }
    else some { scanner with standing := .inLiteral (character :: read) }
  | .afterBackslash read => some { scanner with standing := .inLiteral (character :: read) }

/-- Take characters one after the other. -/
def run (scanner : Scanner) : List Char → Option Scanner
  | [] => some scanner
  | character :: rest =>
    match scanner.step character with
    | none => none
    | some next => next.run rest

/-- The tokens in order once the text has ended. -/
def finish (scanner : Scanner) : Option (List Token) :=
  match scanner.standing with
  | .between => some scanner.found.reverse
  | .inWord read => (Token.ofWord? read.reverse).map (fun token => (token :: scanner.found).reverse)
  | .inLiteral _ | .afterBackslash _ => none

end Scanner

/-- The tokens of a text. -/
def tokens? (text : String) : Option (List Token) :=
  (Scanner.start.run text.toList).bind Scanner.finish

/-- Words end at punctuation, and an escaped quotation mark does not end a literal. -/
example :
    tokens? "[-1,\"a\\\"b\" ,null]" =
      some [.openBracket, .number "-1", .comma, .string "a\\\"b", .comma, .null, .closeBracket] := by
  decide

end DependencyDiagram.Json

import DependencyDiagram.Drawing.Line

/-!
# Scanning drawings

The text of a drawing is cut into words, quoted strings and punctuation in one pass from left
to right. A quoted string ends at its first quotation mark that is not escaped, and inside it
a backslash stands with the character behind it for a backslash, a quotation mark or a line
break. The scanner knows nothing of how drawings are written; it reads every quoted string
back as the text that was quoted, and every line as the lexemes of that line, at any depth.
-/

namespace DependencyDiagram.Drawing

/-- The smallest parts of a drawing's text. A quoted string is given by what it stands for. Spaces and
line breaks leave no trace, so that layout does not count. -/
inductive Lexeme where
  | word (text : String)
  | quoted (text : String)
  | openBrace
  | closeBrace
  | openBracket
  | closeBracket
  | equals
  | comma
  | semicolon
  | arrow
deriving DecidableEq, Repr

namespace Lexeme

/-- The lexeme that a single character is. -/
def ofPunctuation? : Char → Option Lexeme
  | '\x7b' => some openBrace
  | '\x7d' => some closeBrace
  | '[' => some openBracket
  | ']' => some closeBracket
  | '=' => some equals
  | ',' => some comma
  | ';' => some semicolon
  | _ => none

end Lexeme

/-- The characters that may stand between lexemes. -/
def isSpace (character : Char) : Bool :=
  character == ' ' || character == '\t' || character == '\n' || character == '\r'

/-- The characters of words. -/
def isWordCharacter (character : Char) : Bool := character.isAlphanum || character == '_'

/-- What a character stands for behind a backslash. -/
def unescaped? : Char → Option Char
  | '\\' => some '\\'
  | '"' => some '"'
  | 'n' => some '\n'
  | _ => none

/-- Where the scanner stands. The characters of an unfinished lexeme come latest first. Every state but
the first and the second is one in which the text must not end. -/
inductive Standing where
  | between
  | inWord (read : List Char)
  | inQuotes (read : List Char)
  | afterBackslash (read : List Char)
  | afterDash
deriving DecidableEq, Repr

/-- The scanner: the finished lexemes, latest first, and where it stands. -/
structure Scanner where
  found : List Lexeme
  standing : Standing
deriving DecidableEq, Repr

namespace Scanner

/-- Take a character that no unfinished lexeme claims. -/
def begin (found : List Lexeme) (character : Char) : Option Scanner :=
  if isSpace character then some ⟨found, .between⟩
  else if isWordCharacter character then some ⟨found, .inWord [character]⟩
  else if character = '"' then some ⟨found, .inQuotes []⟩
  else if character = '-' then some ⟨found, .afterDash⟩
  else (Lexeme.ofPunctuation? character).map (fun lexeme => ⟨lexeme :: found, .between⟩)

/-- The finished word in front of what was found before. -/
def closeWord (found : List Lexeme) (read : List Char) : List Lexeme :=
  .word (String.ofList read.reverse) :: found

/-- Take one character. -/
def step (scanner : Scanner) (character : Char) : Option Scanner :=
  match scanner.standing with
  | .between => begin scanner.found character
  | .inWord read =>
    if isWordCharacter character then some ⟨scanner.found, .inWord (character :: read)⟩
    else begin (closeWord scanner.found read) character
  | .inQuotes read =>
    if character = '"' then
      some ⟨.quoted (String.ofList read.reverse) :: scanner.found, .between⟩
    else if character = '\\' then some ⟨scanner.found, .afterBackslash read⟩
    else some ⟨scanner.found, .inQuotes (character :: read)⟩
  | .afterBackslash read =>
    (unescaped? character).map (fun denoted => ⟨scanner.found, .inQuotes (denoted :: read)⟩)
  | .afterDash => if character = '>' then some ⟨.arrow :: scanner.found, .between⟩ else none

/-- Take characters one after the other. -/
def run (scanner : Scanner) (characters : List Char) : Option Scanner :=
  characters.foldlM step scanner

/-- The lexemes in order once the text has ended. -/
def finish (scanner : Scanner) : Option (List Lexeme) :=
  match scanner.standing with
  | .between => some scanner.found.reverse
  | .inWord read => some (closeWord scanner.found read).reverse
  | _ => none

end Scanner

/-- The lexemes of a text. -/
def lexemes? (text : String) : Option (List Lexeme) :=
  (Scanner.run ⟨[], .between⟩ text.toList).bind Scanner.finish

/-- Between two lexemes the scanner takes the text as the given lexemes and stands between lexemes again.
Texts that are scanned in this sense can be put behind one another, and their lexemes are then put behind
one another too. -/
def Scans (text : String) (lexemes : List Lexeme) : Prop :=
  ∀ found, Scanner.run ⟨found, .between⟩ text.toList = some ⟨lexemes.reverse ++ found, .between⟩

/-- A text that may stand as a word. The keys of attributes and the keywords are of this kind. Everything
else is quoted. -/
structure IsWord (text : String) : Prop where
  nonempty : text ≠ ""
  characters : ∀ character ∈ text.toList, isWordCharacter character = true

namespace Scanner

variable {scanner : Scanner} {found : List Lexeme} {read : List Char}

/-- Nothing is taken from an empty text. -/
@[simp]
theorem run_nil : scanner.run [] = some scanner := rfl

/-- A text is taken character by character. -/
@[simp]
theorem run_cons {character : Char} {rest : List Char} :
    scanner.run (character :: rest) = (scanner.step character).bind (·.run rest) := rfl

/-- Two texts are taken one after the other. -/
theorem run_append {first second : List Char} :
    scanner.run (first ++ second) = (scanner.run first).bind (·.run second) :=
  List.foldlM_append

/-- Inside quotation marks the escape of a character is taken as that character. -/
theorem run_escapeCharacter (character : Char) :
    Scanner.run ⟨found, .inQuotes read⟩ (escapeCharacter character) =
      some ⟨found, .inQuotes (character :: read)⟩ := by
  by_cases backslash : character = '\\'
  · subst backslash
    rfl
  · by_cases quotation : character = '"'
    · subst quotation
      rfl
    · by_cases lineBreak : character = '\n'
      · subst lineBreak
        rfl
      · simp [escapeCharacter, step, backslash, quotation]

/-- Inside quotation marks an escaped text is taken as that text. -/
theorem run_escaped (characters : List Char) :
    Scanner.run ⟨found, .inQuotes read⟩ (characters.flatMap escapeCharacter) =
      some ⟨found, .inQuotes (characters.reverse ++ read)⟩ := by
  induction characters generalizing read with
  | nil => rfl
  | cons character rest inductionHypothesis =>
    rw [List.flatMap_cons, run_append, run_escapeCharacter, Option.bind_some, inductionHypothesis,
      List.reverse_cons, List.append_assoc, List.singleton_append]

/-- Inside a word more characters of words belong to it. -/
theorem run_word {characters : List Char}
    (inWord : ∀ character ∈ characters, isWordCharacter character = true) :
    Scanner.run ⟨found, .inWord read⟩ characters =
      some ⟨found, .inWord (characters.reverse ++ read)⟩ := by
  induction characters generalizing read with
  | nil => rfl
  | cons character rest inductionHypothesis =>
    have first : isWordCharacter character = true := inWord character List.mem_cons_self
    have taken : Scanner.step ⟨found, .inWord read⟩ character =
        some ⟨found, .inWord (character :: read)⟩ := by simp [step, first]
    rw [run_cons, taken, Option.bind_some,
      inductionHypothesis (fun other listed => inWord other (List.mem_cons_of_mem _ listed)),
      List.reverse_cons, List.append_assoc, List.singleton_append]

/-- A character of words does not separate lexemes. -/
theorem begin_word {character : Char} (inWord : isWordCharacter character = true) :
    begin found character = some ⟨found, .inWord [character]⟩ := by
  have noSpace : isSpace character = false := by
    rw [← Bool.not_eq_true]
    intro space
    simp only [isSpace, Bool.or_eq_true, beq_iff_eq] at space
    rcases space with ((rfl | rfl) | rfl) | rfl <;> exact absurd inWord (by decide)
  simp [begin, noSpace, inWord]

end Scanner

/-- Texts scanned one after the other. -/
theorem Scans.append {first second : String} {some more : List Lexeme} (left : Scans first some)
    (right : Scans second more) : Scans (first ++ second) (some ++ more) := by
  intro found
  rw [String.toList_append, Scanner.run_append, left, Option.bind_some, right,
    List.reverse_append, List.append_assoc]

/-- Nothing is scanned from an empty text. -/
theorem scans_empty : Scans "" [] := fun _ => rfl

/-- A quoted text is scanned as that text, whatever it holds. -/
theorem scans_quote (text : String) : Scans (quote text) [.quoted text] := by
  intro found
  have inside : (quote text).toList = '"' :: (text.toList.flatMap escapeCharacter ++ ['"']) := by
    simp [quote, escape, String.toList_append]
  have opened : Scanner.step ⟨found, .between⟩ '"' = some ⟨found, .inQuotes []⟩ := rfl
  rw [inside, Scanner.run_cons, opened, Option.bind_some, Scanner.run_append, Scanner.run_escaped,
    Option.bind_some]
  simp [Scanner.step]

/-- A word is scanned as itself where a character follows that does not belong to words. The scanner
notices the end of a word only at the next character, which is why the text behind the word is part of
the statement. -/
theorem scans_word {word text : String} {lexemes : List Lexeme} (isWord : IsWord word)
    (ends : ∃ next rest, text.toList = next :: rest ∧ isWordCharacter next = false)
    (scans : Scans text lexemes) : Scans (word ++ text) (.word word :: lexemes) := by
  intro found
  obtain ⟨first, rest, split⟩ := List.exists_cons_of_ne_nil
    (fun empty => isWord.nonempty (String.toList_eq_nil_iff.mp empty))
  obtain ⟨next, further, continues, outside⟩ := ends
  have inWord := isWord.characters
  rw [split] at inWord
  have begun : Scanner.step ⟨found, .between⟩ first = some ⟨found, .inWord [first]⟩ :=
    Scanner.begin_word (inWord first List.mem_cons_self)
  have taken : Scanner.run ⟨found, .between⟩ word.toList =
      some ⟨found, .inWord word.toList.reverse⟩ := by
    rw [split, Scanner.run_cons, begun, Option.bind_some,
      Scanner.run_word (fun other listed => inWord other (List.mem_cons_of_mem _ listed)),
      List.reverse_cons]
  -- the character behind the word is taken as if it stood between lexemes
  have same : Scanner.run ⟨found, .inWord word.toList.reverse⟩ text.toList =
      Scanner.run ⟨.word word :: found, .between⟩ text.toList := by
    rw [continues, Scanner.run_cons, Scanner.run_cons]
    simp [Scanner.step, outside, Scanner.closeWord]
  rw [String.toList_append, Scanner.run_append, taken, Option.bind_some, same, scans,
    List.reverse_cons, List.append_assoc, List.singleton_append]

/-- Parts scanned one after the other. -/
theorem scans_join_map {α : Type} {items : List α} {text : α → String} {lexemes : α → List Lexeme}
    (each : ∀ item ∈ items, Scans (text item) (lexemes item)) :
    Scans (String.join (items.map text)) (items.flatMap lexemes) := by
  induction items with
  | nil => exact scans_empty
  | cons item rest inductionHypothesis =>
    rw [List.map_cons, String.join_cons, List.flatMap_cons]
    exact (each item List.mem_cons_self).append
      (inductionHypothesis (fun other listed => each other (List.mem_cons_of_mem _ listed)))

/-- The lexemes of an attribute. -/
def assignmentLexemes (pair : String × String) : List Lexeme :=
  [.word pair.1, .equals, .quoted pair.2]

/-- The lexemes of attributes with commas between them. -/
def assignmentsLexemes : List (String × String) → List Lexeme
  | [] => []
  | [pair] => assignmentLexemes pair
  | pair :: next :: rest => assignmentLexemes pair ++ .comma :: assignmentsLexemes (next :: rest)

/-- The lexemes of a list of attributes in brackets. -/
def attributeLexemes (attributes : List (String × String)) : List Lexeme :=
  .openBracket :: (assignmentsLexemes attributes ++ [.closeBracket])

/-- The lexemes of an attribute that stands as a statement of its own. -/
def settingLexemes (pair : String × String) : List Lexeme := assignmentLexemes pair ++ [.semicolon]

/-- The keys of attributes are words. -/
def Worded (attributes : List (String × String)) : Prop := ∀ pair ∈ attributes, IsWord pair.1

/-- An attribute is scanned as its key and its value. -/
theorem scans_assignment {pair : String × String} (isWord : IsWord pair.1) :
    Scans (assignment pair) (assignmentLexemes pair) := by
  have equals : Scans "=" [.equals] := fun _ => rfl
  have value : Scans ("=" ++ quote pair.2) [.equals, .quoted pair.2] :=
    equals.append (scans_quote pair.2)
  rw [assignment, String.append_assoc]
  exact scans_word isWord ⟨'=', _, String.toList_append, by decide⟩ value

/-- Attributes with commas between them are scanned one by one. -/
theorem scans_assignments {attributes : List (String × String)} (worded : Worded attributes) :
    Scans (", ".intercalate (attributes.map assignment)) (assignmentsLexemes attributes) := by
  induction attributes with
  | nil => exact scans_empty
  | cons pair rest inductionHypothesis =>
    have first := scans_assignment (worded pair List.mem_cons_self)
    have later := inductionHypothesis (fun other listed => worded other (List.mem_cons_of_mem _ listed))
    cases rest with
    | nil => simpa [assignmentsLexemes] using first
    | cons next further =>
      have comma : Scans ", " [.comma] := fun _ => rfl
      rw [List.map_cons, List.map_cons, String.intercalate_cons_cons, assignmentsLexemes,
        String.append_assoc]
      exact first.append (comma.append later)

/-- A list of attributes is scanned with its brackets. -/
theorem scans_attributeList {attributes : List (String × String)} (worded : Worded attributes) :
    Scans (attributeList attributes) (attributeLexemes attributes) := by
  have opened : Scans "[" [.openBracket] := fun _ => rfl
  have closed : Scans "]" [.closeBracket] := fun _ => rfl
  exact (opened.append (scans_assignments worded)).append closed

/-- Indentation is not scanned as anything. -/
theorem scans_indent (depth : Nat) : Scans (indent depth) [] := by
  have space : Scans "  " [] := fun _ => rfl
  have each : Scans (String.join ((List.replicate depth "  ").map id))
      ((List.replicate depth "  ").flatMap (fun _ => [])) :=
    scans_join_map (fun part listed => List.eq_of_mem_replicate listed ▸ space)
  have none : (List.replicate depth "  ").flatMap (fun _ => ([] : List Lexeme)) = [] := by simp
  rwa [List.map_id, none] at each

/-- An attribute on a line of its own is scanned with the semicolon behind it. -/
theorem scans_assignmentLine (depth : Nat) {pair : String × String} (isWord : IsWord pair.1) :
    Scans (assignmentLine depth pair) (settingLexemes pair) := by
  have ended : Scans ";\n" [.semicolon] := fun _ => rfl
  exact ((scans_indent depth).append (scans_assignment isWord)).append ended

namespace Line

/-- The attributes that a line writes. -/
def attributes : Line → List (String × String)
  | setting key value => [(key, value)]
  | nodeStyle attributes | node _ attributes | edge _ _ attributes | openCluster _ attributes =>
    attributes
  | closeCluster | blank => []

/-- The lexemes of a line. -/
def lexemes : Line → List Lexeme
  | setting key value => settingLexemes (key, value)
  | nodeStyle attributes => .word "node" :: (attributeLexemes attributes ++ [.semicolon])
  | node name attributes => .quoted name :: (attributeLexemes attributes ++ [.semicolon])
  | edge tail head attributes =>
    .quoted tail :: .arrow :: .quoted head :: (attributeLexemes attributes ++ [.semicolon])
  | openCluster name attributes =>
    .word "subgraph" :: .quoted name :: .openBrace :: attributes.flatMap settingLexemes
  | closeCluster => [.closeBrace]
  | blank => []

/-- A line is scanned as its lexemes at every depth. Each kind of line is put together from parts with
known lexemes: indentation, keywords, quoted names, lists of attributes and the ending. The depth shows
in the indentation alone, and that has no lexemes. -/
theorem scans_render (depth : Nat) (line : Line) (worded : Worded line.attributes) :
    Scans (line.render depth) line.lexemes := by
  have ended : Scans ";\n" [.semicolon] := fun _ => rfl
  have space : Scans " " [] := fun _ => rfl
  cases line with
  | setting key value => exact scans_assignmentLine depth (worded (key, value) List.mem_cons_self)
  | nodeStyle attributes =>
    have style : Scans "node " [.word "node"] := fun _ => rfl
    exact (((scans_indent depth).append style).append (scans_attributeList worded)).append ended
  | node name attributes =>
    exact ((((scans_indent depth).append (scans_quote name)).append space).append
      (scans_attributeList worded)).append ended
  | edge tail head attributes =>
    have arrow : Scans " -> " [.arrow] := fun _ => rfl
    exact ((((((scans_indent depth).append (scans_quote tail)).append arrow).append
      (scans_quote head)).append space).append (scans_attributeList worded)).append ended
  | openCluster name attributes =>
    have heading : Scans "subgraph " [.word "subgraph"] := fun _ => rfl
    have opened : Scans " \x7b\n" [.openBrace] := fun _ => rfl
    have settings : Scans (String.join (attributes.map (assignmentLine (depth + 1))))
        (attributes.flatMap settingLexemes) :=
      scans_join_map (fun pair listed => scans_assignmentLine (depth + 1) (worded pair listed))
    exact ((((scans_indent depth).append heading).append (scans_quote name)).append opened).append
      settings
  | closeCluster =>
    have closed : Scans "\x7d\n" [.closeBrace] := fun _ => rfl
    exact (scans_indent (depth - 1)).append closed
  | blank =>
    have lineBreak : Scans "\n" [] := fun _ => rfl
    exact lineBreak

/-- Lines are scanned one after the other. -/
theorem scans_renderAll (depth : Nat) (lines : List Line)
    (worded : ∀ line ∈ lines, Worded line.attributes) :
    Scans (renderAll depth lines) (lines.flatMap lexemes) := by
  induction lines generalizing depth with
  | nil => exact scans_empty
  | cons line rest inductionHypothesis =>
    rw [renderAll, List.flatMap_cons]
    exact (scans_render depth line (worded line List.mem_cons_self)).append
      (inductionHypothesis _ (fun other listed => worded other (List.mem_cons_of_mem _ listed)))

end Line

/-- A whole drawing is scanned as its name and the lexemes of its lines between two braces. -/
theorem lexemes?_render (name : String) (lines : List Line)
    (worded : ∀ line ∈ lines, Worded line.attributes) :
    lexemes? (render name lines) =
      some (.word "digraph" :: .quoted name :: .openBrace ::
        (lines.flatMap Line.lexemes ++ [.closeBrace])) := by
  have heading : Scans "digraph " [.word "digraph"] := fun _ => rfl
  have opened : Scans " \x7b\n" [.openBrace] := fun _ => rfl
  have closed : Scans "\x7d\n" [.closeBrace] := fun _ => rfl
  have whole : Scans (render name lines) _ :=
    (((heading.append (scans_quote name)).append opened).append
      (Line.scans_renderAll 1 lines worded)).append closed
  simp [lexemes?, whole [], Scanner.finish]

end DependencyDiagram.Drawing

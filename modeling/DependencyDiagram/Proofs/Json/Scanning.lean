import DependencyDiagram.Json.Writer
import DependencyDiagram.Proofs.Json.Numbers
import DependencyDiagram.Proofs.Json.Spelling

/-!
# Scanning written values

Between two tokens a punctuation mark, a literal or a word is scanned as its token. A word only
ends where a character follows that does not belong to words, or nothing at all. Parts with
separators between them and brackets around them are scanned part by part, whatever blanks the
separators and brackets bring along; so the written forms of a value are scanned as the tokens of
the value.
-/

namespace DependencyDiagram.Json

namespace Scanner

variable {scanner : Scanner} {found : List Token} {read : List Char}

/-- Two texts are taken one after the other. -/
theorem run_append (first second : List Char) :
    scanner.run (first ++ second) = (scanner.run first).bind (·.run second) := by
  induction first generalizing scanner with
  | nil => rfl
  | cons character rest inductionHypothesis =>
    rw [List.cons_append, run, run]
    cases scanner.step character with
    | none => rfl
    | some next => exact inductionHypothesis

/-- The tokens that a text completes. -/
def complete (scanner : Scanner) (characters : List Char) : Option (List Token) :=
  (scanner.run characters).bind finish

/-- A text completes what its beginning leads to. -/
theorem complete_of_run {next : Scanner} {first second : List Char}
    (ran : scanner.run first = some next) :
    scanner.complete (first ++ second) = next.complete second := by
  rw [complete, run_append, ran]
  rfl

/-- A character that does not end words begins one. -/
theorem begin_word {character : Char} (inWord : endsWord character = false) :
    begin found character = ⟨found, .inWord [character]⟩ := by
  rw [endsWord, Bool.or_eq_false_iff, Bool.or_eq_false_iff, beq_eq_false_iff_ne] at inWord
  obtain ⟨⟨noSeparator, noQuotation⟩, noPunctuation⟩ := inWord
  have none : Token.ofPunctuation? character = none := by
    cases mark : Token.ofPunctuation? character with
    | none => rfl
    | some token =>
      rw [mark] at noPunctuation
      cases noPunctuation
  simp [begin, noSeparator, noQuotation, none]

/-- Inside a word more characters of words belong to it. -/
theorem run_word {characters : List Char}
    (inWord : ∀ character ∈ characters, endsWord character = false) :
    Scanner.run ⟨found, .inWord read⟩ characters =
      some ⟨found, .inWord (characters.reverse ++ read)⟩ := by
  induction characters generalizing read with
  | nil => rfl
  | cons character rest inductionHypothesis =>
    have taken : Scanner.step ⟨found, .inWord read⟩ character =
        some ⟨found, .inWord (character :: read)⟩ := by
      simp [step, inWord character List.mem_cons_self]
    rw [run, taken]
    dsimp only
    rw [inductionHypothesis (fun other listed => inWord other (List.mem_cons_of_mem _ listed)),
      List.reverse_cons, List.append_assoc, List.singleton_append]

/-- Inside a literal a character that neither ends nor escapes belongs to it. -/
theorem run_plain {character : Char} {rest : List Char} (noQuotation : character ≠ '"')
    (noBackslash : character ≠ '\\') :
    Scanner.run ⟨found, .inLiteral read⟩ (character :: rest) =
      Scanner.run ⟨found, .inLiteral (character :: read)⟩ rest := by
  simp [run, step, noQuotation, noBackslash]

/-- Inside a literal whatever follows a backslash belongs to it. -/
theorem run_escape {character : Char} {rest : List Char} :
    Scanner.run ⟨found, .inLiteral read⟩ ('\\' :: character :: rest) =
      Scanner.run ⟨found, .inLiteral (character :: '\\' :: read)⟩ rest := by
  simp [run, step]

end Scanner

open Scanner

/-- A hexadecimal digit is neither a quotation mark nor a backslash. -/
theorem ne_of_hexDigit? {character : Char} {value : Nat}
    (digit : Text.hexDigit? character = some value) : character ≠ '"' ∧ character ≠ '\\' := by
  constructor <;> rintro rfl <;> cases digit

/-- The four digits of a code are neither quotation marks nor backslashes. -/
theorem ne_of_hexadecimal? {characters : List Char} {value : Nat}
    (code : Text.hexadecimal? characters = some value) :
    ∀ character ∈ characters, character ≠ '"' ∧ character ≠ '\\' := by
  intro character listed
  obtain ⟨digit, read⟩ := Text.exists_hexDigit?_of_hexadecimal? code listed
  exact ne_of_hexDigit? read

/-- Inside a literal a well-formed spelling belongs to it as a whole. A quotation mark ends a literal
only where it is not escaped, and every escape of a well-formed spelling is taken together with the
character or the four digits behind it. The induction follows the units of the spelling. -/
theorem run_spelling {found : List Token} {read spelling : List Char} {units : List Nat}
    (wellFormed : units? spelling = some units) :
    Scanner.run ⟨found, .inLiteral read⟩ spelling =
      some ⟨found, .inLiteral (spelling.reverse ++ read)⟩ := by
  fun_induction units? spelling generalizing read units with
  | case1 => rfl
  | case2 first second third fourth rest inductionHypothesis =>
    obtain ⟨unit, code, further⟩ := Option.bind_eq_some_iff.mp wellFormed
    obtain ⟨later, taken, _⟩ := Option.bind_eq_some_iff.mp further
    obtain ⟨atFirst, atSecond, atThird, atFourth⟩ : (first ≠ '"' ∧ first ≠ '\\') ∧
        (second ≠ '"' ∧ second ≠ '\\') ∧ (third ≠ '"' ∧ third ≠ '\\') ∧
          (fourth ≠ '"' ∧ fourth ≠ '\\') := by
      simpa using ne_of_hexadecimal? code
    rw [run_escape, run_plain atFirst.1 atFirst.2, run_plain atSecond.1 atSecond.2,
      run_plain atThird.1 atThird.2, run_plain atFourth.1 atFourth.2, inductionHypothesis taken]
    simp
  | case3 letter rest noCode inductionHypothesis =>
    obtain ⟨unit, escaped, further⟩ := Option.bind_eq_some_iff.mp wellFormed
    obtain ⟨later, taken, _⟩ := Option.bind_eq_some_iff.mp further
    rw [run_escape, inductionHypothesis taken]
    simp
  | case4 character rest refused => cases wellFormed
  | case5 character rest noCode noEscape kept inductionHypothesis =>
    obtain ⟨later, taken, _⟩ := Option.map_eq_some_iff.mp wellFormed
    obtain ⟨_, noQuotation, noBackslash⟩ : ¬ character.toNat < 32 ∧ character ≠ '"' ∧
        character ≠ '\\' := by
      simpa [not_or] using kept
    rw [run_plain noQuotation noBackslash, inductionHypothesis taken]
    simp

/-- A character that stands between words: punctuation, or one of the four separators. -/
def isMark (character : Char) : Bool :=
  isSeparator character || (Token.ofPunctuation? character).isSome

/-- A text of punctuation and separators only, and not the empty one. -/
def isMarks (text : String) : Bool := !text.toList.isEmpty && text.toList.all isMark

/-- The tokens of a text of punctuation and separators. -/
def marks (text : String) : List Token := text.toList.filterMap Token.ofPunctuation?

/-- A separator is no punctuation. -/
theorem ofPunctuation?_of_isSeparator {character : Char} (separator : isSeparator character = true) :
    Token.ofPunctuation? character = none := by
  simp only [isSeparator, Bool.or_eq_true, beq_iff_eq] at separator
  rcases separator with ((rfl | rfl) | rfl) | rfl <;> rfl

/-- Between words a mark is taken by itself, and a separator leaves no token. -/
theorem begin_mark {found : List Token} {character : Char} (mark : isMark character = true) :
    begin found character = ⟨(Token.ofPunctuation? character).toList ++ found, .between⟩ := by
  by_cases separator : isSeparator character = true
  · rw [begin, if_pos separator, ofPunctuation?_of_isSeparator separator]
    rfl
  · have punctuation : (Token.ofPunctuation? character).isSome = true := by
      rw [isMark, Bool.or_eq_true] at mark
      exact mark.resolve_left separator
    obtain ⟨token, here⟩ := Option.isSome_iff_exists.mp punctuation
    have noQuotation : character ≠ '"' := by
      rintro rfl
      cases here
    rw [begin, if_neg separator, if_neg noQuotation, here]
    rfl

/-- Marks are taken one by one. -/
theorem run_marks {found : List Token} {characters : List Char}
    (allMarks : characters.all isMark = true) :
    Scanner.run ⟨found, .between⟩ characters =
      some ⟨(characters.filterMap Token.ofPunctuation?).reverse ++ found, .between⟩ := by
  induction characters generalizing found with
  | nil => rfl
  | cons character rest inductionHypothesis =>
    rw [List.all_cons, Bool.and_eq_true] at allMarks
    have taken : Scanner.step ⟨found, .between⟩ character =
        some ⟨(Token.ofPunctuation? character).toList ++ found, .between⟩ :=
      congrArg some (begin_mark allMarks.1)
    rw [run, taken]
    dsimp only
    rw [inductionHypothesis allMarks.2, List.filterMap_cons]
    cases Token.ofPunctuation? character <;> simp

/-- Marks complete their tokens whatever follows them. -/
theorem complete_marks {text : String} (allMarks : isMarks text = true) (found : List Token)
    (rest : List Char) :
    complete ⟨found, .between⟩ (text.toList ++ rest) =
      complete ⟨(marks text).reverse ++ found, .between⟩ rest := by
  rw [isMarks, Bool.and_eq_true] at allMarks
  exact complete_of_run (run_marks allMarks.2)

/-- The text behind a word ends it. The end of the text does so as well. -/
def EndsWords (rest : List Char) : Prop := ∀ character ∈ rest.head?, endsWord character = true

/-- Marks end a word before them. -/
theorem endsWords_marks {text : String} (allMarks : isMarks text = true) (rest : List Char) :
    EndsWords (text.toList ++ rest) := by
  rw [isMarks] at allMarks
  cases characters : text.toList with
  | nil =>
    rw [characters] at allMarks
    cases allMarks
  | cons first later =>
    rw [characters, List.all_cons, Bool.and_eq_true, Bool.and_eq_true] at allMarks
    intro character here
    obtain rfl : first = character := by simpa using here
    have mark : isMark first = true := allMarks.2.1
    rw [isMark, Bool.or_eq_true] at mark
    rw [endsWord, Bool.or_eq_true, Bool.or_eq_true]
    exact mark.imp_left Or.inl

/-- A text is scanned as tokens wherever what follows ends words. What was found before is arbitrary, so
texts with this property can be put behind one another wherever the second begins with a mark. -/
def Scans (text : String) (tokens : List Token) : Prop :=
  ∀ found rest, EndsWords rest → complete ⟨found, .between⟩ (text.toList ++ rest) =
    complete ⟨tokens.reverse ++ found, .between⟩ rest

/-- A text that is scanned as tokens has these tokens. -/
theorem tokens?_of_scans {text : String} {tokens : List Token} (scans : Scans text tokens) :
    tokens? text = some tokens := by
  have whole := scans [] [] (fun character listed => nomatch listed)
  rw [List.append_nil, List.append_nil] at whole
  change complete ⟨[], .between⟩ text.toList = some tokens
  rw [whole]
  simp [complete, run, finish]

/-- The empty text has no tokens. -/
theorem scans_empty : Scans "" [] := fun _ _ _ => rfl

/-- Two texts with marks between them are scanned one after the other. -/
theorem scans_joined {first second separator : String} {before after : List Token}
    (allMarks : isMarks separator = true) (scansFirst : Scans first before)
    (scansSecond : Scans second after) :
    Scans (first ++ separator ++ second) (before ++ marks separator ++ after) := by
  intro found rest ends
  rw [String.toList_append, String.toList_append, List.append_assoc, List.append_assoc,
    scansFirst found _ (endsWords_marks allMarks _), complete_marks allMarks, scansSecond _ _ ends]
  simp

/-- A text is scanned between marks. -/
theorem scans_enclosed {text opening closing : String} {tokens : List Token}
    (opens : isMarks opening = true) (closes : isMarks closing = true) (scans : Scans text tokens) :
    Scans (opening ++ text ++ closing) (marks opening ++ tokens ++ marks closing) := by
  intro found rest _
  rw [String.toList_append, String.toList_append, List.append_assoc, List.append_assoc,
    complete_marks opens, scans _ _ (endsWords_marks closes rest), complete_marks closes]
  simp

/-- Parts with marks between them are scanned part by part. -/
theorem scans_intercalate {α : Type} {parts : List α} {separator : String} {text : α → String}
    {tokens : α → List Token} (allMarks : isMarks separator = true)
    (each : ∀ part ∈ parts, Scans (text part) (tokens part)) :
    Scans (separator.intercalate (parts.map text))
      ((marks separator).intercalate (parts.map tokens)) := by
  induction parts with
  | nil => exact scans_empty
  | cons part rest inductionHypothesis =>
    have here : Scans (text part) (tokens part) := each part List.mem_cons_self
    have further := inductionHypothesis (fun other listed => each other (List.mem_cons_of_mem _ listed))
    cases rest with
    | nil => simpa using here
    | cons next others =>
      rw [List.map_cons, List.map_cons, List.map_cons, List.map_cons, String.intercalate_cons_cons,
        List.intercalate_cons_cons]
      exact scans_joined allMarks here further

/-- A word is complete where it ends. -/
theorem complete_word {found : List Token} {read rest : List Char} {token : Token}
    (word : Token.ofWord? read.reverse = some token) (ends : EndsWords rest) :
    complete ⟨found, .inWord read⟩ rest = complete ⟨token :: found, .between⟩ rest := by
  cases rest with
  | nil => simp [complete, run, finish, word]
  | cons character later =>
    have ended : endsWord character = true := ends character rfl
    simp [complete, run, step, ended, word]

/-- A word is scanned as its token. -/
theorem scans_word {text : String} {token : Token}
    (unbroken : text.toList.any endsWord = false)
    (word : Token.ofWord? text.toList = some token) : Scans text [token] := by
  have inWord : ∀ character ∈ text.toList, endsWord character = false :=
    fun character listed => Bool.eq_false_iff.mpr (List.any_eq_false.mp unbroken character listed)
  intro found rest ends
  cases characters : text.toList with
  | nil =>
    rw [characters] at word
    cases word
  | cons first later =>
    rw [characters] at inWord word
    have begins : Scanner.run ⟨found, .between⟩ (first :: later) =
        some ⟨found, .inWord (later.reverse ++ [first])⟩ := by
      have taken : Scanner.step ⟨found, .between⟩ first = some ⟨found, .inWord [first]⟩ :=
        congrArg some (begin_word (inWord first List.mem_cons_self))
      rw [run, taken]
      exact run_word (fun other listed => inWord other (List.mem_cons_of_mem _ listed))
    rw [complete_of_run begins]
    exact complete_word (by simpa using word) ends

/-- A number is scanned as its token. -/
theorem scans_number {spelling : String} (number : isNumber spelling.toList = true) :
    Scans spelling [.number spelling] := by
  refine scans_word (List.any_eq_false.mpr fun character listed => Bool.eq_false_iff.mp
    (endsWord_of_isNumeric (isNumeric_of_isNumber number character listed))) ?_
  have noName : ∀ name, isNumber name = false → spelling.toList ≠ name := by
    rintro name noNumber rfl
    rw [number] at noNumber
    cases noNumber
  rw [Token.ofWord?, if_neg (noName _ rfl), if_neg (noName _ rfl), if_neg (noName _ rfl), if_pos number,
    String.ofList_toList]

/-- A literal with a well-formed spelling is scanned as its token. -/
theorem scans_literal {spelling : String} (wellFormed : isWellFormed spelling = true) :
    Scans (literal spelling) [.string spelling] := by
  intro found rest _
  obtain ⟨units, denoted⟩ := Option.isSome_iff_exists.mp wellFormed
  have characters : (literal spelling).toList = '"' :: (spelling.toList ++ ['"']) := by
    simp [literal]
  have closed : Scanner.run ⟨found, .inLiteral spelling.toList.reverse⟩ ['"'] =
      some ⟨.string spelling :: found, .between⟩ := by
    simp [run, step, Token.ofLiteral?, wellFormed]
  have scanned : Scanner.run ⟨found, .between⟩ ('"' :: (spelling.toList ++ ['"'])) =
      some ⟨.string spelling :: found, .between⟩ := by
    change Scanner.run ⟨found, .inLiteral []⟩ (spelling.toList ++ ['"']) = _
    rw [run_append, run_spelling denoted, List.append_nil]
    exact closed
  rw [characters]
  exact complete_of_run scanned

end DependencyDiagram.Json

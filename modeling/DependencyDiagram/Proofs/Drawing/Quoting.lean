import DependencyDiagram.Proofs.Drawing.Scanning
import DependencyDiagram.Proofs.Text.Replacing

/-!
# Quoted strings

A text can be quoted by three replacements that pass over it one after the other: of backslashes, of
quotation marks and of line breaks. The later two write backslashes, so the replacement of backslashes
has to come first. In this order no replacement touches what an earlier one wrote, and together they
escape every character by itself.

A quoted string is read in two steps. Its end is found without knowing the escapes: a backslash keeps the
character behind it from closing the string, whatever that is. What lies inside then gives the text in
one pass. Reading ends where quoting ended, whatever follows, and a string without line breaks that is
read as a text is the one that quoting writes for it.

The reader is written down without the writer in view. That the two fit is then a result about both.
-/

namespace DependencyDiagram.Drawing

/-- The inside of a quoted string, made by three replacements over the whole text. -/
def escapedInPasses (text : String) : String :=
  ((text.replace '\\' "\\\\").replace '"' "\\\"").replace '\n' "\\n"

/-- The characters behind an opening mark are an inside, the closing mark, and what stands behind it. A
backslash keeps the character behind it from closing. It is a relation between texts and says nothing
about how the end is found. At most one split of a text satisfies it. -/
inductive Closes : List Char → List Char → List Char → Prop where
  | mark (behind : List Char) : Closes ('"' :: behind) [] behind
  | kept {rest inside behind : List Char} (mark : Char) (closes : Closes rest inside behind) :
      Closes ('\\' :: mark :: rest) ('\\' :: mark :: inside) behind
  | plain {rest inside behind : List Char} (character : Char) (quotation : character ≠ '"')
      (backslash : character ≠ '\\') (closes : Closes rest inside behind) :
      Closes (character :: rest) (character :: inside) behind

/-- What stands in front of the first quotation mark that no backslash keeps from closing, and what
stands behind it. It goes from the front to the back once, and a backslash at the very end of the text
closes nothing. -/
def splitAtClosing? : List Char → Option (List Char × List Char)
  | [] => none
  | '"' :: behind => some ([], behind)
  | ['\\'] => none
  | '\\' :: kept :: rest =>
    (splitAtClosing? rest).map (fun (inside, behind) => ('\\' :: kept :: inside, behind))
  | character :: rest =>
    (splitAtClosing? rest).map (fun (inside, behind) => (character :: inside, behind))

/-- The inside of the quoted string with which a text begins, as it is written, and what follows the
string. -/
def quoted? (text : String) : Option (String × String) :=
  match text.toList with
  | '"' :: rest => (splitAtClosing? rest).map (Prod.map String.ofList String.ofList)
  | _ => none

/-- The characters that the inside of a quoted string stands for, read in one pass. There is nothing
behind a backslash but the three marks; any other character there is refused. -/
def denoted? : List Char → Option (List Char)
  | [] => some []
  | ['\\'] => none
  | '\\' :: mark :: rest =>
    (unescaped? mark).bind (fun character => (denoted? rest).map (character :: ·))
  | character :: rest => (denoted? rest).map (character :: ·)

/-- The text that the inside of a quoted string stands for. -/
def unescape? (inside : String) : Option String := (denoted? inside.toList).map String.ofList

/-- What becomes of one character in three passes is its escape. -/
theorem flatMap_substituted (character : Char) :
    ((Text.substituted '\\' "\\\\" character).flatMap (Text.substituted '"' "\\\"")).flatMap
      (Text.substituted '\n' "\\n") = escapeCharacter character := by
  unfold escapeCharacter
  -- a later pass leaves the backslashes of an earlier one, and none writes what a later one seeks
  split
  · rfl
  · rfl
  · rfl
  · next backslash quotation lineBreak =>
    rw [Text.substituted, if_neg backslash, List.flatMap_singleton, Text.substituted,
      if_neg quotation, List.flatMap_singleton, Text.substituted, if_neg lineBreak]

/-- Three replacements one after the other escape every character by itself. -/
theorem escapedInPasses_eq_escape (text : String) : escapedInPasses text = escape text := by
  rw [← String.toList_inj, escape, String.toList_ofList, escapedInPasses, Text.toList_replace,
    Text.toList_replace, Text.toList_replace, List.flatMap_assoc, List.flatMap_assoc]
  simp only [← List.flatMap_assoc, flatMap_substituted]

/-- A character that neither closes nor escapes belongs to the inside. -/
theorem splitAtClosing?_cons {character : Char} (quotation : character ≠ '"')
    (backslash : character ≠ '\\') (rest : List Char) :
    splitAtClosing? (character :: rest) =
      (splitAtClosing? rest).map (fun (inside, behind) => (character :: inside, behind)) := by
  rw [splitAtClosing?]
  · exact quotation
  · exact fun same _ => backslash same
  · exact fun _ _ same _ => backslash same

/-- A character that is no backslash stands for itself. -/
theorem denoted?_cons {character : Char} (backslash : character ≠ '\\') (rest : List Char) :
    denoted? (character :: rest) = (denoted? rest).map (character :: ·) := by
  rw [denoted?]
  · exact fun same _ => backslash same
  · exact fun _ _ same _ => backslash same

/-- The closing mark is found exactly where the inside ends. Being closed is a relation with one rule for
each branch of the search: one direction is by induction along the search and the other by induction
along the rules. -/
theorem splitAtClosing?_eq_some_iff {written inside behind : List Char} :
    splitAtClosing? written = some (inside, behind) ↔ Closes written inside behind := by
  constructor
  · intro found
    induction written using splitAtClosing?.induct generalizing inside with
    | case1 => cases found
    | case2 =>
      cases found
      exact .mark _
    | case3 => cases found
    | case4 mark rest inductionHypothesis =>
      obtain ⟨⟨inner, tail⟩, later, same⟩ := Option.map_eq_some_iff.mp found
      cases same
      exact .kept mark (inductionHypothesis later)
    | case5 character rest quotation lone escaping inductionHypothesis =>
      have backslash : character ≠ '\\' := by
        rintro rfl
        cases rest with
        | nil => exact lone rfl rfl
        | cons mark rest => exact escaping mark rest rfl rfl
      rw [splitAtClosing?_cons quotation backslash] at found
      obtain ⟨⟨inner, tail⟩, later, same⟩ := Option.map_eq_some_iff.mp found
      cases same
      exact .plain character quotation backslash (inductionHypothesis later)
  · intro closes
    induction closes with
    | mark behind => rfl
    | kept mark _ inductionHypothesis => rw [splitAtClosing?, inductionHypothesis, Option.map_some]
    | plain character quotation backslash _ inductionHypothesis =>
      rw [splitAtClosing?_cons quotation backslash, inductionHypothesis, Option.map_some]

/-- A character that is none of the three is written as it is. -/
theorem escapeCharacter_plain {character : Char} (backslash : character ≠ '\\')
    (quotation : character ≠ '"') (lineBreak : character ≠ '\n') :
    escapeCharacter character = [character] := by
  rw [escapeCharacter]
  · exact backslash
  · exact quotation
  · exact lineBreak

/-- A character is escaped by a backslash and a mark that stands for it, or it is written as it is and
is none of the three that are escaped. -/
theorem escapeCharacter_cases (character : Char) :
    (∃ mark, escapeCharacter character = ['\\', mark] ∧ unescaped? mark = some character ∧
        mark ≠ '\n') ∨
      escapeCharacter character = [character] ∧ character ≠ '\\' ∧ character ≠ '"' ∧
        character ≠ '\n' := by
  unfold escapeCharacter
  split
  · exact .inl ⟨'\\', by decide⟩
  · exact .inl ⟨'"', by decide⟩
  · exact .inl ⟨'n', by decide⟩
  · next backslash quotation lineBreak => exact .inr ⟨rfl, backslash, quotation, lineBreak⟩

/-- A mark that stands for a character behind a backslash is the one that escapes it. -/
theorem escapeCharacter_of_unescaped? {mark character : Char}
    (denotes : unescaped? mark = some character) : escapeCharacter character = ['\\', mark] := by
  unfold unescaped? at denotes
  split at denotes <;> cases denotes <;> rfl

/-- Escaped characters end at the first quotation mark behind them. -/
theorem closes_escaped (characters behind : List Char) :
    Closes (characters.flatMap escapeCharacter ++ '"' :: behind)
      (characters.flatMap escapeCharacter) behind := by
  induction characters with
  | nil => exact .mark behind
  | cons character rest inductionHypothesis =>
    rw [List.flatMap_cons, List.append_assoc]
    rcases escapeCharacter_cases character with ⟨mark, escaped, _, _⟩ | ⟨plain, backslash, quotation, _⟩
    · rw [escaped]
      exact .kept mark inductionHypothesis
    · rw [plain]
      exact .plain character quotation backslash inductionHypothesis

/-- Escaped characters stand for themselves. -/
theorem denoted?_escaped (characters : List Char) :
    denoted? (characters.flatMap escapeCharacter) = some characters := by
  induction characters with
  | nil => rfl
  | cons character rest inductionHypothesis =>
    rw [List.flatMap_cons]
    rcases escapeCharacter_cases character with ⟨mark, escaped, denotes, _⟩ | ⟨plain, backslash, _, _⟩
    · rw [escaped, List.cons_append, List.singleton_append, denoted?, denotes, Option.bind_some,
        inductionHypothesis, Option.map_some]
    · rw [plain, List.singleton_append, denoted?_cons backslash, inductionHypothesis,
        Option.map_some]

/-- No line break is left in escaped characters. -/
theorem lineBreak_notMem_escaped (characters : List Char) :
    '\n' ∉ characters.flatMap escapeCharacter := by
  rw [List.mem_flatMap]
  rintro ⟨character, _, listed⟩
  rcases escapeCharacter_cases character with ⟨mark, escaped, _, lineBreak⟩ | ⟨plain, _, _, lineBreak⟩
  · simp [escaped, Ne.symm lineBreak] at listed
  · simp [plain, Ne.symm lineBreak] at listed

variable {written inside behind : List Char}

/-- An inside without line breaks that stands for characters is written by escaping them. -/
theorem eq_escaped_of_closes {characters : List Char} (closes : Closes written inside behind)
    (stands : denoted? inside = some characters) (unbroken : '\n' ∉ inside) :
    written = characters.flatMap escapeCharacter ++ '"' :: behind := by
  induction closes generalizing characters with
  | mark behind =>
    cases stands
    rfl
  | kept mark _ inductionHypothesis =>
    rw [denoted?] at stands
    obtain ⟨character, denotes, read⟩ := Option.bind_eq_some_iff.mp stands
    obtain ⟨further, later, rfl⟩ := Option.map_eq_some_iff.mp read
    simp only [List.mem_cons, not_or] at unbroken
    rw [inductionHypothesis later unbroken.2.2, List.flatMap_cons,
      escapeCharacter_of_unescaped? denotes]
    rfl
  | plain character quotation backslash _ inductionHypothesis =>
    rw [denoted?_cons backslash] at stands
    obtain ⟨further, later, rfl⟩ := Option.map_eq_some_iff.mp stands
    rw [List.mem_cons, not_or] at unbroken
    rw [inductionHypothesis later unbroken.2, List.flatMap_cons,
      escapeCharacter_plain backslash quotation (Ne.symm unbroken.1)]
    rfl

/-- A quoted string with what follows it, character by character. -/
theorem toList_quote_append (text behind : String) :
    (quote text ++ behind).toList =
      '"' :: (text.toList.flatMap escapeCharacter ++ '"' :: behind.toList) := by
  simp [quote, escape]

/-- A text begins with a quoted string exactly when it begins with a quotation mark and another one
closes it. -/
theorem quoted?_eq_some_iff {written inside behind : String} :
    quoted? written = some (inside, behind) ↔
      ∃ rest, written.toList = '"' :: rest ∧ Closes rest inside.toList behind.toList := by
  unfold quoted?
  split
  · next rest begins =>
    rw [Option.map_eq_some_iff]
    constructor
    · rintro ⟨⟨inner, later⟩, closed, same⟩
      cases same
      exact ⟨rest, begins, by simpa using splitAtClosing?_eq_some_iff.mp closed⟩
    · rintro ⟨other, same, closes⟩
      cases begins.symm.trans same
      refine ⟨_, splitAtClosing?_eq_some_iff.mpr closes, ?_⟩
      rw [Prod.map_apply, String.ofList_toList, String.ofList_toList]
  · next other =>
    constructor
    · intro impossible
      cases impossible
    · rintro ⟨rest, begins, _⟩
      exact absurd begins (other rest)

/-- What lies inside a quoted string stands for a text when its characters do. -/
theorem unescape?_eq_some_iff {inside text : String} :
    unescape? inside = some text ↔ denoted? inside.toList = some text.toList := by
  rw [unescape?, Option.map_eq_some_iff]
  constructor
  · rintro ⟨characters, read, rfl⟩
    rw [read, String.toList_ofList]
  · exact fun read => ⟨text.toList, read, String.ofList_toList⟩

/-- A text is quoted by three replacements between two quotation marks. Read from its first character,
and whatever follows it, the string ends exactly where quoting ended. One pass over its inside gives the
text, and no line break is left in it. No other string without line breaks is read as the text. What
follows the string is arbitrary, so a quoted text can stand anywhere in a drawing, in front of further
quoted strings too. The last part is the converse of the others: it says that nothing but quoting writes
a string that is read in this way. -/
theorem quoting_exact (text : String) :
    quote text = "\"" ++ escapedInPasses text ++ "\"" ∧
      (∀ behind, quoted? (quote text ++ behind) = some (escapedInPasses text, behind)) ∧
      unescape? (escapedInPasses text) = some text ∧
      '\n' ∉ (escapedInPasses text).toList ∧
      ∀ written behind, written = quote text ++ behind ↔
        ∃ inside, quoted? written = some (inside, behind) ∧ unescape? inside = some text ∧
          '\n' ∉ inside.toList := by
  have inside : (escape text).toList = text.toList.flatMap escapeCharacter := String.toList_ofList
  have ends (behind : String) : quoted? (quote text ++ behind) = some (escape text, behind) :=
    quoted?_eq_some_iff.mpr ⟨_, toList_quote_append text behind, by
      rw [inside]
      exact closes_escaped _ _⟩
  have stands : unescape? (escape text) = some text := by
    rw [unescape?_eq_some_iff, inside, denoted?_escaped]
  have unbroken : '\n' ∉ (escape text).toList := inside ▸ lineBreak_notMem_escaped text.toList
  rw [escapedInPasses_eq_escape]
  refine ⟨rfl, ends, stands, unbroken, fun written behind => ⟨?_, ?_⟩⟩
  · rintro rfl
    exact ⟨escape text, ends behind, stands, unbroken⟩
  · rintro ⟨found, begins, denotes, whole⟩
    obtain ⟨rest, opened, closed⟩ := quoted?_eq_some_iff.mp begins
    rw [← String.toList_inj, opened, toList_quote_append,
      eq_escaped_of_closes closed (unescape?_eq_some_iff.mp denotes) whole]

end DependencyDiagram.Drawing

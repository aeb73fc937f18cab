import DependencyDiagram.Json.Spelling

/-!
# Spelled texts denote themselves

A text is spelled character by character, and every spelling of a character is read as the one
code unit that is the character's code point. No character is half of a surrogate pair, so these
units denote the characters again: every text is spelled well, and its spelling denotes it.
-/

namespace DependencyDiagram.Json

/-- The four digits of a control's code are read as the code. -/
theorem hexadecimal?_fourDigits :
    ∀ value < 32, Text.hexadecimal? (fourDigits value) = some value := by decide

/-- A character that stands for itself is read as its code point. -/
theorem units?_plain {character : Char} (rest : List Char) (printable : ¬ character.toNat < 32)
    (quotation : character ≠ '"') (backslash : character ≠ '\\') :
    units? (character :: rest) = (units? rest).map (character.toNat :: ·) := by
  rw [units?]
  · rw [if_neg]
    rintro (control | same | same)
    · exact printable control
    · exact quotation same
    · exact backslash same
  · exact fun _ _ _ _ _ same _ => backslash same
  · exact fun _ _ same _ => backslash same

/-- An escape by letter is read as the unit that the letter stands for. -/
theorem units?_letter {letter : Char} {unit : Nat} (rest : List Char) (noCode : letter ≠ 'u')
    (escaped : escapedUnit? letter = some unit) :
    units? ('\\' :: letter :: rest) = (units? rest).map (unit :: ·) := by
  rw [units?, escaped]
  · cases units? rest <;> rfl
  · exact fun _ _ _ _ _ same _ => noCode same

/-- An escape by code is read as the code. -/
theorem units?_code {first second third fourth : Char} {unit : Nat} (rest : List Char)
    (code : Text.hexadecimal? [first, second, third, fourth] = some unit) :
    units? ('\\' :: 'u' :: first :: second :: third :: fourth :: rest) =
      (units? rest).map (unit :: ·) := by
  rw [units?, code]
  cases units? rest <;> rfl

/-- The spelling of a character is read as the character's code point. -/
theorem units?_spellCharacter (character : Char) (rest : List Char) :
    units? (spellCharacter character ++ rest) = (units? rest).map (character.toNat :: ·) := by
  unfold spellCharacter
  split
  · exact units?_letter rest (by decide) rfl
  · exact units?_letter rest (by decide) rfl
  · exact units?_letter rest (by decide) rfl
  · exact units?_letter rest (by decide) rfl
  · exact units?_letter rest (by decide) rfl
  · exact units?_letter rest (by decide) rfl
  · exact units?_letter rest (by decide) rfl
  · rename_i quotation backslash _ _ _ _ _
    split
    · rename_i control
      exact units?_code rest (hexadecimal?_fourDigits character.toNat control)
    · rename_i printable
      exact units?_plain rest printable quotation backslash

/-- The spelling of a text is read as the code points of its characters. -/
theorem units?_spell (characters : List Char) :
    units? (characters.flatMap spellCharacter) = some (characters.map Char.toNat) := by
  induction characters with
  | nil => rfl
  | cons character rest inductionHypothesis =>
    rw [List.flatMap_cons, units?_spellCharacter, inductionHypothesis, Option.map_some, List.map_cons]

/-- No character is half of a surrogate pair. -/
theorem not_half (character : Char) :
    isHighHalf character.toNat = false ∧ isLowHalf character.toNat = false := by
  have valid : character.toNat < 0xD800 ∨ 0xDFFF < character.toNat ∧ character.toNat < 0x110000 :=
    character.valid
  constructor
  · rw [isHighHalf, Bool.and_eq_false_iff, decide_eq_false_iff_not, decide_eq_false_iff_not]
    omega
  · rw [isLowHalf, Bool.and_eq_false_iff, decide_eq_false_iff_not, decide_eq_false_iff_not]
    omega

/-- The code point of a character denotes it. -/
theorem loneCharacter?_toNat (character : Char) :
    loneCharacter? character.toNat = some character := by
  obtain ⟨high, low⟩ := not_half character
  simp [loneCharacter?, high, low]

/-- The code points of characters denote them. -/
theorem characters?_map_toNat (characters : List Char) :
    characters? (characters.map Char.toNat) = some characters := by
  induction characters with
  | nil => rfl
  | cons first rest inductionHypothesis =>
    cases rest with
    | nil => simp [characters?, loneCharacter?_toNat]
    | cons second further =>
      rw [List.map_cons] at inductionHypothesis
      simp [characters?, (not_half first).1, loneCharacter?_toNat, inductionHypothesis]

/-- The spelling of a text denotes the text. -/
@[simp]
theorem unspell?_spell (text : String) : unspell? (spell text) = some text := by
  simp [unspell?, spell, units?_spell, characters?_map_toNat]

/-- Every text is spelled well. -/
@[simp]
theorem isWellFormed_spell (text : String) : isWellFormed (spell text) = true := by
  simp [isWellFormed, spell, units?_spell]

end DependencyDiagram.Json

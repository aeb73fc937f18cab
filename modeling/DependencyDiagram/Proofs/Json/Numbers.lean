import DependencyDiagram.Json.Token
import DependencyDiagram.Proofs.Identity.Codec
import Mathlib.Data.List.TakeWhile

/-!
# Spelled numbers

A number is spelled with digits, signs, a point and the letter of an exponent. None of these ends
a word, so a spelled number is a word as a whole. The digits of a natural number begin with a zero
only for zero itself; so they spell a whole number, and it is the number that they denote.
-/

namespace DependencyDiagram.Json

/-- A character that may occur in a number. -/
def isNumeric (character : Char) : Bool :=
  character.isDigit || ['-', '+', '.', 'e', 'E'].contains character

/-- No character of a number ends a word. -/
theorem endsWord_of_isNumeric {character : Char} (numeric : isNumeric character = true) :
    Scanner.endsWord character = false := by
  by_contra ends
  rw [Bool.not_eq_false, Scanner.endsWord, isSeparator] at ends
  simp only [Bool.or_eq_true, beq_iff_eq] at ends
  rcases ends with ((((rfl | rfl) | rfl) | rfl) | rfl) | mark
  · exact absurd numeric (by decide)
  · exact absurd numeric (by decide)
  · exact absurd numeric (by decide)
  · exact absurd numeric (by decide)
  · exact absurd numeric (by decide)
  · unfold Token.ofPunctuation? at mark
    split at mark
    all_goals first | exact absurd numeric (by decide) | cases mark

/-- Whatever a text has in front of a rest is numeric. -/
def NumericUpTo (rest characters : List Char) : Prop :=
  ∀ character ∈ characters, isNumeric character = true ∨ character ∈ rest

namespace NumericUpTo

variable {rest middle characters : List Char}

/-- Nothing is in front of the whole text. -/
theorem refl (rest : List Char) : NumericUpTo rest rest := fun _ listed => Or.inr listed

/-- One more numeric character may come first. -/
theorem cons {first : Char} (numeric : isNumeric first = true)
    (further : NumericUpTo rest characters) : NumericUpTo rest (first :: characters) := by
  intro character listed
  rcases List.mem_cons.mp listed with rfl | later
  · exact Or.inl numeric
  · exact further character later

/-- What is numeric up to a text that is numeric up to a rest is numeric up to the rest. -/
theorem trans (first : NumericUpTo middle characters) (second : NumericUpTo rest middle) :
    NumericUpTo rest characters :=
  fun character listed => (first character listed).elim Or.inl (second character)

end NumericUpTo

/-- Leading digits are numeric. -/
theorem numericUpTo_afterDigits? {characters rest : List Char}
    (dropped : afterDigits? characters = some rest) : NumericUpTo rest characters := by
  have numeric : ∀ character : Char, character.isDigit = true → isNumeric character = true :=
    fun character digit => by rw [isNumeric, digit, Bool.true_or]
  cases characters with
  | nil => cases dropped
  | cons first further =>
    rw [afterDigits?] at dropped
    split at dropped
    · rename_i digit
      obtain rfl := Option.some.inj dropped
      refine .cons (numeric first digit) ?_
      intro character listed
      rw [← List.takeWhile_append_dropWhile (p := Char.isDigit) (l := further)] at listed
      rcases List.mem_append.mp listed with taken | left
      · exact Or.inl (numeric character (List.mem_takeWhile_imp taken))
      · exact Or.inr left
    · cases dropped

/-- A whole number is numeric. -/
theorem numericUpTo_afterWhole? {characters rest : List Char}
    (dropped : afterWhole? characters = some rest) : NumericUpTo rest characters := by
  unfold afterWhole? at dropped
  split at dropped
  · obtain rfl := Option.some.inj dropped
    exact .cons rfl (.refl _)
  · exact numericUpTo_afterDigits? dropped

/-- A fraction is numeric. -/
theorem numericUpTo_afterFraction? {characters rest : List Char}
    (dropped : afterFraction? characters = some rest) : NumericUpTo rest characters := by
  unfold afterFraction? at dropped
  split at dropped
  · exact .cons rfl (numericUpTo_afterDigits? dropped)
  · obtain rfl := Option.some.inj dropped
    exact .refl _

/-- A sign is numeric. -/
theorem numericUpTo_afterSign (characters : List Char) :
    NumericUpTo (afterSign characters) characters := by
  unfold afterSign
  split
  · exact .cons rfl (.refl _)
  · exact .cons rfl (.refl _)
  · exact .refl _

/-- An exponent is numeric. -/
theorem numericUpTo_afterExponent? {characters rest : List Char}
    (dropped : afterExponent? characters = some rest) : NumericUpTo rest characters := by
  unfold afterExponent? at dropped
  split at dropped
  · exact .cons rfl ((numericUpTo_afterSign _).trans (numericUpTo_afterDigits? dropped))
  · exact .cons rfl ((numericUpTo_afterSign _).trans (numericUpTo_afterDigits? dropped))
  · obtain rfl := Option.some.inj dropped
    exact .refl _

/-- A minus sign is numeric. -/
theorem numericUpTo_afterMinus (characters : List Char) :
    NumericUpTo (afterMinus characters) characters := by
  unfold afterMinus
  split
  · exact .cons rfl (.refl _)
  · exact .refl _

/-- The characters of a number are numeric. -/
theorem isNumeric_of_isNumber {characters : List Char} (number : isNumber characters = true) :
    ∀ character ∈ characters, isNumeric character = true := by
  rw [isNumber, beq_iff_eq] at number
  obtain ⟨afterFraction, upToFraction, exponent⟩ := Option.bind_eq_some_iff.mp number
  obtain ⟨afterWhole, whole, fraction⟩ := Option.bind_eq_some_iff.mp upToFraction
  have upToEnd : NumericUpTo [] characters :=
    ((numericUpTo_afterMinus characters).trans (numericUpTo_afterWhole? whole)).trans
      ((numericUpTo_afterFraction? fraction).trans (numericUpTo_afterExponent? exponent))
  exact fun character listed => (upToEnd character listed).resolve_right List.not_mem_nil

/-- The digits of a number other than zero do not begin with a zero. -/
theorem head?_toDigits_ne_zero {value : Nat} (positive : 0 < value) :
    (Nat.toDigits 10 value).head? ≠ some '0' := by
  induction value using Nat.strongRecOn with
  | ind value inductionHypothesis =>
    rw [Nat.toDigits_eq_if (by decide)]
    split
    · rename_i single
      have nonzero : ∀ digit < 10, 0 < digit → Nat.digitChar digit ≠ '0' := by decide
      simpa using nonzero value single positive
    · rw [List.head?_append_of_ne_nil _ Nat.toDigits_ne_nil]
      exact inductionHypothesis (value / 10) (by omega) (by omega)

/-- A number's text is that of a whole number, with no needless zeros. -/
theorem afterWhole?_toString (value : Nat) : afterWhole? (toString value).toList = some [] := by
  rcases Nat.eq_zero_or_pos value with rfl | positive
  · rfl
  · have leading := head?_toDigits_ne_zero positive
    rw [← toList_toString] at leading
    cases digits : (toString value).toList with
    | nil => exact absurd (toList_toString value ▸ digits) Nat.toDigits_ne_nil
    | cons first rest =>
      have isDigit : ∀ character ∈ first :: rest, character.isDigit = true :=
        fun character listed => isDigit_of_mem_toString (digits ▸ listed)
      have noZero : first ≠ '0' := by
        rintro rfl
        exact leading (by rw [digits]; rfl)
      have dropped : rest.dropWhile Char.isDigit = [] :=
        List.dropWhile_eq_nil_iff.mpr (fun character listed => isDigit character (List.mem_cons_of_mem _ listed))
      rw [afterWhole?, afterDigits?, if_pos (isDigit first List.mem_cons_self), dropped]
      rintro other same
      exact noZero (List.cons.inj same).1

/-- A number's text spells a number. -/
theorem isNumber_toString (value : Nat) : isNumber (toString value).toList = true := by
  have unsigned : afterMinus (toString value).toList = (toString value).toList := by
    unfold afterMinus
    split
    · rename_i rest digits
      exact absurd (isDigit_of_mem_toString (digits ▸ List.mem_cons_self)) (by decide)
    · rfl
  rw [isNumber, unsigned, afterWhole?_toString]
  rfl

/-- A number's text is read back as the number, if it is within the bound. -/
theorem wholeNumber?_toString (bound value : Nat) :
    wholeNumber? bound (toString value) = if value ≤ bound then some value else none := by
  rw [wholeNumber?, if_pos (afterWhole?_toString value), digits?_toString]
  simp [Option.filter_some]

end DependencyDiagram.Json

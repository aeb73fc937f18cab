/-!
# Reading numerals

Numbers are read from decimal digits of the ASCII range only. Leading zeros are allowed, a
plus sign may come first, and a value above the stated bound is no number. Each reader
takes the whole text: an empty text, a lone sign or any other character is refused.
-/

namespace DependencyDiagram.Text

/-- The value of a nonempty run of decimal digits. -/
def digits? (characters : List Char) : Option Nat :=
  if characters ≠ [] ∧ characters.all Char.isDigit then
    some (Nat.ofDigitChars 10 characters 0)
  else none

/-- Drop one plus sign in front. -/
def withoutPlus : List Char → List Char
  | '+' :: rest => rest
  | characters => characters

/-- A natural number up to `bound`, written in decimal with an optional plus sign. -/
def natural? (bound : Nat) (text : String) : Option Nat :=
  (digits? (withoutPlus text.toList)).filter (· ≤ bound)

/-- An integer from `-(bound + 1)` to `bound`, written in decimal with an optional sign. -/
def integer? (bound : Nat) (text : String) : Option Int :=
  match text.toList with
  | '-' :: rest => ((digits? rest).filter (· ≤ bound + 1)).map (fun size => -(size : Int))
  | characters => ((digits? (withoutPlus characters)).filter (· ≤ bound)).map Int.ofNat

/-- The value of one hexadecimal digit of either case. -/
def hexDigit? (character : Char) : Option Nat :=
  if character.isDigit then some (character.toNat - '0'.toNat)
  else if 'a' ≤ character ∧ character ≤ 'f' then some (character.toNat - 'a'.toNat + 10)
  else if 'A' ≤ character ∧ character ≤ 'F' then some (character.toNat - 'A'.toNat + 10)
  else none

/-- The value of a nonempty run of hexadecimal digits. -/
def hexadecimal? (characters : List Char) : Option Nat :=
  if characters = [] then none
  else characters.foldlM (fun total character =>
    (hexDigit? character).map (total * 16 + ·)) 0

/-- Every character of a hexadecimal numeral is a digit. -/
theorem exists_hexDigit?_of_hexadecimal? {characters : List Char} {value : Nat}
    (read : hexadecimal? characters = some value) {character : Char} (listed : character ∈ characters) :
    ∃ digit, hexDigit? character = some digit := by
  have digits : ∀ (total result : Nat), characters.foldlM (fun total character =>
      (hexDigit? character).map (total * 16 + ·)) total = some result →
      ∀ character ∈ characters, ∃ digit, hexDigit? character = some digit := by
    clear read listed
    induction characters with
    | nil => exact fun _ _ _ character listed => nomatch listed
    | cons first rest inductionHypothesis =>
      intro total result ran character listed
      rw [List.foldlM_cons] at ran
      obtain ⟨next, taken, further⟩ := Option.bind_eq_some_iff.mp ran
      obtain ⟨digit, here, _⟩ := Option.map_eq_some_iff.mp taken
      rcases List.mem_cons.mp listed with rfl | later
      · exact ⟨digit, here⟩
      · exact inductionHypothesis next result further character later
  rw [hexadecimal?] at read
  split at read
  · cases read
  · exact digits 0 value read character listed

/-- The largest value of thirty-two bits. -/
def maxWord32 : Nat := 4294967295

/-- The largest value of sixty-four bits. -/
def maxWord64 : Nat := 18446744073709551615

/-- Signs and leading zeros are read; other digits, blanks and values out of range are not. -/
example :
    natural? maxWord32 "+007" = some 7 ∧ natural? maxWord32 "4294967296" = none ∧
      natural? maxWord32 "+" = none ∧ natural? maxWord32 "-0" = none ∧
      natural? maxWord32 "\u0661" = none := by decide

/-- The negative range reaches one further than the positive range. -/
example :
    integer? 127 "-128" = some (-128) ∧ integer? 127 "128" = none ∧ integer? 127 "-0" = some 0 ∧
      integer? 127 "-" = none := by decide

end DependencyDiagram.Text

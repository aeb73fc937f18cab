import DependencyDiagram.Failure
import DependencyDiagram.Text.Numeral

/-!
# Names and tokens

The fields of an identifier are names and positive numbers. A name is never empty and holds
neither of the two characters that separate fields and endpoints, so an identifier's flat
text can be cut without doubt. A token is a positive number of thirty-two bits; zero never
identifies anything. Both conditions are part of the types.
-/

namespace DependencyDiagram

/-- The character between the fields of a node's identifier. -/
def fieldSeparator : Char := '|'

/-- The character between the two endpoints of an edge's identifier. -/
def endpointSeparator : Char := '~'

/-- A text that may stand as a field: not empty and free of both separators. Every field of
an identifier that is not a number or a fixed word is one of these. -/
structure Name where
  text : String
  nonempty : text ≠ ""
  unseparated : fieldSeparator ∉ text.toList ∧ endpointSeparator ∉ text.toList
deriving DecidableEq

namespace Name

/-- Admit a text as a name, or say which condition it breaks. -/
def ofText (text : String) : Except Failure Name :=
  if empty : text = "" then .error (Failure.invalidNodeId text "name is empty")
  else if separated : fieldSeparator ∈ text.toList ∨ endpointSeparator ∈ text.toList then
    .error (Failure.invalidNodeId text "name contains a reserved separator ('|' or '~')")
  else .ok ⟨text, empty, not_or.mp separated⟩

/-- A name's own text is admitted again. -/
theorem ofText_text (name : Name) : ofText name.text = .ok name := by
  simp [ofText, name.nonempty, name.unseparated]

/-- An admitted text is the text of its name. -/
theorem text_of_ofText {text : String} {name : Name} (admitted : ofText text = .ok name) :
    name.text = text := by
  unfold ofText at admitted
  split at admitted
  · cases admitted
  · split at admitted
    · cases admitted
    · cases admitted
      rfl

end Name

/-- A positive number of thirty-two bits. The bounds are part of it, so that whatever is
made with a token can be written and read back. -/
structure Token where
  value : Nat
  positive : 0 < value
  bounded : value ≤ Text.maxWord32
deriving DecidableEq

namespace Token

/-- Admit a number as a token. -/
def ofNat? (value : Nat) : Option Token :=
  if fits : 0 < value ∧ value ≤ Text.maxWord32 then some ⟨value, fits.1, fits.2⟩ else none

/-- The first token. -/
def one : Token := ⟨1, by decide, by decide⟩

/-- The token after this one; the last token is followed by itself. -/
def next (token : Token) : Token :=
  if room : token.value < Text.maxWord32 then ⟨token.value + 1, by omega, room⟩ else token

/-- A token's own number is admitted again. -/
theorem ofNat?_value (token : Token) : ofNat? token.value = some token := by
  simp [ofNat?, token.positive, token.bounded]

end Token

end DependencyDiagram

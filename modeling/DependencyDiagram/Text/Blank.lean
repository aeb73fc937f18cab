import DependencyDiagram.Text.CharacterSet

/-!
# Blank characters

The characters with the Unicode property White_Space. Core's own test for whitespace
knows only four of them.
-/

namespace DependencyDiagram.Text

/-- The twenty-five code points with the property White_Space. -/
def blankCharacters : CharacterSet where
  edges := [9, 14, 32, 33, 133, 134, 160, 161, 5760, 5761, 8192, 8203, 8232, 8234, 8239, 8240,
    8287, 8288, 12288, 12289]

/-- A character that separates words without being visible. -/
def isBlank (character : Char) : Bool := blankCharacters.contains character

/-- The wide blanks count, and a character of no width does not. -/
example :
    isBlank '\u00a0' = true ∧ isBlank '\u2003' = true ∧ isBlank '\u200b' = false := by decide

end DependencyDiagram.Text

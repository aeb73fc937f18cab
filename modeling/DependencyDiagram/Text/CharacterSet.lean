/-!
# Sets of characters given by their edges

A set of characters is held as the ascending list of code points at which membership
changes, beginning outside the set. A code point lies inside exactly when an odd number
of these edges lies at or below it. The tables of the character properties are data of
this form, and they state nothing about any text.
-/

namespace DependencyDiagram.Text

/-- The ascending code points at which membership in a set of characters changes. Two
neighbouring edges bound a range of characters that have the same answer. -/
structure CharacterSet where
  edges : List Nat

/-- Membership counts the edges at or below the character. -/
def CharacterSet.contains (set : CharacterSet) (character : Char) : Bool :=
  (set.edges.takeWhile (· ≤ character.toNat)).length % 2 == 1

end DependencyDiagram.Text

/-!
# Cutting text

Flat identifiers and paths are cut at a single separating character. Cutting keeps empty
pieces, so the pieces joined by the separator are the text again. A cut at the first
separator reports when there is none. A leading or trailing part is removed only where it
occurs in full.
-/

namespace DependencyDiagram.Text

/-- The pieces of a text between the occurrences of a separator, empty pieces included. -/
def pieces (separator : Char) (text : String) : List String :=
  (text.toList.splitOn separator).map String.ofList

/-- The two sides of the first separator, or nothing when the text holds none. -/
def cutFirst? (separator : Char) (text : String) : Option (String × String) :=
  match text.toList.dropWhile (· != separator) with
  | [] => none
  | _ :: after => some (String.ofList (text.toList.takeWhile (· != separator)), String.ofList after)

/-- What follows a leading part, or nothing when the text does not begin with it. -/
def afterLeading? (leading text : String) : Option String :=
  (leading.toList.isPrefixOf? text.toList).map String.ofList

/-- What precedes a trailing part, or nothing when the text does not end in it. -/
def beforeTrailing? (trailing text : String) : Option String :=
  (trailing.toList.isSuffixOf? text.toList).map String.ofList

/-- A text begins with another. -/
def beginsWith (leading text : String) : Bool := leading.toList.isPrefixOf text.toList

/-- Cutting keeps the empty pieces at either end and between two separators. -/
example : pieces '|' "|a||" = ["", "a", "", ""] := by decide

/-- Only the first separator cuts; the later ones belong to the right side. -/
example : cutFirst? '~' "a~b~c" = some ("a", "b~c") ∧ cutFirst? '~' "ab" = none := by
  decide

end DependencyDiagram.Text

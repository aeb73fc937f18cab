/-!
# Occurrences of a pattern

A pattern is a function that recognizes a beginning of a character list and says how many
characters it takes. Going from left to right, the first place at which the pattern holds is
an occurrence, and the search goes on behind it; all other characters are passed over. So
occurrences never overlap, and the text is the passed characters and the occurrences in
order.
-/

namespace DependencyDiagram.Text

universe u
variable {α : Type u}

/-- A part of a text: a character outside of every occurrence, or an occurrence. -/
inductive Part (α : Type u) where
  | passed (character : Char)
  | occurrence (value : α)
deriving DecidableEq, Repr

/-- The parts of a text behind characters that belong to an earlier occurrence. -/
def partsBehind (pattern : List Char → Option (α × Nat)) : Nat → List Char → List (Part α)
  | _, [] => []
  | skipped + 1, _ :: rest => partsBehind pattern skipped rest
  | 0, character :: rest =>
    match pattern (character :: rest) with
    | some (value, length) => .occurrence value :: partsBehind pattern (length - 1) rest
    | none => .passed character :: partsBehind pattern 0 rest

/-- The parts of a text. -/
def parts (pattern : List Char → Option (α × Nat)) (characters : List Char) : List (Part α) :=
  partsBehind pattern 0 characters

/-- The occurrences in a text, in order. -/
def occurrences (pattern : List Char → Option (α × Nat)) (characters : List Char) : List α :=
  (parts pattern characters).filterMap (fun part =>
    match part with
    | .passed _ => none
    | .occurrence value => some value)

/-- Replace every occurrence by the characters that the pattern yields. -/
def replaceOccurrences (pattern : List Char → Option (List Char × Nat)) (characters : List Char) :
    List Char :=
  (parts pattern characters).flatMap (fun part =>
    match part with
    | .passed character => [character]
    | .occurrence value => value)

end DependencyDiagram.Text

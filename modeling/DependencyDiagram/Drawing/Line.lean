import DependencyDiagram.Text.Pieces

/-!
# Drawings as text

A drawing in the DOT language is a list of lines inside one graph. Every name and value is
a quoted string, in which quotation mark, backslash and line break are escaped and nothing
else is; so a string ends at its first quotation mark that is not escaped. Clusters are
opened and closed by lines of their own and only affect the indentation of what lies
between; a line that closes a cluster that was never opened stays at the margin.
-/

namespace DependencyDiagram.Drawing

/-- The escape of one character inside a quoted string. -/
def escapeCharacter (character : Char) : List Char :=
  match character with
  | '\\' => ['\\', '\\']
  | '"' => ['\\', '"']
  | '\n' => ['\\', 'n']
  | _ => [character]

/-- The inside of a quoted string. -/
def escape (text : String) : String := String.ofList (text.toList.flatMap escapeCharacter)

/-- A text as a quoted string. -/
def quote (text : String) : String := "\"" ++ escape text ++ "\""

/-- One line of a drawing, or an opened cluster with the lines of its attributes. Names and
values are kept as they are meant and are quoted only when the line is written. -/
inductive Line where
  | setting (key value : String)
  | nodeStyle (attributes : List (String × String))
  | node (name : String) (attributes : List (String × String))
  | edge (tail head : String) (attributes : List (String × String))
  | openCluster (name : String) (attributes : List (String × String))
  | closeCluster
  | blank
deriving DecidableEq, Repr

/-- The indentation at a depth. -/
def indent (depth : Nat) : String := String.join (List.replicate depth "  ")

/-- An attribute with its quoted value. -/
def assignment (pair : String × String) : String := pair.1 ++ "=" ++ quote pair.2

/-- A list of attributes in brackets. -/
def attributeList (attributes : List (String × String)) : String :=
  "[" ++ ", ".intercalate (attributes.map assignment) ++ "]"

/-- An attribute on a line of its own. -/
def assignmentLine (depth : Nat) (pair : String × String) : String :=
  indent depth ++ assignment pair ++ ";\n"

namespace Line

/-- The depth behind a line. -/
def depthAfter (depth : Nat) : Line → Nat
  | openCluster _ _ => depth + 1
  | closeCluster => depth - 1
  | _ => depth

/-- A line at a depth, with its line break. -/
def render (depth : Nat) : Line → String
  | setting key value => assignmentLine depth (key, value)
  | nodeStyle attributes => indent depth ++ "node " ++ attributeList attributes ++ ";\n"
  | node name attributes => indent depth ++ quote name ++ " " ++ attributeList attributes ++ ";\n"
  | edge tail head attributes =>
    indent depth ++ quote tail ++ " -> " ++ quote head ++ " " ++ attributeList attributes ++ ";\n"
  | openCluster name attributes =>
    indent depth ++ "subgraph " ++ quote name ++ " \x7b\n" ++
      String.join (attributes.map (assignmentLine (depth + 1)))
  | closeCluster => indent (depth - 1) ++ "\x7d\n"
  | blank => "\n"

/-- Lines one after the other, beginning at a depth. -/
def renderAll : Nat → List Line → String
  | _, [] => ""
  | depth, line :: rest => line.render depth ++ renderAll (line.depthAfter depth) rest

end Line

/-- The whole text of a drawing. -/
def render (name : String) (lines : List Line) : String :=
  "digraph " ++ quote name ++ " \x7b\n" ++ Line.renderAll 1 lines ++ "\x7d\n"

/-- Only three characters are escaped. -/
example : quote "a\"b\\c\nd\t" = "\"a\\\"b\\\\c\\nd\t\"" := by decide

end DependencyDiagram.Drawing

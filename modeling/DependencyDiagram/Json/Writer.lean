import DependencyDiagram.Json.Value

/-!
# Writing JSON values

The compact form has no space at all. The indented form puts every item and member on a
line of its own, two spaces deeper than its container, and a space behind each colon; an
empty container stays on one line. Neither form ends in a line break.
-/

namespace DependencyDiagram.Json

/-- A literal with the given spelling. -/
def literal (spelling : String) : String := "\"" ++ spelling ++ "\""

mutual

/-- The compact form of a value. -/
def compact : Json → String
  | null => "null"
  | bool value => if value then "true" else "false"
  | number spelling => spelling
  | string spelling => literal spelling
  | array items => "[" ++ ",".intercalate (compactItems items) ++ "]"
  | object members => "\x7b" ++ ",".intercalate (compactMembers members) ++ "\x7d"

/-- The compact forms of the items of an array. -/
def compactItems : List Json → List String
  | [] => []
  | item :: rest => compact item :: compactItems rest

/-- The compact forms of the members of an object. -/
def compactMembers : List (String × Json) → List String
  | [] => []
  | (key, value) :: rest => (literal key ++ ":" ++ compact value) :: compactMembers rest

end

/-- A line break and the indentation of a depth. -/
def lineAt (depth : Nat) : String := "\n" ++ String.join (List.replicate depth "  ")

/-- The parts of a container between its brackets, each on a line of its own. -/
def indentedParts (opening closing : String) (depth : Nat) (parts : List String) : String :=
  if parts.isEmpty then opening ++ closing
  else opening ++ lineAt (depth + 1) ++ ("," ++ lineAt (depth + 1)).intercalate parts ++
    lineAt depth ++ closing

mutual

/-- The indented form of a value at a depth. -/
def indentedAt (depth : Nat) : Json → String
  | null => "null"
  | bool value => if value then "true" else "false"
  | number spelling => spelling
  | string spelling => literal spelling
  | array items => indentedParts "[" "]" depth (indentedItems (depth + 1) items)
  | object members => indentedParts "\x7b" "\x7d" depth (indentedMembers (depth + 1) members)

/-- The indented forms of the items of an array. -/
def indentedItems (depth : Nat) : List Json → List String
  | [] => []
  | item :: rest => indentedAt depth item :: indentedItems depth rest

/-- The indented forms of the members of an object. -/
def indentedMembers (depth : Nat) : List (String × Json) → List String
  | [] => []
  | (key, value) :: rest =>
    (literal key ++ ": " ++ indentedAt depth value) :: indentedMembers depth rest

end

/-- The indented form of a value. -/
def indented (value : Json) : String := indentedAt 0 value

/-- Empty containers stay on one line. -/
example :
    indented (object [("a", array []), ("b", object [("c", null)])]) =
      "\x7b\n  \"a\": [],\n  \"b\": \x7b\n    \"c\": null\n  \x7d\n\x7d" := by decide +kernel

/-- Reading undoes writing at an example with repeated keys. -/
example :
    (read? " [ \x7b\"a\" : 1.50, \"a\":[ ]\x7d ] ").map compact =
      some "[\x7b\"a\":1.50,\"a\":[]\x7d]" := by decide +kernel

end DependencyDiagram.Json

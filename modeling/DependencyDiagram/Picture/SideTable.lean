import DependencyDiagram.Ordered.Table
import DependencyDiagram.Json.Writer
import DependencyDiagram.Json.Fields

/-!
# Side tables

A side table lists, for every element of a picture, the class by which it is styled and the
tooltip shown for it. Elements are named by the text of their identifiers and stay in the
order in which the picture mentions them. The table has a JSON form: an object with one
member per element, in which an absent tooltip is left out.
-/

namespace DependencyDiagram

/-- What a display needs to style one element. The tooltip of a node is its full label,
however much of it is drawn. -/
structure ElementAttributes where
  className : String
  tooltip : Option String
deriving DecidableEq, Repr

namespace ElementAttributes

/-- The JSON form, without an absent tooltip. -/
def toJson (attributes : ElementAttributes) : Json :=
  Json.ofMembers (("className", Json.ofText attributes.className) ::
    (attributes.tooltip.map (fun tooltip => ("tooltip", Json.ofText tooltip))).toList)

/-- The attributes that a JSON value holds. Given by position, both must be there. -/
def ofJson? (value : Json) : Option ElementAttributes := do
  let fields ← value.completeFields? ["className", "tooltip"]
  return {
    className := ← fields.required "className" Json.text?
    tooltip := ← fields.withDefault "tooltip" none (Json.nullable? Json.text?) }

end ElementAttributes

/-- The classes of elements. The first three are for nodes and the others for edges and
their labels, so the class of an element tells these apart. -/
inductive ElementClass where
  | leaf
  | closed
  | expanded
  | leafEdge
  | groupEdge
  | edgeLabel
deriving DecidableEq, Repr

/-- The name of a class. -/
def ElementClass.name : ElementClass → String
  | leaf => "leaf"
  | closed => "closed"
  | expanded => "expanded"
  | leafEdge => "leaf-edge"
  | groupEdge => "group-edge"
  | edgeLabel => "edge-label"

/-- The attributes of every element of a picture, by the text of its identifier. -/
abbrev SideTable := Table String ElementAttributes

namespace SideTable

/-- The JSON form, elements in order. -/
def toJson (side : SideTable) : Json :=
  Json.ofMembers (side.entries.map (fun entry => (entry.1, entry.2.toJson)))

/-- The side table that a JSON value holds. -/
def ofJson? (value : Json) : Option SideTable :=
  value.table? Json.unspell? ElementAttributes.ofJson?

/-- The side table that a text holds. -/
def read? (text : String) : Option SideTable := (Json.read? text).bind ofJson?

end SideTable

end DependencyDiagram

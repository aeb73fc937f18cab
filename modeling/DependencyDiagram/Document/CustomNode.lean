import DependencyDiagram.Document.Reflection
import DependencyDiagram.Text.Pieces

/-!
# Custom graphs

A user can supply a graph of named nodes with dependencies and layers. A node's layer is a
path of tags with slashes between them, of which empty tags are dropped. The label, the
layer and the dependencies may be left out. What all views are built from is a reflection
document together with such a graph.
-/

namespace DependencyDiagram

/-- A node of a graph that a user supplied. Identifiers may repeat, and dependencies may
name nodes that are not there; the view decides what becomes of these. -/
structure CustomNode where
  id : String
  label : Option String
  layer : Option String
  dependencies : List String
deriving DecidableEq, Repr

namespace CustomNode

/-- The tags of the node's layer, outermost first. -/
def layerTags (node : CustomNode) : List String :=
  match node.layer with
  | none => []
  | some layer => (Text.pieces '/' layer).filter (· ≠ "")

/-- The JSON form; an absent label or layer is left out. -/
def toJson (node : CustomNode) : Json :=
  Json.ofMembers (("id", Json.ofText node.id) ::
    (node.label.map (fun label => ("label", Json.ofText label))).toList ++
    (node.layer.map (fun layer => ("layer", Json.ofText layer))).toList ++
    [("dependencies", .array (node.dependencies.map Json.ofText))])

/-- The node that a JSON value holds. -/
def ofJson? (value : Json) : Option CustomNode := do
  let fields ← value.fields? ["id", "label", "layer", "dependencies"]
  return {
    id := ← fields.required "id" Json.text?
    label := ← fields.withDefault "label" none (Json.nullable? Json.text?)
    layer := ← fields.withDefault "layer" none (Json.nullable? Json.text?)
    dependencies := ← fields.withDefault "dependencies" [] (Json.list? Json.text?) }

/-- The graph that a text holds. -/
def readAll? (text : String) : Option (List CustomNode) :=
  (Json.read? text).bind (Json.list? ofJson?)

end CustomNode

/-- Everything that views are built from. The first part is for three of the views and the
second for the fourth. Both parts are always there, if need be empty, so that any view can
be asked for. -/
structure ViewData where
  reflection : Reflection
  custom : List CustomNode
deriving DecidableEq

end DependencyDiagram

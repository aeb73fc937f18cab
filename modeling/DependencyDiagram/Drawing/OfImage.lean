import DependencyDiagram.Drawing.Line
import DependencyDiagram.Picture.Image

/-!
# The drawing of an image

Boxes become nodes and frames become clusters, in the image's order and nesting. A cluster
without children holds an invisible node, so that it can be drawn and edges can end in it.
In a vertical layout the boxes of a level are chained by invisible edges, which keeps them
in order.

An edge attaches to a node of the drawing. Where its end is a frame, that is the first box
inside the frame, or the invisible node if there is no box.
-/

namespace DependencyDiagram.Drawing

/-- The name of the cluster of an expanded group. -/
def clusterName (id : NodeId) : String := "cluster_" ++ id.encode

/-- The name of the invisible node in an empty cluster. -/
def anchorName (id : NodeId) : String := id.encode ++ "~anchor"

/-- The reference of every element; the areas of the rendered picture are found by
identifier instead. -/
def placeholder : String := "#"

/-- The node of a box. -/
def boxLine (box : ImageBox) : Line :=
  .node box.id.encode [("shape", box.shape.word), ("id", box.id.encode), ("label", box.label),
    ("href", placeholder)]

/-- The invisible node that an empty cluster holds. -/
def anchorLines (id : NodeId) (children : List ImageNode) : List Line :=
  if children.isEmpty then [.node (anchorName id) [("shape", "point"), ("style", "invis")]] else []

/-- The boxes of a level. -/
def boxNames (nodes : List ImageNode) : List String :=
  (nodes.filter (fun node => !node.isCluster)).map (fun node => node.id.encode)

/-- Invisible edges between neighbouring boxes of a level, in a vertical layout. -/
def chainLines (vertical : Bool) (nodes : List ImageNode) : List Line :=
  if vertical then
    ((boxNames nodes).zip (boxNames nodes).tail).map
      (fun (tail, head) => .edge tail head [("style", "invis")])
  else []

mutual

/-- The lines of a node and of everything inside it. -/
def nodeLines (vertical : Bool) : ImageNode → List Line
  | .leaf box => [boxLine box]
  | .group box => [boxLine box]
  | .cluster id label children =>
    .openCluster (clusterName id) [("id", id.encode), ("label", label), ("href", placeholder)] ::
      (anchorLines id children ++
        (eachNodeLines vertical children ++ chainLines vertical children) ++ [.closeCluster])

/-- The lines of the nodes of a level. -/
def eachNodeLines (vertical : Bool) : List ImageNode → List Line
  | [] => []
  | node :: rest => nodeLines vertical node ++ eachNodeLines vertical rest

end

/-- The lines of a level, with the chain of its boxes at the end. -/
def levelLines (vertical : Bool) (nodes : List ImageNode) : List Line :=
  eachNodeLines vertical nodes ++ chainLines vertical nodes

/-- The name of the node to which an end of an edge attaches. An end that is no node of the
image keeps its own name, which no line declares. -/
def endName (image : Image) (id : NodeId) : String :=
  match image.find? id with
  | some (.cluster cluster label children) =>
    match (ImageNode.cluster cluster label children).anchor? with
    | some box => box.encode
    | none => anchorName id
  | _ => id.encode

/-- An attribute that is written only where it has a value. -/
def optional (key : String) (value : Option String) : List (String × String) :=
  (value.map (fun present => (key, present))).toList

/-- The line of an edge. -/
def edgeLine (image : Image) (edge : ImageEdge) : Line :=
  .edge (endName image edge.client) (endName image edge.server)
    ([("id", edge.id.text), ("tooltip", edge.tooltip), ("href", placeholder)] ++
      optional "label" edge.label ++ optional "ltail" (edge.tail.map clusterName) ++
      optional "lhead" (edge.head.map clusterName))

/-- The lines in front of the nodes. -/
def preamble (image : Image) (options : ViewOptions) : List Line :=
  (if image.hasParentEdges then [.setting "compound" "true"] else []) ++
    [.setting "rankdir" (if options.verticalAlign then "TB" else "LR"),
      .nodeStyle [("fontname", "Helvetica"), ("fontsize", "10")], .blank]

/-- The lines of an image. -/
def linesOf (image : Image) (options : ViewOptions) : List Line :=
  preamble image options ++ levelLines options.verticalAlign image.nodes ++ [.blank] ++
    image.edges.map (edgeLine image)

/-- The text of an image's drawing. -/
def ofImage (image : Image) (options : ViewOptions) : String :=
  render options.viewType.word (linesOf image options)

end DependencyDiagram.Drawing

import DependencyDiagram.Picture.Shape
import DependencyDiagram.Identity.EdgeId
import DependencyDiagram.ViewOptions

/-!
# Images

An image describes a picture without fixing how it is rendered: boxes for leaves and for
collapsed groups, frames around the children of expanded groups, and edges between them. An
edge whose end is an expanded group names that group, so that a renderer can cut the edge
at its frame.
-/

namespace DependencyDiagram

/-- A single box. Its label is the text that is drawn, shortened where labels are, and the
full one is in the side table. -/
structure ImageBox where
  id : NodeId
  label : String
  shape : Shape
deriving DecidableEq

/-- A leaf, a collapsed group, or an expanded group around its children. Only the last of
these has other nodes inside it, and so an image is a forest. -/
inductive ImageNode where
  | leaf (box : ImageBox)
  | group (box : ImageBox)
  | cluster (id : NodeId) (label : String) (children : List ImageNode)

namespace ImageNode

/-- The identifier of the node. -/
def id : ImageNode → NodeId
  | leaf box | group box => box.id
  | cluster id _ _ => id

/-- The label drawn for the node. -/
def label : ImageNode → String
  | leaf box | group box => box.label
  | cluster _ label _ => label

/-- The node is drawn as a frame. -/
def isCluster : ImageNode → Bool
  | cluster _ _ _ => true
  | _ => false

mutual

/-- The node and everything inside it, depth first. -/
def flatten : ImageNode → List ImageNode
  | leaf box => [leaf box]
  | group box => [group box]
  | cluster id label children => cluster id label children :: flattenAll children

/-- The nodes of a level and everything inside them, depth first. -/
def flattenAll : List ImageNode → List ImageNode
  | [] => []
  | node :: rest => flatten node ++ flattenAll rest

end

mutual

/-- The first box inside the node, which stands for a frame where an edge must end on a box. -/
def anchor? : ImageNode → Option NodeId
  | leaf box => some box.id
  | group box => some box.id
  | cluster _ _ children => firstAnchor? children

/-- The first box inside the nodes of a level. -/
def firstAnchor? : List ImageNode → Option NodeId
  | [] => none
  | node :: rest => (anchor? node).or (firstAnchor? rest)

end

end ImageNode

/-- An edge as it is drawn. The two frames at the end are those of expanded groups on which
the edge ends, if any. -/
structure ImageEdge where
  id : EdgeId
  client : NodeId
  server : NodeId
  /-- The text on the edge, where labels are drawn. -/
  label : Option String
  tooltip : String
  kind : EdgeKind
  /-- The client, if it is an expanded group. -/
  tail : Option NodeId
  /-- The server, if it is an expanded group. -/
  head : Option NodeId
deriving DecidableEq

/-- The description of a whole picture. The two flags say whether labels are drawn on any
edges, and whether edges may end on frames. -/
structure Image where
  nodes : List ImageNode
  edges : List ImageEdge
  edgeDetails : Bool
  hasParentEdges : Bool

namespace Image

/-- Every node of the picture, depth first. -/
def allNodes (image : Image) : List ImageNode := ImageNode.flattenAll image.nodes

/-- The first node with an identifier. -/
def find? (image : Image) (id : NodeId) : Option ImageNode :=
  image.allNodes.find? (fun node => node.id = id)

end Image

end DependencyDiagram

import DependencyDiagram.Picture.Image
import DependencyDiagram.Picture.SideTable
import DependencyDiagram.Ordered.Ascending
import DependencyDiagram.Surfacing.VisibleGraph

/-!
# Projecting a visible graph

A projection turns a visible graph into an image with its side table. A graph with more
nodes or edges than the options allow is not drawn at all; that is an answer of its own and
no failure.

Nodes appear inside the node they hang below, in the tree's order. Where a group promises
that its children's labels extend its own, the shared part and the dot behind it are
replaced by a mark. In views of reflection data a broken promise is a failure; in the
user's own view the label is then shown in full.
-/

namespace DependencyDiagram

/-- What becomes of a visible graph. A graph with too many nodes or edges is not drawn at
all, and the message tells its size and the limits. -/
inductive Projection where
  | image (image : Image) (side : SideTable)
  | tooLarge (message : String)

/-- Drawn nodes together with their rows of the side table, in order. Both are collected in
one pass over the tree, so a row stands where its node does. -/
structure Drawn where
  nodes : List ImageNode
  rows : List (String × ElementAttributes)

namespace Drawn

/-- Nothing drawn. -/
def nothing : Drawn := ⟨[], []⟩

/-- The parts one after the other. -/
def join (parts : List Drawn) : Drawn := ⟨parts.flatMap nodes, parts.flatMap rows⟩

end Drawn

/-- The remainder of a label behind its group's label and a dot, if there is any. -/
def labelRemainder? (group label : String) : Option String :=
  ((Text.afterLeading? group label).bind (Text.afterLeading? ".")).filter (· ≠ "")

/-- The failure for a label that does not extend its group's label. -/
def brokenPromise (group node : TreeNode) : Failure :=
  (((Failure.ofKind .invariantViolation
    ("label '" ++ node.label ++ "' does not start with its group's label '" ++ group.label ++ "'")).during
      "image::display_label").noting "group" group.id.encode).noting "node" node.id.encode

/-- The label drawn for a node. A label is never shortened against the root, nor where the
options ask for full labels. -/
def displayLabel (tree : Tree) (options : ViewOptions) (node : TreeNode) : Except Failure String :=
  match node.parent.bind (fun parent => (tree.node? parent).map (parent, ·)) with
  | none => .ok node.label
  | some (parent, group) =>
    if options.shortLabels ∧ parent ≠ Tree.root ∧ group.shortens then
      match labelRemainder? group.label node.label with
      | some remainder => .ok ("*" ++ remainder)
      | none =>
        if options.viewType.isPrimary then .error (brokenPromise group node) else .ok node.label
    else .ok node.label

/-- The row of a node: its class, and its full label as tooltip. -/
def nodeRow (node : TreeNode) (kind : ElementClass) : String × ElementAttributes :=
  (node.id.encode, ⟨kind.name, some node.label⟩)

/-- Draw one visible node around what its children yield. -/
def drawNode (graph : VisibleGraph) (options : ViewOptions) (styles : Styles) (position : Nat)
    (node : TreeNode) (below : List (Except Failure Drawn)) : Except Failure Drawn := do
  let label ← displayLabel graph.tree options node
  if node.isLeaf then
    return ⟨[.leaf ⟨node.id, label, styles.shape node.id true⟩], [nodeRow node .leaf]⟩
  else if graph.isExpanded position then
    let inside := Drawn.join (← below.mapM id)
    return ⟨[.cluster node.id label inside.nodes], nodeRow node .expanded :: inside.rows⟩
  else
    return ⟨[.group ⟨node.id, label, styles.shape node.id false⟩], [nodeRow node .closed]⟩

/-- Draw a node with everything below it, if it is visible. -/
def drawFrom (graph : VisibleGraph) (options : ViewOptions) (styles : Styles) (position : Nat) :
    Except Failure Drawn :=
  graph.tree.fold (fun here below =>
    match graph.tree.node? here with
    | none => .ok .nothing
    | some node =>
      if graph.isVisible here then drawNode graph options styles here node below
      else .ok .nothing) position

/-- Draw everything below the root. -/
def drawNodes (graph : VisibleGraph) (options : ViewOptions) (styles : Styles) :
    Except Failure Drawn := do
  return Drawn.join (← (graph.tree.children Tree.root).mapM (drawFrom graph options styles))

/-- The text of an edge's labels: distinct, ascending, one per line. -/
def joinedLabels (labels : List String) : String := "\n".intercalate (ascendingMembers labels)

/-- The tooltip of an edge: its ends, and its labels below if there are any. -/
def edgeTooltip (client server joined : String) : String :=
  client ++ " -> " ++ server ++ (if joined = "" then "" else "\n" ++ joined)

/-- Draw one edge between the nodes at its ends. -/
def edgeBetween (graph : VisibleGraph) (options : ViewOptions) (edge : Edge) (client server : Nat) :
    ImageEdge :=
  let tree := graph.tree
  let kind := if tree.isLeafAt client && tree.isLeafAt server then EdgeKind.leaf else .group
  let joined := joinedLabels edge.labels
  let framed := fun (position : Nat) (id : NodeId) =>
    if !tree.isLeafAt position && graph.isExpanded position then some id else none
  { id := edge.id
    client := edge.client
    server := edge.server
    label := if joined ≠ "" ∧ options.edgeLabels.shows kind then some joined else none
    tooltip := edgeTooltip (tree.label client) (tree.label server) joined
    kind := kind
    tail := framed client edge.client
    head := framed server edge.server }

/-- The class of an edge of a kind. -/
def edgeClass : EdgeKind → ElementClass
  | .leaf => .leafEdge
  | .group => .groupEdge

/-- The rows of an edge: its own, and one for its label if that is drawn. -/
def edgeRows (edge : ImageEdge) : List (String × ElementAttributes) :=
  (edge.id.text, ⟨(edgeClass edge.kind).name, some edge.tooltip⟩) ::
    (edge.label.map (fun _ =>
      (edge.id.labelId, ⟨ElementClass.edgeLabel.name, some edge.tooltip⟩))).toList

/-- Draw one surfaced edge. -/
def drawEdge (graph : VisibleGraph) (options : ViewOptions) (edge : Edge) :
    Except Failure ImageEdge := do
  return edgeBetween graph options edge (← graph.tree.lookup edge.client)
    (← graph.tree.lookup edge.server)

/-- The message in place of a picture that would be too large. -/
def tooLargeMessage (nodes edges maxNodes maxEdges : Nat) : String :=
  "This graph has " ++ toString nodes ++ " nodes and " ++ toString edges ++
    " edges, more than the " ++ toString maxNodes ++ " nodes and " ++ toString maxEdges ++
    " edges that can be drawn. Hide some items or collapse groups."

/-- More nodes or edges are visible than the options allow. -/
def isTooLarge (graph : VisibleGraph) (options : ViewOptions) : Bool :=
  options.maxNodes < graph.visibleCount || options.maxEdges < graph.edges.size

/-- Project a visible graph. A graph that is too large is refused before any label is looked
at, so it cannot fail for one. -/
def project (graph : VisibleGraph) (options : ViewOptions) (styles : Styles) :
    Except Failure Projection :=
  if isTooLarge graph options then
    .ok (.tooLarge (tooLargeMessage graph.visibleCount graph.edges.size options.maxNodes
      options.maxEdges))
  else do
    let drawn ← drawNodes graph options styles
    let edges ← graph.edges.values.mapM (drawEdge graph options)
    let image : Image := {
      nodes := drawn.nodes
      edges := edges
      edgeDetails := options.edgeLabels.leafs || options.edgeLabels.groups
      hasParentEdges := graph.filter.parentEdges }
    return .image image (Table.ofList (drawn.rows ++ edges.flatMap edgeRows))

end DependencyDiagram

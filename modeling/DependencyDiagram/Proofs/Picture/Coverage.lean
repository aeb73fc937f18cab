import DependencyDiagram.Proofs.Picture.ClickThrough
import DependencyDiagram.Proofs.Picture.Connected
import DependencyDiagram.Proofs.Tree.Additions

/-!
# What a side table covers

The rows of a side table are written along with the picture, and a row replaces an earlier one with its
key. Still the table has a row for everything that is drawn and for nothing else. The rows of nodes are
never replaced: no two nodes share an identifier, and the keys of edges and labels are no node's. What a
node's row says is fixed by the form in which the node is drawn and by its label in the tree, however the
drawn label is shortened.

Nothing is said of the rows of edges and labels but that they are there, for an edge and a label may
share a key, and then the table has one row for the two. Which of them keeps it is a matter of its own.
-/

namespace DependencyDiagram

/-- The class of a drawn node follows from the form in which it is drawn. The class is what a style sheet
sees of an element, and what an area of the rendered picture is read with. -/
def ImageNode.elementClass : ImageNode → ElementClass
  | leaf _ => .leaf
  | group _ => .closed
  | cluster _ _ _ => .expanded

/-- The side table lists the nodes, the edges and the drawn labels of the image and nothing else, and
under each node its class and its label in the tree. The label of a row is that of the tree, not the one
that is drawn. -/
structure Image.CoveredBy (image : Image) (tree : Tree) (side : SideTable) : Prop where
  keys : ∀ key, key ∈ side.keys ↔ (∃ drawn ∈ image.allNodes, drawn.id.encode = key) ∨
    (∃ edge ∈ image.edges, edge.id.text = key) ∨
      ∃ edge ∈ image.edges, edge.ShowsLabel ∧ edge.id.labelId = key
  nodes : ∀ drawn ∈ image.allNodes, ∃ position node,
    tree.node? position = some node ∧ node.id = drawn.id ∧
      side.get? drawn.id.encode = some ⟨drawn.elementClass.name, some node.label⟩

/-- The keys that are listed for edges: their identifiers, and those of drawn labels. -/
theorem ImageEdge.mem_keys_edgeRows {edges : List ImageEdge} {key : String} :
    key ∈ (edges.flatMap edgeRows).map Prod.fst ↔ (∃ edge ∈ edges, edge.id.text = key) ∨
      ∃ edge ∈ edges, edge.ShowsLabel ∧ edge.id.labelId = key := by
  simp only [List.mem_map, List.mem_flatMap, ClickThrough.mem_edgeRows]
  constructor
  · rintro ⟨row, ⟨edge, listed, rfl | ⟨shown, rfl⟩⟩, rfl⟩
    · exact Or.inl ⟨edge, listed, rfl⟩
    · exact Or.inr ⟨edge, listed, shown, rfl⟩
  · rintro (⟨edge, listed, rfl⟩ | ⟨edge, listed, shown, rfl⟩)
    · exact ⟨_, ⟨edge, listed, Or.inl rfl⟩, rfl⟩
    · exact ⟨_, ⟨edge, listed, Or.inr ⟨shown, rfl⟩⟩, rfl⟩

namespace VisibleGraph

variable {graph : VisibleGraph} {options : ViewOptions} {styles : Styles}

/-- The row of a position is that of its node. -/
theorem mem_rowsAt {position : Nat} {row : String × ElementAttributes} :
    row ∈ graph.rowsAt position ↔ ∃ node, graph.tree.node? position = some node ∧
      nodeRow node (graph.classAt position node) = row := by
  rw [rowsAt, Option.mem_toList, Option.map_eq_some_iff]

/-- Positions are listed under the identifiers of their nodes. -/
theorem keys_rowsAt (positions : List Nat) :
    (positions.flatMap graph.rowsAt).map Prod.fst =
      (positions.flatMap graph.tree.idsAt).map NodeId.encode := by
  rw [List.map_flatMap, List.map_flatMap]
  apply List.flatMap_congr
  intro position _
  rw [rowsAt, Tree.idsAt]
  cases graph.tree.node? position <;> rfl

/-- The class of a node at a position is that of the form in which it is drawn. -/
theorem classAt_of_depicts {position : Nat} {node : TreeNode} {drawn : ImageNode}
    (present : graph.tree.node? position = some node)
    (depicts : graph.Depicts options styles position drawn) :
    graph.classAt position node = drawn.elementClass := by
  obtain ⟨other, here, _, _, form⟩ := depicts
  obtain rfl := Option.some.inj (present.symm.trans here)
  cases drawn with
  | leaf box => simp [classAt, ImageNode.elementClass, form.1]
  | group box => simp [classAt, ImageNode.elementClass, form.1, form.2.1]
  | cluster id label children => simp [classAt, ImageNode.elementClass, form.1, form.2.1]

/-- A drawn node keeps its row: a later row with its key would be that of a node with its
identifier, which is the node itself, or that of an edge, which has no such key. -/
theorem row_of_drawn {position : Nat} {positions : List Nat} {node : TreeNode} {edges : List ImageEdge}
    (named : ClickThrough.Identified edges) (listed : position ∈ positions)
    (present : graph.tree.node? position = some node) :
    (Table.ofList (positions.flatMap graph.rowsAt ++ edges.flatMap edgeRows)).get? node.id.encode =
      some ⟨(graph.classAt position node).name, some node.label⟩ := by
  have own : nodeRow node (graph.classAt position node) ∈ positions.flatMap graph.rowsAt :=
    List.mem_flatMap.mpr ⟨position, listed, mem_rowsAt.mpr ⟨node, present, rfl⟩⟩
  have written : node.id.encode ∈
      (positions.flatMap graph.rowsAt ++ edges.flatMap edgeRows).map Prod.fst :=
    List.mem_map.mpr ⟨_, List.mem_append_left _ own, rfl⟩
  obtain ⟨attributes, found, entry⟩ := Table.exists_get?_ofList written
  rw [found]
  rcases List.mem_append.mp entry with ofNode | ofEdge
  · obtain ⟨place, _, row⟩ := List.mem_flatMap.mp ofNode
    obtain ⟨other, here, same⟩ := mem_rowsAt.mp row
    obtain ⟨key, rfl⟩ := Prod.mk.inj same
    obtain rfl := Tree.position_unique here present (NodeId.encode_injective key)
    obtain rfl := Option.some.inj (here.symm.trans present)
    rfl
  · exact absurd rfl (ClickThrough.key_ne_encode named node.id _ ofEdge)

end VisibleGraph

/-- The side table of an image of a filtered graph lists exactly the nodes, the edges and the drawn
labels of the image. Every node is listed with the class of the form in which it is drawn and with its
full label. The keys are compared as a set. Where an edge and a label share one, it is listed once, and
both are covered by it. -/
theorem side_table_exact {tree : Tree} {edges : Edges} {filter : Filter} {graph : VisibleGraph}
    {options : ViewOptions} {styles : Styles} {image : Image} {side : SideTable}
    (applied : applyFilter tree edges filter = .ok graph)
    (projected : project graph options styles = .ok (.image image side)) :
    image.CoveredBy tree side := by
  obtain ⟨drawn, drew, onTop, each, listed⟩ := VisibleGraph.exists_drawing projected
  have draws := VisibleGraph.draws_drawNodes drew
  have depicted := VisibleGraph.depicted_of_project projected
  obtain ⟨named, _⟩ := identified_of_drawn applied each
  obtain rfl := VisibleGraph.tree_of_applyFilter applied
  rw [draws.rows] at listed
  subst listed
  refine ⟨fun key => ?keys, fun node member => ?nodes⟩
  case keys =>
    rw [Table.mem_keys_ofList, List.map_append, List.mem_append, ImageEdge.mem_keys_edgeRows,
      VisibleGraph.keys_rowsAt, ← VisibleGraph.ids_of_depicted depicted, List.map_map]
    exact or_congr_left List.mem_map
  case nodes =>
    obtain ⟨position, shown, depicts⟩ := Outcome.exists_of_mem_right depicted member
    obtain ⟨held, present, own, _⟩ := id depicts
    refine ⟨position, held, present, own.symm, ?_⟩
    rw [own, VisibleGraph.row_of_drawn named shown present,
      VisibleGraph.classAt_of_depicts present depicts]

namespace Sample

/-- A group that expects its children's labels to extend its own. -/
def base : NodeId := .named .customFolder ⟨"Base", by decide, by decide⟩

/-- A leaf whose label extends the label of its group. -/
def library : NodeId := .named .nameSpace ⟨"Base.Library", by decide, by decide⟩

/-- A group with a promise around one leaf, and another leaf beside it. -/
def promisingTree : Tree :=
  (Tree.single (.named .customFolder ⟨"Whole", by decide, by decide⟩) "").afterAll [
    ⟨0, base, "Base", .group true⟩,
    ⟨1, library, "Base.Library", .leaf⟩,
    ⟨0, caller, "Caller", .leaf⟩]

/-- One edge into the group. -/
def promisingEdges : Edges := Edges.empty.gatherAll [⟨caller, library, ["run"], true⟩]

/-- The rows of its picture when the group is expanded. -/
def promisingRows : List (String × ElementAttributes) := [
  ("customFolder|Base", ⟨"expanded", some "Base"⟩),
  ("namespace|Base.Library", ⟨"leaf", some "Base.Library"⟩),
  ("namespace|Caller", ⟨"leaf", some "Caller"⟩),
  ("namespace|Caller~namespace|Base.Library", ⟨"leaf-edge", some "Caller -> Base.Library\nrun"⟩),
  ("namespace|Caller~namespace|Base.Library-label", ⟨"edge-label", some "Caller -> Base.Library\nrun"⟩)]

end Sample

/-- In the picture of the sample the leaf's label is shortened against the group's. The side table
lists it in full, and it has a row for the label of the edge too. -/
theorem side_table_of_sample :
    ∃ graph image side,
      applyFilter Sample.promisingTree Sample.promisingEdges
        ((Filter.allVisible Sample.promisingTree).setGroupExpanded Sample.base true) = .ok graph ∧
      project graph (.standard .methods) .plain = .ok (.image image side) ∧
      image.CoveredBy Sample.promisingTree side ∧
      image.allNodes.map ImageNode.label = ["Base", "*Library", "Caller"] ∧
      side.entries = Sample.promisingRows := by
  have drawn : (picture? Sample.promisingTree Sample.promisingEdges
      ((Filter.allVisible Sample.promisingTree).setGroupExpanded Sample.base true)
      (.standard .methods) .plain).map (fun picture =>
        (picture.1.allNodes.map ImageNode.label, picture.2.entries)) =
      some (["Base", "*Library", "Caller"], Sample.promisingRows) := by decide +kernel
  obtain ⟨⟨image, side⟩, found, shown⟩ := Option.map_eq_some_iff.mp drawn
  obtain ⟨graph, applied, projected⟩ := exists_graph_of_picture? found
  obtain ⟨labels, rows⟩ := Prod.mk.inj shown
  exact ⟨graph, image, side, applied, projected, side_table_exact applied projected, labels, rows⟩

end DependencyDiagram

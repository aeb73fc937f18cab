import DependencyDiagram.Areas.Area
import DependencyDiagram.Proofs.Picture.Layout
import DependencyDiagram.Proofs.Surfacing.DrawnEdges

/-!
# Click-through

An area of a rendered picture is read with the class that the side table lists under the area's
identifier. The rows of nodes cannot be mistaken for others, since no identifier of a node has the form
of an edge. Edges and their labels share keys, however: the label of an edge towards a name is listed
under the identifier of the edge towards that name with the suffix, if there is such an edge. The table
then keeps the later of the two rows, and only the element to which that row belongs is led back to.

Which of two rows is the later one is decided by the order of the drawn edges, and that follows the order
in which their first edges were loaded. So an edge may be led back to in one picture and not in another
one that draws the same edges.
-/

namespace DependencyDiagram

/-- Areas with the key and the class listed under it are read as the element. The area may have any shape
and any title; only its identifier and its class are read. -/
def SideTable.LeadsTo (side : SideTable) (key : String) (element : ElementId) : Prop :=
  ∃ attributes, side.get? key = some attributes ∧
    ∀ area : Area, area.id = key → area.className = attributes.className →
      area.target = .ok element

/-- The edge's label is drawn. A label that is not drawn has no row and no area, and there is nothing to
lead back to. -/
def ImageEdge.ShowsLabel (edge : ImageEdge) : Prop := edge.label.isSome = true

instance (edge : ImageEdge) : Decidable edge.ShowsLabel :=
  inferInstanceAs (Decidable (edge.label.isSome = true))

/-- Every node, every edge and every drawn label of the image is led back to. This is what a user of the
picture expects: whatever is clicked on, the program knows what was meant. -/
structure Image.LeadsBack (image : Image) (side : SideTable) : Prop where
  nodes : ∀ drawn ∈ image.allNodes, side.LeadsTo drawn.id.encode (.node drawn.id)
  edges : ∀ edge ∈ image.edges, side.LeadsTo edge.id.text (.edge edge.id)
  labels : ∀ edge ∈ image.edges, edge.ShowsLabel →
    side.LeadsTo edge.id.labelId (.edgeLabel edge.id)

namespace ClickThrough

/-- Whether a key leads to an element is decided by the class that is listed under it. -/
theorem leadsTo_iff {side : SideTable} {key : String} {attributes : ElementAttributes}
    (found : side.get? key = some attributes) {element : ElementId} :
    side.LeadsTo key element ↔
      (if attributes.className = ElementClass.edgeLabel.name then ElementId.decodeEdgeLabel key
        else ElementId.decode key) = .ok element := by
  constructor
  · rintro ⟨other, here, read⟩
    obtain rfl := Option.some.inj (found.symm.trans here)
    exact read ⟨key, "", [], attributes.className, none⟩ rfl rfl
  · intro read
    refine ⟨attributes, found, ?_⟩
    rintro area rfl named
    rw [Area.target, named]
    exact read

instance (side : SideTable) (key : String) (element : ElementId) :
    Decidable (side.LeadsTo key element) :=
  match found : side.get? key with
  | none => isFalse (fun ⟨_, here, _⟩ => nomatch found.symm.trans here)
  | some attributes =>
    decidable_of_iff ((if attributes.className = ElementClass.edgeLabel.name then
        ElementId.decodeEdgeLabel key else ElementId.decode key).toOption = some element)
      (Outcome.toOption_eq_some_iff.trans (leadsTo_iff found).symm)

/-- A key leads to one element at most. -/
theorem leadsTo_unique {side : SideTable} {key : String} {first second : ElementId}
    (one : side.LeadsTo key first) (other : side.LeadsTo key second) : first = second := by
  obtain ⟨attributes, found, read⟩ := one
  have also := (leadsTo_iff found).mp other
  rw [(leadsTo_iff found).mp ⟨attributes, found, read⟩] at also
  exact Except.ok.inj also

variable {edges before after : List ImageEdge} {edge : ImageEdge}

/-- What is listed for an edge: its own row, and a label's row if the label is drawn. -/
theorem mem_edgeRows {row : String × ElementAttributes} :
    row ∈ edgeRows edge ↔
      row = (edge.id.text, ⟨(edgeClass edge.kind).name, some edge.tooltip⟩) ∨
        edge.ShowsLabel ∧ row = (edge.id.labelId, ⟨ElementClass.edgeLabel.name, some edge.tooltip⟩) := by
  rw [edgeRows, List.mem_cons, ImageEdge.ShowsLabel]
  cases edge.label <;> simp

/-- A label is not listed under its own edge's identifier. -/
theorem labelId_ne_text (id : EdgeId) : id.labelId ≠ id.text := by
  intro same
  have lengths := congrArg String.length same
  simp [EdgeId.labelId, EdgeId.labelSuffix, String.length_append] at lengths

/-- Labels of different edges are listed apart. -/
theorem labelId_injective {left right : EdgeId} (same : left.labelId = right.labelId) :
    left.text = right.text := by
  have read := EdgeId.beforeTrailing_labelId left
  rw [same, EdgeId.beforeTrailing_labelId] at read
  exact (Option.some.inj read).symm

/-- A key is not listed for edges that neither have it nor show a label that has it. -/
theorem not_listed {key : String} (others : ∀ other ∈ edges, other.id.text ≠ key)
    (labels : ∀ other ∈ edges, other.ShowsLabel → other.id.labelId ≠ key) :
    ∀ row ∈ edges.flatMap edgeRows, row.1 ≠ key := by
  intro row listed
  obtain ⟨other, member, here⟩ := List.mem_flatMap.mp listed
  rcases mem_edgeRows.mp here with rfl | ⟨shown, rfl⟩
  · exact others other member
  · exact labels other member shown

variable (rows : List (String × ElementAttributes))

/-- An edge's own row stays unless the label of a later edge is listed under its identifier. -/
theorem get?_text (distinct : ∀ other ∈ after, other.id.text ≠ edge.id.text)
    (kept : ∀ other ∈ after, other.ShowsLabel → other.id.labelId ≠ edge.id.text) :
    (Table.ofList (rows ++ (before ++ edge :: after).flatMap edgeRows)).get? edge.id.text =
      some ⟨(edgeClass edge.kind).name, some edge.tooltip⟩ := by
  rw [List.flatMap_append, List.flatMap_cons, edgeRows, List.cons_append, ← List.append_assoc]
  apply Table.get?_ofList_of_last
  intro row listed
  rcases List.mem_append.mp listed with own | later
  · rw [Option.toList_map] at own
    obtain ⟨_, _, rfl⟩ := List.mem_map.mp own
    exact labelId_ne_text edge.id
  · exact not_listed distinct kept row later

/-- A label's row stays unless a later edge has the label's identifier as its own. -/
theorem get?_labelId (shown : edge.ShowsLabel)
    (distinct : ∀ other ∈ after, other.id.text ≠ edge.id.text)
    (kept : ∀ other ∈ after, other.id.text ≠ edge.id.labelId) :
    (Table.ofList (rows ++ (before ++ edge :: after).flatMap edgeRows)).get? edge.id.labelId =
      some ⟨ElementClass.edgeLabel.name, some edge.tooltip⟩ := by
  obtain ⟨text, labelled⟩ := Option.isSome_iff_exists.mp shown
  have both : edgeRows edge = [(edge.id.text, ⟨(edgeClass edge.kind).name, some edge.tooltip⟩),
      (edge.id.labelId, ⟨ElementClass.edgeLabel.name, some edge.tooltip⟩)] := by
    simp [edgeRows, labelled]
  have rest : rows ++ (before ++ edge :: after).flatMap edgeRows =
      (rows ++ before.flatMap edgeRows ++
        [(edge.id.text, ⟨(edgeClass edge.kind).name, some edge.tooltip⟩)]) ++
          (edge.id.labelId, ⟨ElementClass.edgeLabel.name, some edge.tooltip⟩) ::
            after.flatMap edgeRows := by
    simp [List.flatMap_append, both]
  rw [rest]
  apply Table.get?_ofList_of_last
  refine not_listed kept (fun other member _ same => ?_)
  exact distinct other member (labelId_injective same)

/-- The class of an edge is not the class of labels. -/
theorem edgeClass_ne (kind : EdgeKind) : (edgeClass kind).name ≠ ElementClass.edgeLabel.name := by
  cases kind <;> decide

/-- The class of a node is not the class of labels. -/
theorem classAt_ne (graph : VisibleGraph) (position : Nat) (node : TreeNode) :
    (graph.classAt position node).name ≠ ElementClass.edgeLabel.name := by
  rw [VisibleGraph.classAt]
  split
  · decide
  · split <;> decide

/-- Every edge of the image is identified by its ends. -/
def Identified (edges : List ImageEdge) : Prop :=
  ∀ edge ∈ edges, edge.id = EdgeId.ofEndpoints edge.client edge.server

variable {rows} {side : SideTable}

/-- Later edges have other identifiers. -/
theorem later_text_ne
    (distinct : ((before ++ edge :: after).map ImageEdge.id).Nodup) :
    ∀ other ∈ after, other.id.text ≠ edge.id.text := by
  intro other member same
  rw [List.map_append, List.map_cons] at distinct
  apply (List.nodup_cons.mp (List.nodup_append.mp distinct).2.1).1
  have equal : other.id = edge.id := EdgeId.eq_of_text same
  exact equal ▸ List.mem_map_of_mem member

section Listed

variable (listed : side = Table.ofList (rows ++ (before ++ edge :: after).flatMap edgeRows))
  (named : Identified (before ++ edge :: after))
  (distinct : ((before ++ edge :: after).map ImageEdge.id).Nodup)
include listed named distinct

/-- An edge is led back to when no later label is listed under its identifier. -/
theorem leadsTo_edge
    (kept : ∀ later ∈ after, later.ShowsLabel → later.id.labelId ≠ edge.id.text) :
    side.LeadsTo edge.id.text (.edge edge.id) := by
  rw [leadsTo_iff (listed ▸ get?_text rows (later_text_ne distinct) kept), if_neg (edgeClass_ne _),
    named edge (List.mem_append_right _ List.mem_cons_self)]
  exact ElementId.decode_ofEndpoints edge.client edge.server

/-- A drawn label is led back to when no later edge has its identifier. -/
theorem leadsTo_edgeLabel (shown : edge.ShowsLabel)
    (kept : ∀ later ∈ after, later.id.text ≠ edge.id.labelId) :
    side.LeadsTo edge.id.labelId (.edgeLabel edge.id) := by
  rw [leadsTo_iff (listed ▸ get?_labelId rows shown (later_text_ne distinct) kept), if_pos rfl,
    named edge (List.mem_append_right _ List.mem_cons_self)]
  exact ElementId.decodeEdgeLabel_labelId edge.client edge.server

/-- An edge is led back to exactly when no later label is listed under its identifier. -/
theorem leadsTo_edge_iff :
    side.LeadsTo edge.id.text (.edge edge.id) ↔
      ∀ later ∈ after, later.ShowsLabel → later.id.labelId ≠ edge.id.text := by
  refine ⟨?_, leadsTo_edge listed named distinct⟩
  intro leads later member shown same
  obtain ⟨between, rest, rfl⟩ := List.append_of_mem member
  have others : ∀ other ∈ rest, other.id.text ≠ later.id.labelId := fun other behind =>
    same ▸ later_text_ne distinct other
      (List.mem_append_right _ (List.mem_cons_of_mem _ behind))
  -- the later edge stands behind this one and those between them
  rw [← List.cons_append, ← List.append_assoc] at listed named distinct
  have taken := leadsTo_edgeLabel listed named distinct shown others
  rw [same] at taken
  cases leadsTo_unique taken leads

/-- A drawn label is led back to exactly when no later edge has its identifier. -/
theorem leadsTo_edgeLabel_iff (shown : edge.ShowsLabel) :
    side.LeadsTo edge.id.labelId (.edgeLabel edge.id) ↔
      ∀ later ∈ after, later.id.text ≠ edge.id.labelId := by
  refine ⟨?_, leadsTo_edgeLabel listed named distinct shown⟩
  intro leads later member same
  obtain ⟨between, rest, rfl⟩ := List.append_of_mem member
  have labels : ∀ other ∈ rest, other.ShowsLabel → other.id.labelId ≠ later.id.text :=
    fun other behind _ equal =>
      later_text_ne distinct other (List.mem_append_right _ (List.mem_cons_of_mem _ behind))
        (labelId_injective (equal.trans same))
  -- the later edge stands behind this one and those between them
  rw [← List.cons_append, ← List.append_assoc] at listed named distinct
  have taken := leadsTo_edge listed named distinct labels
  rw [same] at taken
  cases leadsTo_unique taken leads

end Listed

/-- The identifier of an edge and of its label have the form of an edge, which that of a node
does not have. -/
theorem key_ne_encode (named : Identified edges) (id : NodeId) :
    ∀ row ∈ edges.flatMap edgeRows, row.1 ≠ id.encode := by
  have divided {other : ImageEdge} (member : other ∈ edges) :
      endpointSeparator ∈ other.id.text.toList := by
    rw [named other member, EdgeId.toList_ofEndpoints]
    exact List.mem_append_right _ List.mem_cons_self
  refine not_listed (fun other member same => ?_) (fun other member _ same => ?_)
  · exact id.endpointSeparator_not_mem_encode (same ▸ divided member)
  · apply id.endpointSeparator_not_mem_encode
    rw [← same, EdgeId.labelId, String.toList_append]
    exact List.mem_append_left _ (divided member)

/-- A node is led back to whatever the edges and labels are. The row of a node may be followed by others
with the same key, but these belong to nodes with the same identifier: rows of edges are never written
under an identifier of a node. -/
theorem leadsTo_node {graph : VisibleGraph} {id : NodeId} {positions : List Nat}
    (listed : side = Table.ofList (positions.flatMap graph.rowsAt ++ edges.flatMap edgeRows))
    (named : Identified edges)
    (drawn : ∃ position ∈ positions, graph.tree.idsAt position = [id]) :
    side.LeadsTo id.encode (.node id) := by
  obtain ⟨position, member, here⟩ := drawn
  have written : id.encode ∈
      (positions.flatMap graph.rowsAt ++ edges.flatMap edgeRows).map Prod.fst := by
    rw [List.map_append, List.map_flatMap]
    refine List.mem_append_left _ (List.mem_flatMap.mpr ⟨position, member, ?_⟩)
    rw [Tree.idsAt] at here
    cases present : graph.tree.node? position with
    | none => simp [present] at here
    | some node =>
      have own : node.id = id := by simpa [present] using here
      simp [VisibleGraph.rowsAt, present, nodeRow, own]
  obtain ⟨attributes, found, entry⟩ := Table.exists_get?_ofList written
  rw [← listed] at found
  rw [leadsTo_iff found]
  rcases List.mem_append.mp entry with ofNode | ofEdge
  · obtain ⟨place, _, row⟩ := List.mem_flatMap.mp ofNode
    rw [VisibleGraph.rowsAt, Option.mem_toList, Option.map_eq_some_iff] at row
    obtain ⟨node, _, same⟩ := row
    have kind : attributes.className ≠ ElementClass.edgeLabel.name := by
      rw [← (Prod.mk.inj same).2]
      exact classAt_ne graph place node
    rw [if_neg kind]
    exact ElementId.decode_encode id
  · exact absurd rfl (key_ne_encode named id _ ofEdge)

end ClickThrough

/-- The edges of an image of a filtered graph are identified by their ends, and no two have one
identifier. -/
theorem identified_of_drawn {tree : Tree} {edges : Edges} {filter : Filter} {graph : VisibleGraph}
    {options : ViewOptions} {drawn : List ImageEdge}
    (applied : applyFilter tree edges filter = .ok graph)
    (each : List.Forall₂ (fun edge line => drawEdge graph options edge = .ok line)
      graph.edges.values drawn) :
    ClickThrough.Identified drawn ∧ (drawn.map ImageEdge.id).Nodup := by
  have kept (edge : Edge) (line : ImageEdge) (drew : drawEdge graph options edge = .ok line) :
      edge.id = line.id ∧ edge.client = line.client ∧ edge.server = line.server := by
    obtain ⟨client, _, further⟩ := Outcome.bind_eq_ok_iff.mp drew
    obtain ⟨server, _, returned⟩ := Outcome.bind_eq_ok_iff.mp further
    obtain rfl := Except.ok.inj returned
    exact ⟨rfl, rfl, rfl⟩
  have ids : graph.edges.values.map Edge.id = drawn.map ImageEdge.id := by
    rw [← List.forall₂_eq_eq_eq, List.forall₂_map_left_iff, List.forall₂_map_right_iff]
    exact each.imp (fun edge line drew => (kept edge line drew).1)
  rw [values_of_applyFilter applied] at each ids
  refine ⟨fun line member => ?_, ids ▸ Edges.ids_merged_nodup _⟩
  obtain ⟨edge, listed, drew⟩ := Outcome.exists_of_mem_right each member
  obtain ⟨sameId, sameClient, sameServer⟩ := kept edge line drew
  rw [← sameId, ← sameClient, ← sameServer]
  exact Edges.id_of_mem_merged listed

/-- A picture is led back to as a whole exactly when no drawn label has the identifier of a drawn edge.
Every node is led back to in any case. An edge is led back to exactly when no later edge shows a label
that is listed under the edge's identifier, and a drawn label exactly when no later edge has the label's
identifier. The condition for the whole picture does not mention the order of the edges, while those for
a single edge do. Both rows cannot be kept, so a drawn label that has the identifier of a drawn edge
costs one of the two its way back in either order. -/
theorem click_through_exact {tree : Tree} {edges : Edges} {filter : Filter} {graph : VisibleGraph}
    {options : ViewOptions} {styles : Styles} {image : Image} {side : SideTable}
    (applied : applyFilter tree edges filter = .ok graph)
    (projected : project graph options styles = .ok (.image image side)) :
    (image.LeadsBack side ↔ ∀ edge ∈ image.edges, edge.ShowsLabel →
      ∀ other ∈ image.edges, other.id.text ≠ edge.id.labelId) ∧
    (∀ drawn ∈ image.allNodes, side.LeadsTo drawn.id.encode (.node drawn.id)) ∧
    ∀ before edge after, image.edges = before ++ edge :: after →
      (side.LeadsTo edge.id.text (.edge edge.id) ↔
        ∀ later ∈ after, later.ShowsLabel → later.id.labelId ≠ edge.id.text) ∧
      (edge.ShowsLabel → (side.LeadsTo edge.id.labelId (.edgeLabel edge.id) ↔
        ∀ later ∈ after, later.id.text ≠ edge.id.labelId)) := by
  obtain ⟨drawn, drew, onTop, each, listed⟩ := VisibleGraph.exists_drawing projected
  have draws := VisibleGraph.draws_drawNodes drew
  obtain ⟨named, distinct⟩ := identified_of_drawn applied each
  have nodes : ∀ node ∈ image.allNodes, side.LeadsTo node.id.encode (.node node.id) := by
    intro node member
    rw [Image.allNodes, onTop] at member
    obtain ⟨position, shown, depicts⟩ := Outcome.exists_of_mem_right draws.depicted member
    rw [draws.rows] at listed
    exact ClickThrough.leadsTo_node listed named
      ⟨position, shown, VisibleGraph.idsAt_of_depicts depicts⟩
  have lines : ∀ before edge after, image.edges = before ++ edge :: after →
      (side.LeadsTo edge.id.text (.edge edge.id) ↔
        ∀ later ∈ after, later.ShowsLabel → later.id.labelId ≠ edge.id.text) ∧
      (edge.ShowsLabel → (side.LeadsTo edge.id.labelId (.edgeLabel edge.id) ↔
        ∀ later ∈ after, later.id.text ≠ edge.id.labelId)) := by
    intro before edge after split
    rw [split] at listed named distinct
    exact ⟨ClickThrough.leadsTo_edge_iff listed named distinct,
      ClickThrough.leadsTo_edgeLabel_iff listed named distinct⟩
  refine ⟨⟨?apart, ?back⟩, nodes, lines⟩
  -- A label and an edge with one key would both be read from its row, and a row is read as one element.
  case apart =>
    intro leadsBack edge member shown other present same
    cases ClickThrough.leadsTo_unique (leadsBack.labels edge member shown)
      (same ▸ leadsBack.edges other present)
  case back =>
    intro apart
    refine ⟨nodes, fun edge member => ?_, fun edge member shown => ?_⟩
    · obtain ⟨before, after, split⟩ := List.append_of_mem member
      refine (lines before edge after split).1.mpr (fun later behind shown same => ?_)
      have present : later ∈ image.edges :=
        split ▸ List.mem_append_right _ (List.mem_cons_of_mem _ behind)
      exact apart later present shown edge member same.symm
    · obtain ⟨before, after, split⟩ := List.append_of_mem member
      refine ((lines before edge after split).2 shown).mpr (fun later behind => ?_)
      exact apart edge member shown later
        (split ▸ List.mem_append_right _ (List.mem_cons_of_mem _ behind))

namespace Sample

/-- The leaf from which both edges lead. -/
def source : NodeId := .named .customLeaf ⟨"A", by decide, by decide⟩

/-- A leaf of the group with the plain name. -/
def plainLeaf : NodeId := .named .customLeaf ⟨"x", by decide, by decide⟩

/-- A leaf of the group whose name ends in the suffix. -/
def suffixedLeaf : NodeId := .named .customLeaf ⟨"y", by decide, by decide⟩

/-- The kind of the groups is not empty. -/
theorem layer_ne_empty : "layer" ≠ "" := by decide

/-- The kind of the groups is free of separators. -/
theorem layer_unseparated :
    fieldSeparator ∉ "layer".toList ∧ endpointSeparator ∉ "layer".toList := by decide

/-- Two groups whose names differ by the suffix of labels, and a leaf beside them. -/
def suffixedTree : Tree where
  nodes := [
    ⟨.artificial .group .one, "", none, .group false⟩,
    ⟨.layerGroup ⟨"layer", layer_ne_empty, layer_unseparated⟩ ⟨"B", by decide, by decide⟩, "B", some 0,
      .group false⟩,
    ⟨plainLeaf, "x", some 1, .leaf⟩,
    ⟨.layerGroup ⟨"layer", layer_ne_empty, layer_unseparated⟩ ⟨"B-label", by decide, by decide⟩, "B-label",
      some 0, .group false⟩,
    ⟨suffixedLeaf, "y", some 3, .leaf⟩,
    ⟨source, "A", some 0, .leaf⟩]
  distinct := by decide
  rooted := rfl
  attached := by
    intro position node present later
    match position with
    | 0 => exact absurd later (Nat.lt_irrefl 0)
    | 1 | 2 | 3 | 4 | 5 =>
      obtain rfl := Option.some.inj present
      exact ⟨_, _, rfl, by decide, rfl, rfl⟩
    | _ + 6 => simp at present

/-- One edge into each group. -/
def suffixedEdges : Edges :=
  Edges.empty.gatherAll [⟨source, plainLeaf, [], true⟩, ⟨source, suffixedLeaf, [], true⟩]

/-- Labels are drawn on edges of groups. -/
def labelled : ViewOptions := { ViewOptions.standard .custom with edgeLabels := ⟨true, true⟩ }

end Sample

/-- In the picture of the sample with the nested groups no label shares its key, and the whole
picture is led back to. -/
theorem sample_leads_back :
    ∃ graph image side, applyFilter Sample.tree Sample.edges Sample.filter = .ok graph ∧
      project graph Sample.labelled .plain = .ok (.image image side) ∧ image.LeadsBack side := by
  have drawn : (picture? Sample.tree Sample.edges Sample.filter Sample.labelled .plain).map
      (fun picture => decide (∀ edge ∈ picture.1.edges, edge.ShowsLabel →
        ∀ other ∈ picture.1.edges, other.id.text ≠ edge.id.labelId)) = some true := by decide
  obtain ⟨⟨image, side⟩, found, apart⟩ := Option.map_eq_some_iff.mp drawn
  obtain ⟨graph, applied, projected⟩ := exists_graph_of_picture? found
  exact ⟨graph, image, side, applied, projected,
    (click_through_exact applied projected).1.mpr (of_decide_eq_true apart)⟩

/-- In the sample with the suffixed name the label of the edge into the first group is drawn and
is not led back to: the edge into the second group replaces its row. -/
theorem suffixed_sample_not_led_back :
    ∃ graph image side,
      applyFilter Sample.suffixedTree Sample.suffixedEdges (.allVisible Sample.suffixedTree) =
        .ok graph ∧
      project graph Sample.labelled .plain = .ok (.image image side) ∧ ¬ image.LeadsBack side := by
  have drawn : (picture? Sample.suffixedTree Sample.suffixedEdges
      (.allVisible Sample.suffixedTree) Sample.labelled .plain).map (fun picture =>
        picture.1.edges.any (fun edge => decide (edge.ShowsLabel ∧
          ¬ picture.2.LeadsTo edge.id.labelId (.edgeLabel edge.id)))) = some true := by decide
  obtain ⟨⟨image, side⟩, found, lost⟩ := Option.map_eq_some_iff.mp drawn
  obtain ⟨graph, applied, projected⟩ := exists_graph_of_picture? found
  obtain ⟨edge, member, here⟩ := List.any_eq_true.mp lost
  obtain ⟨shown, missed⟩ := of_decide_eq_true here
  exact ⟨graph, image, side, applied, projected,
    fun leadsBack => missed (leadsBack.labels edge member shown)⟩

end DependencyDiagram

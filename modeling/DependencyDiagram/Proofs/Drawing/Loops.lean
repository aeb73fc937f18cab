import DependencyDiagram.Proofs.Drawing.Attachment
import DependencyDiagram.Proofs.Picture.EdgeEnds
import DependencyDiagram.Proofs.Picture.FirstBox

/-!
# Edges that come back to their own box

No edge of a visible graph joins a node with itself. Its line in the drawing may do so all the same: an
end that is a frame attaches to the first box inside the frame, and where the other end lies at or above
that box, it attaches to the same one. No other line is a loop. There are none at all where edges must
not end on expanded groups, and the invisible edges between neighbouring boxes never are.

A loop is not wrong as a text. It is drawn as a small arc at a box that neither end of the edge need be,
and tells the reader of a dependency that is not there.
-/

namespace DependencyDiagram

open DependencyDiagram.Tree

namespace Drawing

/-- No edge of the graph, at any depth, shown or not, has one node at both ends. It is asked of the
drawing as it is read back, not of the image. -/
def Digraph.LoopFree (graph : Digraph) : Prop := ∀ ends ∈ graph.ends, ends.1 ≠ ends.2

variable {image : Image}

/-- Neighbours in a list without repetitions differ. -/
theorem ne_of_neighbours {names : List String} (distinct : names.Nodup) {tail head : String}
    (linked : (tail, head) ∈ names.zip names.tail) : tail ≠ head := by
  induction names with
  | nil => cases linked
  | cons first rest inductionHypothesis =>
    obtain ⟨fresh, further⟩ := List.nodup_cons.mp distinct
    cases rest with
    | nil => cases linked
    | cons second rest =>
      rcases List.mem_cons.mp linked with here | later
      · obtain ⟨rfl, rfl⟩ := Prod.mk.inj here
        exact fun same => fresh (same ▸ List.mem_cons_self)
      · exact inductionHypothesis further later

/-- No two boxes of a level have one name. -/
theorem nodup_boxNames (distinct : image.ids.Nodup) {nodes : List ImageNode}
    (level : image.IsLevel nodes) : (boxNames nodes).Nodup := by
  have ids : (nodes.map ImageNode.id).Nodup := (level.sublist.map ImageNode.id).nodup distinct
  have kept : (nodes.filter fun node => !node.isCluster).Sublist nodes := List.filter_sublist
  have boxes := (kept.map ImageNode.id).nodup ids
  have names := boxes.map (fun _ _ => NodeId.encode_injective)
  rwa [List.map_map] at names

/-- An end attaches to the first box inside the node, or to the node's invisible one. -/
theorem endName_eq (distinct : image.ids.Nodup) {node : ImageNode}
    (listed : node ∈ image.allNodes) :
    endName image node.id = (node.anchor?.map NodeId.encode).getD (anchorName node.id) := by
  cases node with
  | leaf box => exact endName_box distinct listed rfl
  | group box => exact endName_box distinct listed rfl
  | cluster id label children => exact endName_frame distinct listed

/-- An end without a node of its own attaches to its identifier. -/
theorem endName_of_missing {id : NodeId} (missing : id ∉ image.ids) :
    endName image id = id.encode := by
  have unfound : image.find? id = none := by
    rw [Image.find?, List.find?_eq_none]
    intro node listed
    simp only [decide_eq_true_eq]
    exact fun same => missing (same ▸ List.mem_map_of_mem listed)
  rw [endName, unfound]

/-- Every edge of the image has a line among the edges of the drawing. -/
theorem line_mem_ends {options : ViewOptions} {line : ImageEdge} (present : line ∈ image.edges) :
    (endName image line.client, endName image line.server) ∈ (digraphOf image options).ends := by
  obtain ⟨attributes, drawn⟩ : ∃ attributes,
      .edge (endName image line.client) (endName image line.server) attributes ∈
        edgeStatements image :=
    ⟨_, List.mem_flatMap.mpr ⟨_, List.mem_map_of_mem present, List.mem_singleton_self _⟩⟩
  have inside : .edge (endName image line.client) (endName image line.server) attributes ∈
      Statement.flattenAll (digraphOf image options).body := by
    rw [flattenAll_digraphOf]
    exact List.mem_append_right _ drawn
  exact List.mem_filterMap.mpr ⟨_, inside, rfl⟩

end Drawing

open Drawing

namespace VisibleGraph

variable {tree : Tree} {edges : Edges} {filter : Filter} {graph : VisibleGraph}
  {options : ViewOptions} {styles : Styles} {image : Image} {side : SideTable}

/-- One of the two identifiers is that of a group, and the other lies inside the group at or above
its first box. -/
def LoopsBetween (graph : VisibleGraph) (client server : NodeId) : Prop :=
  ∃ first second, graph.tree.find? client = some first ∧ graph.tree.find? server = some second ∧
    (graph.HasFirstBox first second ∨ graph.HasFirstBox second first)

section Depicted

variable (depicted : List.Forall₂ (graph.Depicts options styles) graph.shown image.allNodes)
include depicted

/-- A drawn end attaches to the first box inside it, or to its own invisible node. -/
theorem endName_of_shown {position : Nat} {node : TreeNode} (drawn : position ∈ graph.shown)
    (present : graph.tree.node? position = some node) :
    (∃ box held, graph.firstBox? position = some box ∧ graph.tree.node? box = some held ∧
      endName image node.id = held.id.encode) ∨
    (graph.firstBox? position = none ∧ endName image node.id = anchorName node.id) := by
  obtain ⟨shown, listed, depicts⟩ := Outcome.exists_of_mem_left depicted drawn
  have own : shown.id = node.id := by
    obtain ⟨other, here, named, _⟩ := depicts
    rw [named, Option.some.inj (here.symm.trans present)]
  rw [← own, endName_eq (ids_allNodes_nodup depicted) listed, ImageNode.anchor?_eq]
  rcases find?_of_forall₂ (fun _ _ here => congrArg not (isCluster_of_depicts here))
    (depicted_below depicted drawn listed depicts) with
    ⟨none, missing⟩ | ⟨box, inner, first, found, held, there, named, _⟩
  · rw [missing]
    exact Or.inr ⟨none, rfl⟩
  · rw [found]
    exact Or.inl ⟨box, held, first, there, congrArg NodeId.encode named⟩

/-- No drawn end attaches to the same node as the root, which is not drawn. -/
theorem endName_ne_root {position : Nat} {node top : TreeNode} (drawn : position ∈ graph.shown)
    (present : graph.tree.node? position = some node) (first : graph.tree.node? root = some top) :
    endName image node.id ≠ endName image top.id := by
  have missing : top.id ∉ image.ids :=
    fun listed => graph.root_not_mem_shown ((id_mem_allNodes_iff depicted first).mp listed)
  rw [endName_of_missing missing]
  rcases endName_of_shown depicted drawn present with ⟨box, held, inside, there, name⟩ | ⟨_, name⟩
  · rw [name]
    intro same
    obtain rfl := position_unique there first (NodeId.encode_injective same)
    exact graph.root_not_mem_shown (firstBox?_spec drawn inside).1
  · rw [name]
    exact anchorName_ne_encode node.id top.id

/-- Two drawn ends attach to one node exactly when they have the same first box. An end inside a box
attaches to the box, and any other end to an anchor of its own. Anchors are never named like boxes, so
ends of the two kinds attach to different nodes, and ends of one kind are compared by their identifiers. -/
theorem endName_eq_of_shown_iff {first second : Nat} {client server : TreeNode}
    (left : graph.tree.node? first = some client) (right : graph.tree.node? second = some server)
    (drawnLeft : first ∈ graph.shown) (drawnRight : second ∈ graph.shown) (apart : first ≠ second) :
    endName image client.id = endName image server.id ↔
      ∃ box, graph.firstBox? first = some box ∧ graph.firstBox? second = some box := by
  rcases endName_of_shown depicted drawnLeft left with
    ⟨box, held, here, inside, name⟩ | ⟨none, name⟩ <;>
  rcases endName_of_shown depicted drawnRight right with
    ⟨other, own, there, within, named⟩ | ⟨nothing, named⟩
  · rw [name, named, here, there]
    constructor
    · intro same
      obtain rfl := position_unique inside within (NodeId.encode_injective same)
      exact ⟨box, rfl, rfl⟩
    · rintro ⟨place, one, two⟩
      obtain rfl := Option.some.inj (one.trans two.symm)
      rw [Option.some.inj (inside.symm.trans within)]
  · simp [name, named, here, nothing, (anchorName_ne_encode server.id held.id).symm]
  · simp [name, named, none, anchorName_ne_encode client.id own.id]
  · rw [name, named, none]
    constructor
    · exact fun same => absurd (position_unique left right (anchorName_injective same)) apart
    · rintro ⟨box, impossible, _⟩
      cases impossible

/-- Two different ends attach to one node exactly when one lies inside the other, at or above the
other's first box. The root is not drawn, and its identifier is that of no other node. -/
theorem endName_eq_iff {first second : Nat} {client server : TreeNode}
    (left : graph.tree.node? first = some client) (right : graph.tree.node? second = some server)
    (drawnLeft : first = root ∨ first ∈ graph.shown)
    (drawnRight : second = root ∨ second ∈ graph.shown) (apart : first ≠ second) :
    endName image client.id = endName image server.id ↔
      graph.HasFirstBox first second ∨ graph.HasFirstBox second first := by
  have notAbove (position : Nat) : ¬ graph.HasFirstBox position root :=
    fun loops => absurd (lt_of_above loops.above) (Nat.not_lt_zero position)
  have notInner (position : Nat) : ¬ graph.HasFirstBox root position := fun loops => loops.inner rfl
  rcases drawnLeft with rfl | drawnLeft
  · rcases drawnRight with rfl | drawnRight
    · exact absurd rfl apart
    · simp [notAbove, notInner, (endName_ne_root depicted drawnRight right left).symm]
  · rcases drawnRight with rfl | drawnRight
    · simp [notAbove, notInner, endName_ne_root depicted drawnLeft left right]
    · rw [endName_eq_of_shown_iff depicted left right drawnLeft drawnRight apart,
        same_firstBox_iff drawnLeft drawnRight apart]

/-- The line of a drawn edge is a loop exactly when one end lies inside the other, at or above the
other's first box. -/
theorem loops_iff_of_drawEdge (applied : applyFilter tree edges filter = .ok graph) {edge : Edge}
    {drawn : ImageEdge} (listed : edge ∈ graph.edges.values)
    (drew : drawEdge graph options edge = .ok drawn) :
    endName image drawn.client = endName image drawn.server ↔
      graph.LoopsBetween drawn.client drawn.server := by
  obtain ⟨first, second, foundFirst, foundSecond, clientKept, serverKept, _, _⟩ :=
    ends_of_drawEdge drew
  obtain ⟨client, left, named⟩ := find?_eq_some_iff.mp foundFirst
  obtain ⟨server, right, called⟩ := find?_eq_some_iff.mp foundSecond
  rw [clientKept, serverKept]
  have placed {position : Nat} (ends : graph.EndsAt position) :
      position = root ∨ position ∈ graph.shown := by
    by_cases top : position = root
    · exact Or.inl top
    · exact Or.inr ((mem_shown_iff_endsAt applied).mpr
        ⟨top, position, Relation.ReflTransGen.refl, ends⟩)
  have leftEnds : graph.EndsAt first := ⟨client, left, edge, listed, Or.inl named.symm⟩
  have rightEnds : graph.EndsAt second := ⟨server, right, edge, listed, Or.inr called.symm⟩
  have apart : first ≠ second := by
    obtain ⟨_, _, start, goal, leads, atStart, atGoal⟩ :=
      (joins_iff applied).mp ⟨edge, listed, rfl, rfl⟩
    rw [tree_of_applyFilter applied] at foundFirst foundSecond
    rw [Option.some.inj (foundFirst.symm.trans atStart),
      Option.some.inj (foundSecond.symm.trans atGoal)]
    exact leads.apart
  rw [← named, ← called,
    endName_eq_iff depicted left right (placed leftEnds) (placed rightEnds) apart, LoopsBetween,
    find?_id left, find?_id right]
  simp only [Option.some.injEq, exists_and_left, exists_eq_left']

end Depicted

/-- A drawn edge has its ends at two positions exactly when an edge leads between them. The lines of the
image are the gathered edges one by one, and the gathered edges join exactly the pairs that edges of the
source lead between; the two correspondences are put together in both directions. -/
theorem exists_line_iff (applied : applyFilter tree edges filter = .ok graph)
    (projected : project graph options styles = .ok (.image image side)) {first second : Nat} :
    (∃ line ∈ image.edges, graph.tree.find? line.client = some first ∧
      graph.tree.find? line.server = some second) ↔
      ∃ edge ∈ edges.values, tree.LeadsBetween filter edge first second := by
  obtain ⟨_, _, _, each, _⟩ := exists_drawing projected
  rw [tree_of_applyFilter applied]
  constructor
  · rintro ⟨line, present, atFirst, atSecond⟩
    obtain ⟨gathered, listed, here⟩ := Outcome.exists_of_mem_right each present
    obtain ⟨_, _, _, _, clientKept, serverKept, _, _⟩ := ends_of_drawEdge here
    obtain ⟨edge, given, start, goal, leads, atStart, atGoal⟩ :=
      (joins_iff applied).mp ⟨gathered, listed, rfl, rfl⟩
    rw [clientKept, atStart, Option.some.injEq] at atFirst
    rw [serverKept, atGoal, Option.some.injEq] at atSecond
    exact ⟨edge, given, atFirst ▸ atSecond ▸ leads⟩
  · rintro ⟨edge, given, leads⟩
    obtain ⟨client, server, atFirst, atSecond⟩ := exists_ids_of_leadsBetween leads
    obtain ⟨gathered, listed, rfl, rfl⟩ :=
      (joins_iff applied).mpr ⟨edge, given, first, second, leads, atFirst, atSecond⟩
    obtain ⟨line, present, here⟩ := Outcome.exists_of_mem_left each listed
    obtain ⟨_, _, _, _, clientKept, serverKept, _, _⟩ := ends_of_drawEdge here
    exact ⟨line, present, clientKept ▸ atFirst, serverKept ▸ atSecond⟩

/-- The line of an edge of the image is a loop exactly when one end lies inside the other, at or
above the other's first box. -/
theorem loops_iff (applied : applyFilter tree edges filter = .ok graph)
    (projected : project graph options styles = .ok (.image image side)) {line : ImageEdge}
    (present : line ∈ image.edges) :
    endName image line.client = endName image line.server ↔
      graph.LoopsBetween line.client line.server := by
  obtain ⟨_, _, _, each, _⟩ := exists_drawing projected
  obtain ⟨edge, listed, here⟩ := Outcome.exists_of_mem_right each present
  exact loops_iff_of_drawEdge (depicted_of_project projected) applied listed here

/-- The drawing has no loops exactly when no shown edge leads between two nodes of which one lies
inside the other, at or above the other's first box. -/
theorem loopFree_iff (applied : applyFilter tree edges filter = .ok graph)
    (projected : project graph options styles = .ok (.image image side)) (layout : ViewOptions) :
    (digraphOf image layout).LoopFree ↔
      ∀ edge ∈ edges.values, ∀ first second, tree.LeadsBetween filter edge first second →
        ¬ graph.HasFirstBox first second ∧ ¬ graph.HasFirstBox second first := by
  have distinct := ids_allNodes_nodup (depicted_of_project projected)
  constructor
  · intro apart edge given first second leads
    obtain ⟨line, present, atFirst, atSecond⟩ :=
      (exists_line_iff applied projected).mpr ⟨edge, given, leads⟩
    have straight := mt (loops_iff applied projected present).mpr (apart _ (line_mem_ends present))
    exact not_or.mp (fun loops => straight ⟨first, second, atFirst, atSecond, loops⟩)
  · rintro straight ⟨tail, head⟩ listed
    rcases ends_origin listed with ⟨nodes, level, linked⟩ | ⟨line, present, rfl, rfl⟩
    · exact ne_of_neighbours (nodup_boxNames distinct level) linked
    · rintro same
      obtain ⟨first, second, atFirst, atSecond, loops⟩ :=
        (loops_iff applied projected present).mp same
      obtain ⟨edge, given, leads⟩ :=
        (exists_line_iff applied projected).mp ⟨line, present, atFirst, atSecond⟩
      exact not_or.mpr (straight edge given first second leads) loops

/-- Where edges must not end on expanded groups, no edge ends on a group above its other end. -/
theorem not_hasFirstBox_of_refused (applied : applyFilter tree edges filter = .ok graph)
    (refused : filter.parentEdges = false) {upper lower : Nat} (upperEnds : graph.EndsAt upper)
    (lowerEnds : graph.EndsAt lower) : ¬ graph.HasFirstBox upper lower := by
  rintro ⟨inner, above, _⟩
  have closed := isOpenGroup_of_endsAt applied refused upperEnds
  have exposed := outermostCollapsed?_of_endsAt applied lowerEnds
  rw [← tree_of_applyFilter applied, ← filter_of_applyFilter applied] at closed exposed
  have expanded := (isExpanded_of_above above).mpr
    (outermostCollapsed?_eq_none_iff.mp exposed upper above)
  simp [isExpanded, inner, closed] at expanded

end VisibleGraph

/-- In the drawing of the image of a filtered graph, the line of an edge is a loop exactly when one end
of the edge is a group below the root that holds the other end, and the first box inside the group lies
at or below that other end. No other line is a loop, so there is none exactly when no shown edge leads
between two such nodes, and there is none where edges must not end on expanded groups. The options for
laying the drawing out are arbitrary and need not be those of the image. They may add invisible edges,
and these are never loops. -/
theorem loops_exact {tree : Tree} {edges : Edges} {filter : Filter} {graph : VisibleGraph}
    {options : ViewOptions} {styles : Styles} {image : Image} {side : SideTable}
    (applied : applyFilter tree edges filter = .ok graph)
    (projected : project graph options styles = .ok (.image image side)) (layout : ViewOptions) :
    ∃ drawing, Digraph.read? (ofImage image layout) = some drawing ∧
      List.Forall₂ (fun edge line =>
        line.tail = line.head ↔ graph.LoopsBetween edge.client edge.server)
        image.edges drawing.shownEdges ∧
      (drawing.LoopFree ↔
        ∀ edge ∈ edges.values, ∀ first second, tree.LeadsBetween filter edge first second →
          ¬ graph.HasFirstBox first second ∧ ¬ graph.HasFirstBox second first) ∧
      (filter.parentEdges = false → drawing.LoopFree) := by
  have overall := VisibleGraph.loopFree_iff applied projected layout
  refine ⟨digraphOf image layout, read?_ofImage image layout, ?_, overall, fun refused => ?_⟩
  · rw [shownEdges_digraphOf, List.forall₂_map_right_iff, List.forall₂_same]
    exact fun line present => VisibleGraph.loops_iff applied projected present
  · refine overall.mpr (fun edge given first second leads => ?_)
    have firstEnds := (endsAt_iff_leadsBetween applied).mpr
      ⟨edge, given, first, second, leads, Or.inl rfl⟩
    have secondEnds := (endsAt_iff_leadsBetween applied).mpr
      ⟨edge, given, first, second, leads, Or.inr rfl⟩
    exact ⟨VisibleGraph.not_hasFirstBox_of_refused applied refused firstEnds secondEnds,
      VisibleGraph.not_hasFirstBox_of_refused applied refused secondEnds firstEnds⟩

namespace Sample

/-- An edge from the leaf of the expanded group to the group. -/
def innerEdge : Edges := Edges.empty.gatherAll [⟨caller, opened, ["up"], false⟩]

end Sample

/-- In the sample an edge leads from the expanded group to the box beside it, and no line is a
loop. -/
theorem sample_without_loops :
    ∃ graph image side, applyFilter Sample.tree Sample.edges Sample.filter = .ok graph ∧
      project graph (.standard .custom) .plain = .ok (.image image side) ∧
      ∀ edge ∈ Sample.edges.values, ∀ first second,
        Sample.tree.LeadsBetween Sample.filter edge first second →
          ¬ graph.HasFirstBox first second ∧ ¬ graph.HasFirstBox second first := by
  have drawn : (picture? Sample.tree Sample.edges Sample.filter (.standard .custom) .plain).map
      (fun picture => (digraphOf picture.1 (.standard .custom)).ends) =
        some [("namespace|Caller", "customFolder|Outer"),
          ("namespace|Caller", "customFolder|Outer"),
          ("customFolder|Outer", "namespace|Caller")] := by decide
  obtain ⟨⟨image, side⟩, found, ends⟩ := Option.map_eq_some_iff.mp drawn
  obtain ⟨graph, applied, projected⟩ := exists_graph_of_picture? found
  obtain ⟨drawing, read, _, straight, _⟩ := loops_exact applied projected (.standard .custom)
  obtain rfl := Option.some.inj ((read?_ofImage image (.standard .custom)).symm.trans read)
  refine ⟨graph, image, side, applied, projected, straight.mp ?_⟩
  rw [Digraph.LoopFree, ends]
  decide

/-- An edge from a leaf to the expanded group around it is drawn from the leaf's box to the same
box, although the two ends differ. -/
theorem inner_edge_loops :
    ∃ graph image side drawing, applyFilter Sample.tree Sample.innerEdge Sample.filter = .ok graph ∧
      project graph (.standard .custom) .plain = .ok (.image image side) ∧
      Digraph.read? (ofImage image (.standard .custom)) = some drawing ∧
      image.edges.map (fun edge => (edge.client, edge.server)) = [(Sample.caller, Sample.opened)] ∧
      drawing.ends = [("namespace|Caller", "namespace|Caller")] := by
  have drawn : (picture? Sample.tree Sample.innerEdge Sample.filter (.standard .custom) .plain).map
      (fun picture => (picture.1.edges.map (fun edge => (edge.client, edge.server)),
        (digraphOf picture.1 (.standard .custom)).ends)) =
        some ([(Sample.caller, Sample.opened)], [("namespace|Caller", "namespace|Caller")]) := by
    decide
  obtain ⟨⟨image, side⟩, found, both⟩ := Option.map_eq_some_iff.mp drawn
  obtain ⟨edges, ends⟩ := Prod.mk.inj both
  obtain ⟨graph, applied, projected⟩ := exists_graph_of_picture? found
  exact ⟨graph, image, side, _, applied, projected, read?_ofImage _ _, edges, ends⟩

end DependencyDiagram

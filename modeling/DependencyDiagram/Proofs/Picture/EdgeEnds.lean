import DependencyDiagram.Proofs.Picture.Connected
import DependencyDiagram.Proofs.Surfacing.Joining

/-!
# Ends of drawn edges

Every end of a drawn edge is a node of the image, and where edges must not end on expanded
groups it is a box, with one exception: the root. The root is drawn as the image itself and
counts as expanded, but it need not be among the filter's expanded groups, which are what the
edges are checked against. An edge that names the root as an endpoint therefore passes the
check and ends on no node of the image.
-/

namespace DependencyDiagram

open DependencyDiagram.Tree

/-- An end of an edge is in order: the image has a node for it, and where edges must not end on expanded
groups the node is no frame, the end is not the root, and no frame is named for it. A frame is named for
an end where the edge is to be cut off at the frame of a group. An end for which no frame is named is
attached to a box. -/
structure Image.CarriesEnd (image : Image) (tree : Tree) (parentEdges : Bool) (id : NodeId)
    (frame : Option NodeId) : Prop where
  drawn : id ∈ image.allNodes.map ImageNode.id
  boxed : parentEdges = false →
    (∀ node ∈ image.allNodes, node.id = id → node.isCluster = false) ∧
      tree.find? id ≠ some root ∧ frame = none

/-- Both ends of every edge of the image are in order. -/
def Image.CarriesEnds (image : Image) (tree : Tree) (parentEdges : Bool) : Prop :=
  ∀ edge ∈ image.edges, image.CarriesEnd tree parentEdges edge.client edge.tail ∧
    image.CarriesEnd tree parentEdges edge.server edge.head

namespace Tree

variable {tree : Tree} {edges : Edges} {filter : Filter} {graph : VisibleGraph}

/-- The root represents itself and nothing else. -/
theorem representative_eq_root_iff {position : Nat} :
    tree.representative filter position = root ↔ position = root := by
  constructor
  · intro top
    cases outer : tree.outermostCollapsed? filter position with
    | none => exact (representative_eq_self_iff.mpr outer).symm.trans top
    | some group =>
      have collapsed := (outermostCollapsed?_eq_some outer).2.1
      rw [representative, outer, Option.getD_some] at top
      simp [top, isCollapsedAt] at collapsed
  · rintro rfl
    exact representative_eq_self_iff.mpr (outermostCollapsed?_of_top filter tree.parent?_root)

/-- An edge leads from or to the root exactly when it names the root. -/
theorem leadsBetween_root_iff {edge : Edge} {first second : Nat}
    (leads : tree.LeadsBetween filter edge first second) :
    (first = root ↔ tree.find? edge.client = some root) ∧
      (second = root ↔ tree.find? edge.server = some root) := by
  obtain ⟨_, ⟨start, foundStart, rfl⟩, ⟨goal, foundGoal, rfl⟩, _⟩ := leads
  rw [representative_eq_root_iff, representative_eq_root_iff, foundStart, foundGoal,
    Option.some.injEq, Option.some.injEq]
  exact ⟨Iff.rfl, Iff.rfl⟩

end Tree

namespace VisibleGraph

variable {tree : Tree} {edges : Edges} {filter : Filter} {graph : VisibleGraph}
  {options : ViewOptions} {styles : Styles} {image : Image} {side : SideTable}

/-- The frame that an edge names for its end at a position: the end's own, if the position holds an
expanded group. It does not ask whether edges may end on expanded groups. Where they may not, none that
does is left but those on the root. -/
def frameAt (graph : VisibleGraph) (position : Nat) (id : NodeId) : Option NodeId :=
  if !graph.tree.isLeafAt position && graph.isExpanded position then some id else none

/-- A drawn edge keeps its ends and names the frames at them. -/
theorem ends_of_drawEdge {edge : Edge} {drawn : ImageEdge}
    (drew : drawEdge graph options edge = .ok drawn) :
    ∃ client server, graph.tree.find? edge.client = some client ∧
      graph.tree.find? edge.server = some server ∧
      drawn.client = edge.client ∧ drawn.server = edge.server ∧
      drawn.tail = graph.frameAt client edge.client ∧
      drawn.head = graph.frameAt server edge.server := by
  obtain ⟨client, foundClient, next⟩ := Outcome.bind_eq_ok_iff.mp drew
  obtain ⟨server, foundServer, returned⟩ := Outcome.bind_eq_ok_iff.mp next
  obtain rfl := Except.ok.inj returned
  exact ⟨client, server, lookup_eq_ok_iff.mp foundClient, lookup_eq_ok_iff.mp foundServer,
    rfl, rfl, rfl, rfl⟩

/-- No frame is named below the root for a position without an expanded group. -/
theorem frameAt_of_not_open {position : Nat} (below : position ≠ root)
    (closed : graph.tree.isOpenGroup graph.filter position = false) (id : NodeId) :
    graph.frameAt position id = none := by
  simp [frameAt, isExpanded, below, closed]

/-- An end is in order exactly when it is not the root. What is at or above a node with an edge
is drawn unless it is the root, and the check of the ends has refused every other frame. -/
theorem carriesEnd_iff (applied : applyFilter tree edges filter = .ok graph)
    (depicted : List.Forall₂ (graph.Depicts options styles) graph.shown image.allNodes)
    {id : NodeId} {position : Nat} (found : tree.find? id = some position)
    (ends : graph.EndsAt position) :
    image.CarriesEnd tree filter.parentEdges id (graph.frameAt position id) ↔ position ≠ root := by
  obtain ⟨node, present, rfl⟩ := find?_eq_some_iff.mp found
  have closed := fun refused => isOpenGroup_of_endsAt applied refused ends
  have shown : position ∈ graph.shown ↔ position ≠ root ∧
      ∃ lower, tree.AtOrAbove position lower ∧ graph.EndsAt lower := mem_shown_iff_endsAt applied
  obtain rfl := tree_of_applyFilter applied
  obtain rfl := filter_of_applyFilter applied
  constructor
  · rintro ⟨drawn, _⟩ rfl
    exact graph.root_not_mem_shown ((id_mem_allNodes_iff depicted present).mp drawn)
  · intro below
    have drawn : position ∈ graph.shown :=
      shown.mpr ⟨below, position, Relation.ReflTransGen.refl, ends⟩
    refine ⟨(id_mem_allNodes_iff depicted present).mpr drawn, fun refused => ⟨?_, ?_, ?_⟩⟩
    · intro image listed named
      obtain ⟨place, _, depicts⟩ := Outcome.exists_of_mem_right depicted listed
      obtain rfl := position_of_depicts present depicts named
      obtain ⟨other, here, _, _, form⟩ := depicts
      cases image with
      | leaf box => rfl
      | group box => rfl
      | cluster id label children =>
        have expanded : graph.isExpanded place = true := form.2.1
        simp [isExpanded, below, closed refused] at expanded
    · rw [found, ne_eq, Option.some.injEq]
      exact below
    · exact frameAt_of_not_open below (closed refused) node.id

/-- A drawn edge carries each of its ends in order exactly when that end is not the root. -/
theorem carriesEnd_of_drawEdge (applied : applyFilter tree edges filter = .ok graph)
    (depicted : List.Forall₂ (graph.Depicts options styles) graph.shown image.allNodes)
    {edge : Edge} {drawn : ImageEdge} (listed : edge ∈ graph.edges.values)
    (drew : drawEdge graph options edge = .ok drawn) :
    (image.CarriesEnd tree filter.parentEdges drawn.client drawn.tail ↔
        tree.find? drawn.client ≠ some root) ∧
      (image.CarriesEnd tree filter.parentEdges drawn.server drawn.head ↔
        tree.find? drawn.server ≠ some root) := by
  obtain ⟨client, server, foundClient, foundServer, clientKept, serverKept, tail, head⟩ :=
    ends_of_drawEdge drew
  rw [clientKept, serverKept, tail, head]
  have endsAt {id : NodeId} {position : Nat} (found : graph.tree.find? id = some position)
      (ends : graph.IsEnd id) : graph.EndsAt position := by
    obtain ⟨node, present, rfl⟩ := find?_eq_some_iff.mp found
    exact ⟨node, present, ends⟩
  have clientEnds := endsAt foundClient ⟨edge, listed, Or.inl rfl⟩
  have serverEnds := endsAt foundServer ⟨edge, listed, Or.inr rfl⟩
  rw [tree_of_applyFilter applied] at foundClient foundServer
  rw [carriesEnd_iff applied depicted foundClient clientEnds,
    carriesEnd_iff applied depicted foundServer serverEnds, foundClient, foundServer]
  simp only [ne_eq, Option.some.injEq, and_self]

end VisibleGraph

/-- An image carries the end of an edge in order exactly when the end is not the root, so it carries all
ends exactly when no shown edge that is drawn names the root. The exception is stated for both settings.
Where edges may end on expanded groups, an edge to the root is refused by nothing either, and its end is
missing from the image all the same. -/
theorem edge_ends_exact {tree : Tree} {edges : Edges} {filter : Filter} {graph : VisibleGraph}
    {options : ViewOptions} {styles : Styles} {image : Image} {side : SideTable}
    (applied : applyFilter tree edges filter = .ok graph)
    (projected : project graph options styles = .ok (.image image side)) :
    (∀ edge ∈ image.edges,
      (image.CarriesEnd tree filter.parentEdges edge.client edge.tail ↔
        tree.find? edge.client ≠ some root) ∧
      (image.CarriesEnd tree filter.parentEdges edge.server edge.head ↔
        tree.find? edge.server ≠ some root)) ∧
    (image.CarriesEnds tree filter.parentEdges ↔
      ∀ edge ∈ edges.values, ∀ first second, tree.LeadsBetween filter edge first second →
        tree.find? edge.client ≠ some root ∧ tree.find? edge.server ≠ some root) := by
  have depicted := VisibleGraph.depicted_of_project projected
  obtain ⟨_, _, _, each, _⟩ := VisibleGraph.exists_drawing projected
  have perEdge : ∀ edge ∈ image.edges,
      (image.CarriesEnd tree filter.parentEdges edge.client edge.tail ↔
        tree.find? edge.client ≠ some root) ∧
      (image.CarriesEnd tree filter.parentEdges edge.server edge.head ↔
        tree.find? edge.server ≠ some root) := by
    intro edge listed
    obtain ⟨gathered, present, here⟩ := Outcome.exists_of_mem_right each listed
    exact VisibleGraph.carriesEnd_of_drawEdge applied depicted present here
  -- A drawn edge is gathered from shown edges, and each shown edge between two places is drawn. So what
  -- holds of all drawn edges is carried over to the shown ones and back; the root is its own
  -- representative.
  refine ⟨perEdge, ?_, ?_⟩
  · intro carries edge given first second leads
    obtain ⟨client, server, foundClient, foundServer⟩ := exists_ids_of_leadsBetween leads
    obtain ⟨gathered, listed, rfl, rfl⟩ :=
      (joins_iff applied).mpr ⟨edge, given, first, second, leads, foundClient, foundServer⟩
    obtain ⟨line, present, here⟩ := Outcome.exists_of_mem_left each listed
    obtain ⟨_, _, _, _, clientKept, serverKept, _, _⟩ := VisibleGraph.ends_of_drawEdge here
    have clientBelow := (perEdge line present).1.mp (carries line present).1
    have serverBelow := (perEdge line present).2.mp (carries line present).2
    rw [clientKept, foundClient, ne_eq, Option.some.injEq] at clientBelow
    rw [serverKept, foundServer, ne_eq, Option.some.injEq] at serverBelow
    exact ⟨mt (leadsBetween_root_iff leads).1.mpr clientBelow,
      mt (leadsBetween_root_iff leads).2.mpr serverBelow⟩
  · intro below line present
    obtain ⟨gathered, listed, here⟩ := Outcome.exists_of_mem_right each present
    obtain ⟨_, _, _, _, clientKept, serverKept, _, _⟩ := VisibleGraph.ends_of_drawEdge here
    obtain ⟨edge, given, first, second, leads, foundClient, foundServer⟩ :=
      (joins_iff applied).mp ⟨gathered, listed, rfl, rfl⟩
    obtain ⟨clientBelow, serverBelow⟩ := below edge given first second leads
    refine ⟨(perEdge line present).1.mpr ?_, (perEdge line present).2.mpr ?_⟩
    · rw [clientKept, foundClient, ne_eq, Option.some.injEq]
      exact mt (leadsBetween_root_iff leads).1.mp clientBelow
    · rw [serverKept, foundServer, ne_eq, Option.some.injEq]
      exact mt (leadsBetween_root_iff leads).2.mp serverBelow

namespace Sample

/-- The leaves that edges name are shown, one group is expanded, and no edge may end on it. -/
def strictFilter : Filter := ⟨.ofList [caller, deep, flat], .ofList [opened], false⟩

/-- The name of the root is not empty. -/
theorem root_ne_empty : "Root" ≠ "" := by decide

/-- The name of the root is free of separators. -/
theorem root_unseparated :
    fieldSeparator ∉ "Root".toList ∧ endpointSeparator ∉ "Root".toList := by decide

/-- The root of the tree with a single leaf. -/
def loneRoot : NodeId := .named .customFolder ⟨"Root", root_ne_empty, root_unseparated⟩

/-- A root with a single leaf. -/
def loneTree : Tree where
  nodes := [⟨loneRoot, "", none, .group false⟩, ⟨caller, "Caller", some 0, .leaf⟩]
  distinct := by decide
  rooted := rfl
  attached := by
    intro position node present later
    match position with
    | 0 => exact absurd later (Nat.lt_irrefl 0)
    | 1 =>
      obtain rfl := Option.some.inj present
      exact ⟨_, _, rfl, by decide, rfl, rfl⟩
    | _ + 2 => simp at present

/-- An edge from the leaf to the root. -/
def rootEdges : Edges := Edges.empty.gatherAll [⟨caller, loneRoot, ["up"], false⟩]

/-- The leaf and the root are shown, nothing is expanded, and no edge may end on a group that
is. -/
def rootFilter : Filter := ⟨.ofList [caller, loneRoot], .empty, false⟩

end Sample

/-- In the sample without edges on the expanded group every end is in order: the collapsed group
and the leaf inside the expanded one are boxes of the image. -/
theorem sample_carries_ends :
    ∃ graph image side, applyFilter Sample.tree Sample.edges Sample.strictFilter = .ok graph ∧
      project graph (.standard .custom) .plain = .ok (.image image side) ∧
      image.edges.map (fun edge => (edge.client, edge.server)) =
        [(Sample.caller, Sample.outer), (Sample.outer, Sample.caller)] ∧
      image.CarriesEnds Sample.tree false := by
  have drawn : (picture? Sample.tree Sample.edges Sample.strictFilter (.standard .custom) .plain).map
      (fun picture => picture.1.edges.map (fun edge => (edge.client, edge.server))) =
        some [(Sample.caller, Sample.outer), (Sample.outer, Sample.caller)] := by decide
  obtain ⟨⟨image, side⟩, found, ends⟩ := Option.map_eq_some_iff.mp drawn
  obtain ⟨graph, applied, projected⟩ := exists_graph_of_picture? found
  have below : ∀ edge ∈ Sample.edges.values,
      Sample.tree.find? edge.client ≠ some root ∧ Sample.tree.find? edge.server ≠ some root := by
    decide
  exact ⟨graph, image, side, applied, projected, ends,
    (edge_ends_exact applied projected).2.mpr (fun edge listed _ _ _ => below edge listed)⟩

/-- An edge to the root is drawn although no edge may end on an expanded group, and its end is
no node of the image. -/
theorem root_end_not_carried :
    ∃ graph image side, applyFilter Sample.loneTree Sample.rootEdges Sample.rootFilter = .ok graph ∧
      project graph (.standard .custom) .plain = .ok (.image image side) ∧
      ¬ image.CarriesEnds Sample.loneTree false := by
  have drawn : (picture? Sample.loneTree Sample.rootEdges Sample.rootFilter (.standard .custom)
      .plain).map (fun picture => picture.1.edges.any (fun edge =>
        decide (edge.server ∉ picture.1.allNodes.map ImageNode.id))) = some true := by decide
  obtain ⟨⟨image, side⟩, found, missing⟩ := Option.map_eq_some_iff.mp drawn
  obtain ⟨graph, applied, projected⟩ := exists_graph_of_picture? found
  obtain ⟨edge, listed, absent⟩ := List.any_eq_true.mp missing
  exact ⟨graph, image, side, applied, projected,
    fun carries => of_decide_eq_true absent (carries edge listed).2.drawn⟩

end DependencyDiagram

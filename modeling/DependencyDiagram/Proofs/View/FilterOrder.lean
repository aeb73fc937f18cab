import DependencyDiagram.Proofs.Surfacing.Hiding
import DependencyDiagram.View.Assembly

/-!
# The order of a filter's sets

A filter keeps the order of its two sets, but nothing that is drawn depends on it. A filter is asked
whether it shows a leaf, whether it expands a group, and whether edges may end on expanded groups, and
for nothing else. So filters that answer alike close the same groups over every node and route every
edge in the same way; the same nodes show, and the picture, its side table or the message in its place
is the same. A failure is the same too.
-/

namespace DependencyDiagram

open DependencyDiagram.Tree

/-- Two filters show the same leaves, expand the same groups, and say the same of edges that end on
expanded groups. All identifiers are compared, also those that the tree in question does not have, so
that being alike does not depend on a tree. -/
structure Filter.Alike (left right : Filter) : Prop where
  leaves : ∀ id, left.showsLeaf id = right.showsLeaf id
  groups : ∀ id, left.expandsGroup id = right.expandsGroup id
  parentEdges : left.parentEdges = right.parentEdges

namespace Filter.Alike

variable {left right : Filter} {tree : Tree} {surfaced : Surfaced} {options : ViewOptions}
  {styles : Styles} (alike : left.Alike right)
include alike

/-- Of filters that answer alike each is as narrow as the other. -/
theorem narrows : left.Narrows right where
  leaves id shown := alike.leaves id ▸ shown
  groups := alike.groups
  parentEdges := alike.parentEdges

/-- Every edge is routed in the same way. -/
theorem route_eq : tree.route left = tree.route right := by
  funext edge
  rw [route, route, alike.leaves, alike.leaves, alike.narrows.surface_eq, alike.narrows.checkEnds_eq,
    alike.narrows.surfacedLabels_eq]

/-- The same nodes show. -/
theorem showing_eq (participants : Collection NodeId) :
    tree.showing left participants = tree.showing right participants := by
  have each : tree.showsWith left participants = tree.showsWith right participants := by
    funext position below
    simp only [showsWith, alike.leaves]
  rw [showing, showing, each]

/-- The same positions are visible, inside collapsed groups as well. -/
theorem isVisible_eq :
    (VisibleGraph.ofSurfaced tree left surfaced).isVisible =
      (VisibleGraph.ofSurfaced tree right surfaced).isVisible := by
  funext position
  simp only [VisibleGraph.isVisible, VisibleGraph.ofSurfaced, alike.showing_eq]

/-- The same positions are drawn as frames. -/
theorem isExpanded_eq :
    (VisibleGraph.ofSurfaced tree left surfaced).isExpanded =
      (VisibleGraph.ofSurfaced tree right surfaced).isExpanded := by
  funext position
  simp only [VisibleGraph.isExpanded, VisibleGraph.ofSurfaced, alike.narrows.isOpenGroup_eq]

/-- The same number of nodes is drawn. -/
theorem visibleCount_eq :
    (VisibleGraph.ofSurfaced tree left surfaced).visibleCount =
      (VisibleGraph.ofSurfaced tree right surfaced).visibleCount := by
  rw [VisibleGraph.visibleCount, VisibleGraph.visibleCount, VisibleGraph.drawn, VisibleGraph.drawn,
    alike.isVisible_eq]
  simp only [VisibleGraph.ofSurfaced, alike.narrows.closure?_eq]

/-- All nodes are drawn in the same way. -/
theorem drawNodes_eq :
    drawNodes (.ofSurfaced tree left surfaced) options styles =
      drawNodes (.ofSurfaced tree right surfaced) options styles := by
  have node : drawNode (.ofSurfaced tree left surfaced) options styles =
      drawNode (.ofSurfaced tree right surfaced) options styles := by
    funext position node below
    rw [drawNode, drawNode, alike.isExpanded_eq]
    rfl
  have below : drawFrom (.ofSurfaced tree left surfaced) options styles =
      drawFrom (.ofSurfaced tree right surfaced) options styles := by
    funext position
    rw [drawFrom, drawFrom, node, alike.isVisible_eq]
    rfl
  rw [drawNodes, drawNodes, below]
  rfl

/-- Every edge is drawn in the same way. -/
theorem drawEdge_eq :
    drawEdge (.ofSurfaced tree left surfaced) options =
      drawEdge (.ofSurfaced tree right surfaced) options := by
  have between : edgeBetween (.ofSurfaced tree left surfaced) options =
      edgeBetween (.ofSurfaced tree right surfaced) options := by
    funext edge client server
    rw [edgeBetween, edgeBetween, alike.isExpanded_eq]
    rfl
  funext edge
  rw [drawEdge, drawEdge, between]
  rfl

/-- The surfaced edges are projected to the same image or message. -/
theorem project_eq :
    project (.ofSurfaced tree left surfaced) options styles =
      project (.ofSurfaced tree right surfaced) options styles := by
  have ends : (VisibleGraph.ofSurfaced tree left surfaced).filter.parentEdges =
      (VisibleGraph.ofSurfaced tree right surfaced).filter.parentEdges := alike.parentEdges
  rw [project, project, isTooLarge, isTooLarge, alike.visibleCount_eq, alike.drawNodes_eq,
    alike.drawEdge_eq, ends]
  rfl

/-- A view shows the same under either filter, or fails in the same way. -/
theorem content_assemble (source : GraphSource) :
    (assemble styles source left options).map ViewDescription.content =
      (assemble styles source right options).map ViewDescription.content := by
  have routed : source.built.tree.routes source.edges left =
      source.built.tree.routes source.edges right := by
    rw [routes, routes, alike.route_eq]
  rw [assemble, assemble, applyFilter_eq, applyFilter_eq, routed]
  cases source.built.tree.routes source.edges right with
  | error failure => rfl
  | ok found =>
    -- the routes are the same, so the graphs differ in their filters alone
    change Except.map _ (inStage _ _ (project _ options styles) >>= _) =
      Except.map _ (inStage _ _ (project _ options styles) >>= _)
    rw [alike.project_eq]
    cases project (.ofSurfaced source.built.tree right (source.built.tree.surfaced found)) options
      styles <;> rfl

end Filter.Alike

end DependencyDiagram

import DependencyDiagram.Proofs.Picture.Layout
import DependencyDiagram.Proofs.Surfacing.DrawnEdges
import Mathlib.Data.List.Perm.Basic

/-!
# The size guard

A graph is drawn only if it is not too large, which is decided before anything is drawn. The nodes
are counted by going through all positions of the tree, while they are drawn by going down from the
root and stopping at boxes; both meet the same positions. So the guard speaks of the picture that it
prevents, and limits that let a picture pass do not change it.
-/

namespace DependencyDiagram

open DependencyDiagram.Tree

/-- The same options with other limits. Nothing else in the options is touched, so the two pictures can
be compared. -/
def ViewOptions.limited (options : ViewOptions) (maxNodes maxEdges : Nat) : ViewOptions :=
  { options with maxNodes := maxNodes, maxEdges := maxEdges }

namespace VisibleGraph

variable {graph : VisibleGraph} {options : ViewOptions} {styles : Styles} {image : Image}
  {side : SideTable}

/-- The positions that are counted are those that are drawn. -/
theorem mem_drawn_iff_mem_shown {position : Nat} : position ∈ graph.drawn ↔ position ∈ graph.shown := by
  rw [drawn, List.mem_filter, List.mem_range, mem_shown, closure?_eq]
  simp only [Option.isNone_map, Bool.and_eq_true, bne_iff_ne, Option.isNone_iff_eq_none, and_assoc]
  constructor
  · rintro ⟨_, below, visible, exposed⟩
    exact ⟨below, visible, exposed⟩
  · rintro ⟨below, visible, exposed⟩
    exact ⟨lt_size_of_isVisible below visible, below, visible, exposed⟩

/-- As many positions are counted as are drawn. -/
theorem visibleCount_eq (graph : VisibleGraph) : graph.visibleCount = graph.shown.length := by
  have counted : graph.drawn.Nodup := List.nodup_range.filter _
  have same : graph.drawn.Perm graph.shown :=
    (List.perm_ext_iff_of_nodup counted graph.shown_nodup).mpr (fun _ => mem_drawn_iff_mem_shown)
  exact same.length_eq

/-- An image has a node for every position that is counted. -/
theorem length_allNodes (projected : project graph options styles = .ok (.image image side)) :
    image.allNodes.length = graph.visibleCount := by
  rw [visibleCount_eq, (depicted_of_project projected).length_eq]

/-- An image has an edge for every edge of the graph. -/
theorem length_edges (projected : project graph options styles = .ok (.image image side)) :
    image.edges.length = graph.edges.size := by
  obtain ⟨_, _, _, each, _⟩ := exists_drawing projected
  rw [← each.length_eq]
  exact List.length_map _

/-- The guard speaks of the picture that was drawn under other limits. -/
theorem isTooLarge_limited (projected : project graph options styles = .ok (.image image side))
    (maxNodes maxEdges : Nat) :
    isTooLarge graph (options.limited maxNodes maxEdges) = true ↔
      maxNodes < image.allNodes.length ∨ maxEdges < image.edges.length := by
  rw [isTooLarge, Bool.or_eq_true, decide_eq_true_eq, decide_eq_true_eq, length_allNodes projected,
    length_edges projected]
  exact Iff.rfl

/-- A picture that was drawn under some limits is the same under others that let it pass. -/
theorem project_of_not_tooLarge (projected : project graph options styles = .ok (.image image side))
    {maxNodes maxEdges : Nat} (fits : ¬ isTooLarge graph (options.limited maxNodes maxEdges) = true) :
    project graph (options.limited maxNodes maxEdges) styles = .ok (.image image side) := by
  rw [project] at projected ⊢
  rw [if_neg fits]
  split at projected
  · cases Except.ok.inj projected
  · -- neither nodes nor edges are drawn by the limits
    exact projected

end VisibleGraph

/-- An image has exactly the nodes that the guard counts. Under any other limits the graph is refused,
with the numbers of the image in the message, exactly when the image has more nodes or edges than they
allow, and otherwise it is projected to the very same image and side table. A graph is thus refused for
what would have been drawn and for nothing else. It takes one picture to know the answer under all
limits. -/
theorem size_guard_exact {graph : VisibleGraph} {options : ViewOptions} {styles : Styles}
    {image : Image} {side : SideTable}
    (projected : project graph options styles = .ok (.image image side)) :
    image.allNodes.length = graph.visibleCount ∧
      ∀ maxNodes maxEdges, project graph (options.limited maxNodes maxEdges) styles =
        .ok (if maxNodes < image.allNodes.length ∨ maxEdges < image.edges.length then
          .tooLarge (tooLargeMessage image.allNodes.length image.edges.length maxNodes maxEdges)
        else .image image side) := by
  refine ⟨VisibleGraph.length_allNodes projected, fun maxNodes maxEdges => ?_⟩
  have guard := VisibleGraph.isTooLarge_limited projected maxNodes maxEdges
  by_cases exceeds : maxNodes < image.allNodes.length ∨ maxEdges < image.edges.length
  · rw [if_pos exceeds, project, if_pos (guard.mpr exceeds), VisibleGraph.length_allNodes projected,
      VisibleGraph.length_edges projected]
    rfl
  · rw [if_neg exceeds]
    exact VisibleGraph.project_of_not_tooLarge projected (mt guard.mp exceeds)

/-- The sample is drawn with three nodes and three edges where limits are high. Limits are inclusive:
three of each let it pass, and two nodes do not. -/
theorem size_guard_of_sample : ∃ graph image side,
    applyFilter Sample.tree Sample.edges Sample.filter = .ok graph ∧
      project graph ((ViewOptions.standard .custom).limited Text.maxWord64 Text.maxWord64) .plain =
        .ok (.image image side) ∧
      graph.visibleCount = 3 ∧
      project graph ((ViewOptions.standard .custom).limited 3 3) .plain = .ok (.image image side) ∧
      project graph ((ViewOptions.standard .custom).limited 2 3) .plain =
        .ok (.tooLarge (tooLargeMessage 3 3 2 3)) := by
  have drawn : (picture? Sample.tree Sample.edges Sample.filter
      ((ViewOptions.standard .custom).limited Text.maxWord64 Text.maxWord64) .plain).map
        (fun picture => (picture.1.allNodes.length, picture.1.edges.length)) = some (3, 3) := by decide
  obtain ⟨⟨image, side⟩, found, numbers⟩ := Option.map_eq_some_iff.mp drawn
  obtain ⟨nodes, edges⟩ := Prod.mk.inj numbers
  obtain ⟨graph, applied, projected⟩ := exists_graph_of_picture? found
  obtain ⟨counted, guarded⟩ := size_guard_exact projected
  rw [nodes, edges] at guarded
  exact ⟨graph, image, side, applied, projected, counted.symm.trans nodes, guarded 3 3, guarded 2 3⟩

end DependencyDiagram

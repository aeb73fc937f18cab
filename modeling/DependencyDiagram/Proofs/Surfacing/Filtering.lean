import DependencyDiagram.Proofs.Surfacing.Routing
import DependencyDiagram.Proofs.Ordered.Contents

/-!
# Applying a filter

A filter reduces a tree with its edges to the edges drawn between representatives. Every tree passes the
structural check, so applying a filter fails only where routing does. The drawn edges are the input
edges' contributions, one edge for each pair of representatives in the order of the pairs' first edges.

These are the facts that lead from the stages of the filter to the edges. What is said of pictures later
begins from here.
-/

namespace DependencyDiagram

open DependencyDiagram.Tree

/-- Applying a filter is routing the edges and gathering the routes. -/
theorem applyFilter_eq (tree : Tree) (edges : Edges) (filter : Filter) :
    applyFilter tree edges filter =
      (tree.routes edges filter).map
        (fun found => VisibleGraph.ofSurfaced tree filter (tree.surfaced found)) := by
  rw [applyFilter, tree.checkStructure_succeeds]
  cases tree.routes edges filter <;> rfl

/-- A filtered graph comes from routes of all edges. -/
theorem exists_routes_of_applyFilter {tree : Tree} {edges : Edges} {filter : Filter}
    {graph : VisibleGraph} (applied : applyFilter tree edges filter = .ok graph) :
    ∃ found, tree.routes edges filter = .ok found ∧
      graph = VisibleGraph.ofSurfaced tree filter (tree.surfaced found) := by
  rw [applyFilter_eq] at applied
  cases routed : tree.routes edges filter with
  | error failure =>
    rw [routed] at applied
    cases applied
  | ok found =>
    rw [routed] at applied
    exact ⟨found, rfl, (Except.ok.inj applied).symm⟩

/-- Applying a filter fails exactly when a shown edge dangles, or when edges must not end on
expanded groups and a shown edge would. -/
theorem applyFilter_fails_iff {tree : Tree} {edges : Edges} {filter : Filter} :
    (∃ failure, applyFilter tree edges filter = .error failure) ↔
      (∃ edge ∈ edges.values, tree.Dangles filter edge) ∨
        filter.parentEdges = false ∧ ∃ edge ∈ edges.values, tree.EndsOnOpenGroup filter edge := by
  rw [← routes_fails_iff, applyFilter_eq]
  cases tree.routes edges filter <;> simp [Except.map]

/-- The drawn edges are the merged contributions of the input edges. -/
theorem values_of_applyFilter {tree : Tree} {edges : Edges} {filter : Filter}
    {graph : VisibleGraph} (applied : applyFilter tree edges filter = .ok graph) :
    graph.edges.values =
      Contribution.merged (edges.values.filterMap (tree.contribution? filter)) := by
  obtain ⟨found, routed, rfl⟩ := exists_routes_of_applyFilter applied
  change (tree.surfaced found).edges.values = _
  rw [surfaced_edges, Edges.values_gatherAll, contributions_of_routes routed]

end DependencyDiagram

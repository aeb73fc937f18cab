import DependencyDiagram.Proofs.Surfacing.Filtering

/-!
# The drawn edges

Which edges a filter leaves is determined by paths alone: every shown edge is drawn between
the outermost collapsed groups above its endpoints, or the endpoints themselves, unless both
ends coincide.

The sample has a collapsed group inside a collapsed group, an expanded group, and edges that
leave, enter, stay inside and fold together.
-/

namespace DependencyDiagram

/-- Applying a filter fails exactly when a shown edge has an endpoint outside the tree, or when edges
must not end on expanded groups and a shown edge would be drawn to or from one. Otherwise the drawn edges
are the input edges taken in order, each between the representatives of its endpoints, with one edge for
each ordered pair in the order of first occurrence and with the labels of all edges of the pair in order.
There is no condition on the tree, the edges or the filter. Representatives and contributions are defined
by paths alone, so the statement can be read without knowing how edges are routed, gathered and merged. -/
theorem drawn_edges_exact (tree : Tree) (edges : Edges) (filter : Filter) :
    ((∃ failure, applyFilter tree edges filter = .error failure) ↔
      (∃ edge ∈ edges.values, tree.Dangles filter edge) ∨
        filter.parentEdges = false ∧ ∃ edge ∈ edges.values, tree.EndsOnOpenGroup filter edge) ∧
    ∀ graph, applyFilter tree edges filter = .ok graph →
      graph.edges.values =
        Contribution.merged (edges.values.filterMap (tree.contribution? filter)) :=
  ⟨applyFilter_fails_iff, fun _ applied => values_of_applyFilter applied⟩

namespace Sample

/-- The group that is collapsed. -/
def outer : NodeId := .named .customFolder ⟨"Outer", by decide, by decide⟩

/-- A group inside the collapsed one. -/
def inner : NodeId := .named .customFolder ⟨"Inner", by decide, by decide⟩

/-- The group that is expanded. -/
def opened : NodeId := .named .customFolder ⟨"Open", by decide, by decide⟩

/-- A leaf two groups below the outer group. -/
def deep : NodeId := .named .nameSpace ⟨"Deep", by decide, by decide⟩

/-- A leaf directly below the outer group. -/
def flat : NodeId := .named .nameSpace ⟨"Flat", by decide, by decide⟩

/-- A leaf of the expanded group. -/
def caller : NodeId := .named .nameSpace ⟨"Caller", by decide, by decide⟩

/-- Two groups below the root, one of them with a group of its own. -/
def tree : Tree where
  nodes := [
    ⟨.named .customFolder ⟨"Root", by decide, by decide⟩, "", none, .group false⟩,
    ⟨outer, "Outer", some 0, .group false⟩,
    ⟨inner, "Inner", some 1, .group false⟩,
    ⟨deep, "Deep", some 2, .leaf⟩,
    ⟨flat, "Flat", some 1, .leaf⟩,
    ⟨opened, "Open", some 0, .group false⟩,
    ⟨caller, "Caller", some 5, .leaf⟩]
  distinct := by decide
  rooted := rfl
  attached := by
    intro position node present later
    match position with
    | 0 => exact absurd later (Nat.lt_irrefl 0)
    | 1 | 2 | 3 | 4 | 5 | 6 =>
      obtain rfl := Option.some.inj present
      exact ⟨_, _, rfl, by decide, rfl, rfl⟩
    | _ + 7 => simp at present

/-- Two edges that enter the outer group from one leaf, one inside it, one from the expanded
group, and one that leaves. -/
def edges : Edges := Edges.empty.gatherAll [
  ⟨caller, deep, ["run"], true⟩,
  ⟨deep, flat, ["fold"], true⟩,
  ⟨caller, flat, ["stop"], true⟩,
  ⟨opened, deep, ["all"], true⟩,
  ⟨flat, caller, ["back"], true⟩]

/-- Everything is shown, one group is expanded, and edges may end on it. -/
def filter : Filter where
  leafVisible := .ofList [caller, deep, flat, opened]
  groupExpanded := .ofList [opened]
  parentEdges := true

end Sample

/-- In the sample the two edges into the outer group become one with two labels, the edge
inside it vanishes, and each of the others keeps its own ends where they are drawn. -/
theorem drawn_edges_of_sample :
    ∃ graph, applyFilter Sample.tree Sample.edges Sample.filter = .ok graph ∧
      graph.edges.values.map (fun edge => ((edge.client, edge.server), edge.labels)) =
        [((Sample.caller, Sample.outer), ["Inner", "Flat"]),
          ((Sample.opened, Sample.outer), ["Inner"]),
          ((Sample.outer, Sample.caller), ["back"])] := by
  have succeeds : (applyFilter Sample.tree Sample.edges Sample.filter).toOption.isSome := by decide
  obtain ⟨graph, found⟩ := Option.isSome_iff_exists.mp succeeds
  have applied := Outcome.toOption_eq_some_iff.mp found
  refine ⟨graph, applied, ?_⟩
  rw [(drawn_edges_exact Sample.tree Sample.edges Sample.filter).2 graph applied]
  decide

end DependencyDiagram

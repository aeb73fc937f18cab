import DependencyDiagram.Proofs.Surfacing.Participation

/-!
# What is visible

Visibility is computed from below and does not look at closures, so it also marks nodes that
lie hidden inside a collapsed group. Where nothing above a node is collapsed the marks mean
what they should: the node is visible exactly when an edge ends at or below it. Of what takes
part below such a node, the representative lies below it too, since otherwise a collapsed
group would lie above the node. At a leaf and at a collapsed group nothing below can be the
end of an edge, so these are visible exactly when an edge ends on them.
-/

namespace DependencyDiagram.VisibleGraph

open DependencyDiagram.Tree

variable {tree : Tree} {edges : Edges} {filter : Filter} {graph : VisibleGraph}

/-- The node at the position takes part, and if it is a leaf it is shown. Visibility passes this upwards:
a node is marked if it shows itself or a child is marked. -/
def ShowsItselfAt (graph : VisibleGraph) (position : Nat) : Prop :=
  ∃ node, graph.tree.node? position = some node ∧
    node.id ∈ graph.surfaced.participants.members ∧
    (node.isLeaf = true → graph.filter.showsLeaf node.id = true)

/-- A node shows by itself or because a child does. -/
theorem showsFrom_iff_here_or_child (graph : VisibleGraph) (position : Nat) :
    graph.tree.showsFrom graph.filter graph.surfaced.participants position = true ↔
      graph.ShowsItselfAt position ∨ ∃ child ∈ graph.tree.children position,
        graph.tree.showsFrom graph.filter graph.surfaced.participants child = true := by
  rw [showsFrom, fold_eq, showsWith, ShowsItselfAt]
  cases present : graph.tree.node? position with
  | none =>
    have alone : graph.tree.children position = [] :=
      children_eq_nil (List.getElem?_eq_none_iff.mp present)
    simp [alone]
  | some node =>
    by_cases leaf : node.isLeaf = true
    · simp [leaf, children_of_leaf present leaf, Collection.contains_iff, and_comm]
    · simp [leaf, Collection.contains_iff, showsFrom]

/-- A node shows when something at or below it shows by itself. -/
theorem showsFrom_iff (graph : VisibleGraph) (position : Nat) :
    graph.tree.showsFrom graph.filter graph.surfaced.participants position = true ↔
      ∃ lower, graph.tree.AtOrAbove position lower ∧ graph.ShowsItselfAt lower := by
  induction position using graph.tree.downward_induction with
  | step position inductionHypothesis =>
    rw [showsFrom_iff_here_or_child]
    constructor
    · rintro (here | ⟨child, listed, shows_⟩)
      · exact ⟨position, Relation.ReflTransGen.refl, here⟩
      · obtain ⟨lower, below, itself⟩ := (inductionHypothesis child listed).mp shows_
        exact ⟨lower, Relation.ReflTransGen.head (mem_children.mp listed) below, itself⟩
    · rintro ⟨lower, below, itself⟩
      rcases Relation.ReflTransGen.cases_head below with rfl | ⟨child, named, further⟩
      · exact Or.inl itself
      · have listed : child ∈ graph.tree.children position := mem_children.mpr named
        exact Or.inr ⟨child, listed, (inductionHypothesis child listed).mpr ⟨lower, further, itself⟩⟩

/-- Where an edge ends, the node shows by itself: a leaf there represents nothing but itself. -/
theorem showsItselfAt_of_endsAt (applied : applyFilter tree edges filter = .ok graph)
    {position : Nat} (ends : graph.EndsAt position) : graph.ShowsItselfAt position := by
  obtain ⟨node, present, takesPart⟩ := takesPartAt_of_endsAt applied ends
  refine ⟨node, present, takesPart, ?_⟩
  intro leaf
  obtain ⟨lower, below, here, shown, represented⟩ := exists_represented applied ends
  rw [tree_of_applyFilter applied] at present
  rw [filter_of_applyFilter applied]
  have same : lower = position :=
    eq_of_atOrAbove_leaf present leaf (represented ▸ tree.representative_atOrAbove filter lower)
  rw [same] at here
  obtain rfl := Option.some.inj (here.symm.trans present)
  exact shown

/-- Where nothing above is collapsed, a representative of something below lies below too. -/
theorem atOrAbove_representative {position lower : Nat}
    (exposed : tree.outermostCollapsed? filter position = none)
    (below : tree.AtOrAbove position lower) :
    tree.AtOrAbove position (tree.representative filter lower) := by
  rcases atOrAbove_or_atOrAbove below (tree.representative_atOrAbove filter lower) with
    inside | higher
  · exact inside
  · rcases Relation.reflTransGen_iff_eq_or_transGen.mp higher with same | above
    · exact same ▸ Relation.ReflTransGen.refl
    · cases outer : tree.outermostCollapsed? filter lower with
      | none =>
        rw [representative_eq_self_iff.mpr outer]
        exact below
      | some group =>
        have own : tree.representative filter lower = group := by
          rw [representative, outer, Option.getD_some]
        have collapsed := (outermostCollapsed?_eq_some outer).2.1
        rw [outermostCollapsed?_eq_none_iff.mp exposed group (own ▸ above)] at collapsed
        cases collapsed

/-- Where nothing above is collapsed, a node shows exactly when an edge ends at or below it. -/
theorem showsFrom_iff_endsAt (applied : applyFilter tree edges filter = .ok graph) {position : Nat}
    (exposed : tree.outermostCollapsed? filter position = none) :
    graph.tree.showsFrom graph.filter graph.surfaced.participants position = true ↔
      ∃ lower, tree.AtOrAbove position lower ∧ graph.EndsAt lower := by
  rw [showsFrom_iff, tree_of_applyFilter applied]
  constructor
  · rintro ⟨lower, below, node, present, takesPart, _⟩
    exact ⟨tree.representative filter lower, atOrAbove_representative exposed below,
      endsAt_of_takesPartAt applied ⟨node, present, takesPart⟩⟩
  · rintro ⟨lower, below, ends⟩
    exact ⟨lower, below, showsItselfAt_of_endsAt applied ends⟩

/-- At a leaf and at a collapsed group, an edge that ends at or below ends there. -/
theorem endsAt_of_endsAt_below (applied : applyFilter tree edges filter = .ok graph)
    {position lower : Nat} {node : TreeNode} (present : tree.node? position = some node)
    (boxed : node.isLeaf = true ∨ tree.isCollapsedAt filter position = true)
    (below : tree.AtOrAbove position lower) (ends : graph.EndsAt lower) : graph.EndsAt position := by
  rcases boxed with leaf | collapsed
  · exact eq_of_atOrAbove_leaf present leaf below ▸ ends
  · rcases Relation.reflTransGen_iff_eq_or_transGen.mp below with rfl | above
    · exact ends
    · have exposed := outermostCollapsed?_of_endsAt applied ends
      rw [outermostCollapsed?_eq_none_iff.mp exposed position above] at collapsed
      cases collapsed

/-- A node is visible when it is the root or shows. -/
theorem isVisible_iff (graph : VisibleGraph) {position : Nat} :
    graph.isVisible position = true ↔ position = root ∨
      graph.tree.showsFrom graph.filter graph.surfaced.participants position = true := by
  rw [isVisible_eq, showsAt, Bool.or_eq_true, beq_iff_eq]

/-- What lies above a visible node is visible. -/
theorem isVisible_of_parent {graph : VisibleGraph} {position parent : Nat}
    (named : graph.tree.parent? position = some parent) (visible : graph.isVisible position = true) :
    graph.isVisible parent = true := by
  rcases graph.isVisible_iff.mp visible with top | shows_
  · rw [top, parent?_root] at named
    cases named
  · exact graph.isVisible_iff.mpr (Or.inr ((graph.showsFrom_iff_here_or_child parent).mpr
      (Or.inr ⟨position, mem_children.mpr named, shows_⟩)))

end DependencyDiagram.VisibleGraph

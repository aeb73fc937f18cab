import DependencyDiagram.Proofs.Surfacing.Visibility
import Mathlib.Data.List.Flatten

/-!
# The drawn positions

Drawing descends from the root into visible nodes and stops at boxes. The positions it meets
keep the order of the walk over the whole tree and are met once. They are the visible nodes
with nothing collapsed above, hence exactly those with the end of an edge at or below them.
-/

namespace DependencyDiagram.VisibleGraph

open DependencyDiagram.Tree

/-- The positions met by the drawing of a node: nothing for a hidden node, a single position for a box,
and everything met below for a frame. It is the walk over the tree, cut off at boxes and at hidden nodes. -/
def shownFrom (graph : VisibleGraph) (position : Nat) : List Nat :=
  graph.tree.fold (fun here below =>
    if graph.isVisible here then here :: (if graph.isExpanded here then below.flatten else [])
    else []) position

/-- All drawn positions, the root excluded. The root is drawn as the image itself and is no node of it. -/
def shown (graph : VisibleGraph) : List Nat :=
  (graph.tree.children root).flatMap graph.shownFrom

/-- The equation of the drawn positions. -/
theorem shownFrom_eq (graph : VisibleGraph) (position : Nat) :
    graph.shownFrom position =
      if graph.isVisible position then
        position :: (if graph.isExpanded position then
          (graph.tree.children position).flatMap graph.shownFrom else [])
      else [] := by
  rw [shownFrom, fold_eq, List.flatMap_def]
  rfl

/-- The drawing of a node keeps the order of the walk from it. -/
theorem shownFrom_sublist (graph : VisibleGraph) (position : Nat) :
    (graph.shownFrom position).Sublist (graph.tree.preorderFrom position) := by
  induction position using graph.tree.downward_induction with
  | step position inductionHypothesis =>
    rw [shownFrom_eq, preorderFrom_eq]
    split
    · apply List.Sublist.cons_cons
      split
      · exact List.Sublist.flatMap_right _ inductionHypothesis
      · exact List.nil_sublist _
    · exact List.nil_sublist _

/-- The drawing of the root goes on with all drawn positions. -/
theorem shownFrom_root (graph : VisibleGraph) : graph.shownFrom root = root :: graph.shown := by
  have visible : graph.isVisible root = true := graph.isVisible_iff.mpr (Or.inl rfl)
  have expanded : graph.isExpanded root = true := by simp [isExpanded]
  rw [shownFrom_eq, if_pos visible, if_pos expanded, shown]

/-- The drawing of the whole tree keeps the order of the walk over it. -/
theorem root_cons_shown_sublist (graph : VisibleGraph) :
    (root :: graph.shown).Sublist graph.tree.preorder :=
  graph.shownFrom_root ▸ graph.shownFrom_sublist root

/-- No position is drawn twice. -/
theorem shown_nodup (graph : VisibleGraph) : graph.shown.Nodup :=
  (List.nodup_cons.mp (graph.root_cons_shown_sublist.nodup (graph.tree.preorderFrom_nodup root))).2

/-- The root is not among the drawn positions. -/
theorem root_not_mem_shown (graph : VisibleGraph) : root ∉ graph.shown :=
  (List.nodup_cons.mp (graph.root_cons_shown_sublist.nodup (graph.tree.preorderFrom_nodup root))).1

/-- What lies at or above a visible node is visible. -/
theorem isVisible_of_atOrAbove {graph : VisibleGraph} {upper position : Nat}
    (below : graph.tree.AtOrAbove upper position) (visible : graph.isVisible position = true) :
    graph.isVisible upper = true := by
  induction below with
  | refl => exact visible
  | tail _ named inductionHypothesis => exact inductionHypothesis (isVisible_of_parent named visible)

/-- The drawing of a node meets what is visible below it behind expanded groups alone. The induction goes
down the tree. Whatever is met below is met through one child, and the nodes in between are the node
itself and those between the child and the position. -/
theorem mem_shownFrom {graph : VisibleGraph} {upper position : Nat} :
    position ∈ graph.shownFrom upper ↔
      graph.tree.AtOrAbove upper position ∧ graph.isVisible position = true ∧
        ∀ between, graph.tree.AtOrAbove upper between → graph.tree.Above between position →
          graph.isExpanded between = true := by
  induction upper using graph.tree.downward_induction with
  | step upper inductionHypothesis =>
    rw [shownFrom_eq]
    constructor
    · intro met
      split at met
      · next visible =>
        rcases List.mem_cons.mp met with rfl | further
        · refine ⟨Relation.ReflTransGen.refl, visible, ?_⟩
          intro between notBefore before
          exact absurd (lt_of_above before) (Nat.not_lt.mpr (le_of_atOrAbove notBefore))
        · split at further
          · next expanded =>
            obtain ⟨child, listed, here⟩ := List.mem_flatMap.mp further
            have named : graph.tree.IsParent upper child := mem_children.mp listed
            obtain ⟨below, shows_, open_⟩ := (inductionHypothesis child listed).mp here
            refine ⟨Relation.ReflTransGen.head named below, shows_, ?_⟩
            intro between notBefore before
            rcases Relation.ReflTransGen.cases_head notBefore with rfl | ⟨other, also, onward⟩
            · exact expanded
            · -- both children lead to the position, so they are the same child
              have same : other = child :=
                sibling_unique also named (onward.trans before.to_reflTransGen) below
              exact open_ between (same ▸ onward) before
          · cases further
      · cases met
    · rintro ⟨below, shows_, open_⟩
      rw [if_pos (isVisible_of_atOrAbove below shows_)]
      rcases Relation.ReflTransGen.cases_head below with rfl | ⟨child, named, further⟩
      · exact List.mem_cons_self
      · have listed : child ∈ graph.tree.children upper := mem_children.mpr named
        rw [if_pos (open_ upper Relation.ReflTransGen.refl (Relation.TransGen.head' named further))]
        refine List.mem_cons_of_mem _ (List.mem_flatMap.mpr ⟨child, listed, ?_⟩)
        refine (inductionHypothesis child listed).mpr ⟨further, shows_, ?_⟩
        exact fun between notBefore => open_ between (Relation.ReflTransGen.head named notBefore)

/-- A group is expanded exactly when it is not collapsed. -/
theorem isExpanded_of_group {graph : VisibleGraph} {position : Nat} {node : TreeNode}
    (present : graph.tree.node? position = some node) (isGroup : node.isLeaf = false) :
    graph.isExpanded position = !graph.tree.isCollapsedAt graph.filter position := by
  simp only [isExpanded, isOpenGroup, isCollapsedAt, isExpandedAt, present, Option.any_some, isGroup,
    Bool.not_false, Bool.true_and, Bool.not_and, Bool.not_not, bne]

/-- What lies above some node is a group, which is expanded exactly when it is not collapsed. -/
theorem isExpanded_of_above {graph : VisibleGraph} {upper position : Nat}
    (above : graph.tree.Above upper position) :
    graph.isExpanded upper = true ↔ graph.tree.isCollapsedAt graph.filter upper = false := by
  obtain ⟨child, named, _⟩ := Relation.TransGen.head'_iff.mp above
  obtain ⟨node, present, isGroup⟩ := group_of_parent named
  rw [isExpanded_of_group present isGroup, Bool.not_eq_true']

/-- What is visible below the root is inside the tree. -/
theorem lt_size_of_isVisible {graph : VisibleGraph} {position : Nat} (below : position ≠ root)
    (visible : graph.isVisible position = true) : position < graph.tree.size := by
  rcases graph.isVisible_iff.mp visible with top | marked
  · exact absurd top below
  · by_contra outside
    rw [showsFrom_outside _ _ (Nat.le_of_not_lt outside)] at marked
    cases marked

/-- The drawn positions are those that the drawing of the root meets below it. -/
theorem mem_shown_iff_mem_shownFrom {graph : VisibleGraph} {position : Nat} :
    position ∈ graph.shown ↔ position ≠ root ∧ position ∈ graph.shownFrom root := by
  rw [shownFrom_root, List.mem_cons]
  constructor
  · intro listed
    exact ⟨fun top => graph.root_not_mem_shown (top ▸ listed), Or.inr listed⟩
  · rintro ⟨below, top | listed⟩
    · exact absurd top below
    · exact listed

/-- The drawn positions are the visible ones with nothing collapsed above, the root excluded. -/
theorem mem_shown {graph : VisibleGraph} {position : Nat} :
    position ∈ graph.shown ↔ position ≠ root ∧ graph.isVisible position = true ∧
      graph.tree.outermostCollapsed? graph.filter position = none := by
  rw [mem_shown_iff_mem_shownFrom, mem_shownFrom, outermostCollapsed?_eq_none_iff]
  apply and_congr_right
  intro below
  constructor
  · rintro ⟨inside, visible, open_⟩
    refine ⟨visible, fun upper above => (isExpanded_of_above above).mp (open_ upper ?_ above)⟩
    exact root_atOrAbove (Nat.lt_trans (lt_of_above above) (lt_size_of_isVisible below visible))
  · rintro ⟨visible, exposed⟩
    exact ⟨root_atOrAbove (lt_size_of_isVisible below visible), visible,
      fun upper _ above => (isExpanded_of_above above).mpr (exposed upper above)⟩

/-- A node is drawn exactly when an edge ends at or below it. -/
theorem mem_shown_iff_endsAt {tree : Tree} {edges : Edges} {filter : Filter} {graph : VisibleGraph}
    (applied : applyFilter tree edges filter = .ok graph) {position : Nat} :
    position ∈ graph.shown ↔
      position ≠ root ∧ ∃ lower, tree.AtOrAbove position lower ∧ graph.EndsAt lower := by
  rw [mem_shown, isVisible_iff, filter_of_applyFilter applied, tree_of_applyFilter applied]
  apply and_congr_right
  intro below
  constructor
  · rintro ⟨top | marked, exposed⟩
    · exact absurd top below
    · rw [← filter_of_applyFilter applied, ← tree_of_applyFilter applied] at marked
      exact (showsFrom_iff_endsAt applied exposed).mp marked
  · rintro ⟨lower, further, ends⟩
    have exposed : tree.outermostCollapsed? filter position = none := by
      refine outermostCollapsed?_eq_none_iff.mpr (fun upper above => ?_)
      exact outermostCollapsed?_eq_none_iff.mp (outermostCollapsed?_of_endsAt applied ends) upper
        (above.trans_left further)
    have marked := (showsFrom_iff_endsAt applied exposed).mpr ⟨lower, further, ends⟩
    rw [filter_of_applyFilter applied, tree_of_applyFilter applied] at marked
    exact ⟨Or.inr marked, exposed⟩

end DependencyDiagram.VisibleGraph

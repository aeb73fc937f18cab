import DependencyDiagram.Tree.Walk
import Mathlib.Logic.Relation
import Mathlib.Data.List.Infix

/-!
# Ancestry

The nodes above a node form one path, which starts at the root and descends by single generations.
Parents come before their children, so every argument along a path ends: upwards by induction over
parents, downwards by induction over children. The nodes at or below a node are what the walk from it
lists, each of them once. Nothing here needs a measure: positions decrease upwards, and the tree has
finitely many of them downwards.
-/

namespace DependencyDiagram.Tree

/-- The first node is the parent of the second. -/
def IsParent (tree : Tree) (upper lower : Nat) : Prop := tree.parent? lower = some upper

/-- The first node lies strictly above the second. It is the transitive closure of being a parent, so
induction over it goes one generation at a time. -/
def Above (tree : Tree) : Nat → Nat → Prop := Relation.TransGen tree.IsParent

/-- The first node is the second or lies above it. -/
def AtOrAbove (tree : Tree) : Nat → Nat → Prop := Relation.ReflTransGen tree.IsParent

/-- The nodes strictly above a node, outermost first. -/
def ancestors (tree : Tree) (position : Nat) : List Nat :=
  tree.inherit [] (fun parent _ above => above ++ [parent]) position

/-- The path from the outermost ancestor down to the node itself. Its first member is the root for every
position of the tree, and a node is an ancestor exactly when its own path is a beginning of this one. -/
def lineage (tree : Tree) (position : Nat) : List Nat := tree.ancestors position ++ [position]

/-- What passes from the parent to the node holds everywhere. The parent comes first in
position, so the ascent ends. -/
@[elab_as_elim]
theorem upward_induction (tree : Tree) {motive : Nat → Prop}
    (step : ∀ position, (∀ parent, tree.parent? position = some parent → motive parent) →
      motive position) (position : Nat) : motive position := by
  induction position using Nat.strong_induction_on with
  | h position earlier => exact step position (fun parent named => earlier parent (parent_lt named))

/-- What passes from all children to the node holds everywhere. Children come later in
position and lie inside the tree, so the descent ends. -/
@[elab_as_elim]
theorem downward_induction (tree : Tree) {motive : Nat → Prop}
    (step : ∀ position, (∀ child ∈ tree.children position, motive child) → motive position)
    (position : Nat) : motive position := by
  induction remaining : tree.size - position using Nat.strong_induction_on generalizing position with
  | h remaining later =>
    apply step
    intro child listed
    have below : position < child := parent_lt (mem_children.mp listed)
    have inside : child < tree.size := lt_size_of_mem_children listed
    exact later (tree.size - child) (by omega) child rfl

/-- A node without a parent has nothing above it. -/
theorem ancestors_of_top {tree : Tree} {position : Nat} (top : tree.parent? position = none) :
    tree.ancestors position = [] := by
  rw [ancestors, inherit_eq, top]

/-- The parent is the last of the ancestors, behind its own. -/
theorem ancestors_of_parent {tree : Tree} {position parent : Nat}
    (named : tree.parent? position = some parent) :
    tree.ancestors position = tree.lineage parent := by
  rw [ancestors, inherit_eq, named]
  rfl

/-- The root has nothing above it. -/
theorem parent?_root (tree : Tree) : tree.parent? root = none := by
  cases named : tree.parent? root with
  | none => rfl
  | some parent => exact absurd (parent_lt named) (Nat.not_lt_zero parent)

/-- No labels are on the way to the root. -/
theorem labelPath_root (tree : Tree) : tree.labelPath root = [] := by
  rw [labelPath, inherit_eq, parent?_root]

/-- Every node but the root has a parent. -/
theorem exists_parent {tree : Tree} {position : Nat} (inside : position < tree.size)
    (below : position ≠ root) : ∃ parent, tree.parent? position = some parent := by
  obtain ⟨parent, _, named, _⟩ := tree.attached position tree.nodes[position]
    (List.getElem?_eq_getElem inside) (Nat.pos_of_ne_zero below)
  exact ⟨parent, by simp [parent?, node?, List.getElem?_eq_getElem inside, named]⟩

/-- A parent is a group of the tree. -/
theorem group_of_parent {tree : Tree} {position parent : Nat}
    (named : tree.parent? position = some parent) :
    ∃ above, tree.node? parent = some above ∧ above.isLeaf = false := by
  obtain ⟨node, present, below⟩ := Option.bind_eq_some_iff.mp named
  obtain ⟨place, above, placed, _, held, isGroup⟩ :=
    tree.attached position node present (Nat.zero_lt_of_lt (parent_lt named))
  have same : place = parent := Option.some.inj (placed.symm.trans below)
  exact ⟨above, same ▸ held, isGroup⟩

/-- The ancestors are the nodes above. -/
theorem mem_ancestors {tree : Tree} {upper position : Nat} :
    upper ∈ tree.ancestors position ↔ tree.Above upper position := by
  induction position using tree.upward_induction with
  | step position inductionHypothesis =>
    rw [Above, Relation.TransGen.tail'_iff]
    cases named : tree.parent? position with
    | none => simp [ancestors_of_top named, IsParent, named]
    | some parent =>
      have above := inductionHypothesis parent named
      rw [ancestors_of_parent named, lineage, List.mem_append, List.mem_singleton, above]
      simp only [IsParent, named, Option.some.injEq, exists_eq_right']
      rw [Relation.reflTransGen_iff_eq_or_transGen, Above, or_comm, eq_comm]

/-- The path to a node holds the node and what lies above it. -/
theorem mem_lineage {tree : Tree} {upper position : Nat} :
    upper ∈ tree.lineage position ↔ tree.AtOrAbove upper position := by
  rw [lineage, List.mem_append, List.mem_singleton, mem_ancestors, AtOrAbove,
    Relation.reflTransGen_iff_eq_or_transGen, Above, or_comm, eq_comm]

/-- What lies above a node comes before it. -/
theorem lt_of_above {tree : Tree} {upper position : Nat} (above : tree.Above upper position) :
    upper < position := by
  induction above with
  | single named => exact parent_lt named
  | tail _ named inductionHypothesis => exact Nat.lt_trans inductionHypothesis (parent_lt named)

/-- What is at or above a node does not come after it. -/
theorem le_of_atOrAbove {tree : Tree} {upper position : Nat}
    (above : tree.AtOrAbove upper position) : upper ≤ position := by
  rcases Relation.reflTransGen_iff_eq_or_transGen.mp above with same | strictly
  · exact Nat.le_of_eq same.symm
  · exact Nat.le_of_lt (lt_of_above strictly)

/-- The path to a node above is the beginning of the path to the node. -/
theorem lineage_begins {tree : Tree} {upper position : Nat}
    (above : tree.AtOrAbove upper position) : tree.lineage upper <+: tree.lineage position := by
  induction above with
  | refl => exact List.prefix_rfl
  | @tail parent lower _ named inductionHypothesis =>
    have further : tree.lineage lower = tree.lineage parent ++ [lower] := by
      rw [lineage, ancestors_of_parent named]
    rw [further]
    exact inductionHypothesis.trans (List.prefix_append _ _)

/-- Of two nodes at or above a third, one is at or above the other. -/
theorem atOrAbove_or_atOrAbove {tree : Tree} {left right position : Nat}
    (first : tree.AtOrAbove left position) (second : tree.AtOrAbove right position) :
    tree.AtOrAbove left right ∨ tree.AtOrAbove right left := by
  have self (upper : Nat) : upper ∈ tree.lineage upper := mem_lineage.mpr Relation.ReflTransGen.refl
  rcases List.prefix_or_prefix_of_prefix (lineage_begins first) (lineage_begins second) with
    begins | begins
  · exact Or.inl (mem_lineage.mp (begins.subset (self left)))
  · exact Or.inr (mem_lineage.mp (begins.subset (self right)))

/-- A leaf has no children. -/
theorem children_of_leaf {tree : Tree} {position : Nat} {node : TreeNode}
    (present : tree.node? position = some node) (leaf : node.isLeaf = true) :
    tree.children position = [] := by
  rw [List.eq_nil_iff_forall_not_mem]
  intro child listed
  obtain ⟨above, here, isGroup⟩ := group_of_parent (mem_children.mp listed)
  obtain rfl := Option.some.inj (present.symm.trans here)
  rw [leaf] at isGroup
  cases isGroup

/-- Nothing but a leaf itself lies at or below it. -/
theorem eq_of_atOrAbove_leaf {tree : Tree} {position lower : Nat} {node : TreeNode}
    (present : tree.node? position = some node) (leaf : node.isLeaf = true)
    (below : tree.AtOrAbove position lower) : lower = position := by
  rcases Relation.ReflTransGen.cases_head below with same | ⟨child, named, _⟩
  · exact same.symm
  · have listed : child ∈ tree.children position := mem_children.mpr named
    rw [children_of_leaf present leaf] at listed
    cases listed

end DependencyDiagram.Tree

import DependencyDiagram.Surfacing.Closure
import DependencyDiagram.Proofs.Tree.Subtree

/-!
# Representatives

A node is represented by the outermost collapsed group above it, or by itself where every
group above it is expanded. The root never counts as collapsed. The inherited closure of a
node is exactly this group together with the child of the group on the path to the node, so
closures can be read off the path without following the inheritance.
-/

namespace DependencyDiagram.Tree

/-- The position is not the root and its identifier is not among the expanded groups. A leaf may count as
collapsed by this. That makes no difference above a node, where there are only groups. -/
def isCollapsedAt (tree : Tree) (filter : Filter) (position : Nat) : Bool :=
  position != root && !tree.isExpandedAt filter position

/-- The collapsed ancestor closest to the root. -/
def outermostCollapsed? (tree : Tree) (filter : Filter) (position : Nat) : Option Nat :=
  (tree.ancestors position).find? (tree.isCollapsedAt filter)

/-- The collapsed ancestor closest to the root, or the node itself when there is none. -/
def representative (tree : Tree) (filter : Filter) (position : Nat) : Nat :=
  (tree.outermostCollapsed? filter position).getD position

/-- The child of a group on the path down to a node. It is the node itself where the group is its parent. -/
def entryBelow (tree : Tree) (group position : Nat) : Nat :=
  ((tree.lineage position).find? (fun step => tree.parent? step = some group)).getD position

/-- The path to a node goes on from the path to its parent. -/
theorem lineage_of_parent {tree : Tree} {position parent : Nat}
    (named : tree.parent? position = some parent) :
    tree.lineage position = tree.lineage parent ++ [position] := by
  rw [lineage, ancestors_of_parent named]

/-- The outermost collapsed group above a node is that of its parent, or else the parent. -/
theorem outermostCollapsed?_of_parent {tree : Tree} (filter : Filter) {position parent : Nat}
    (named : tree.parent? position = some parent) :
    tree.outermostCollapsed? filter position =
      (tree.outermostCollapsed? filter parent).or
        (if tree.isCollapsedAt filter parent then some parent else none) := by
  rw [outermostCollapsed?, ancestors_of_parent named, lineage, List.find?_append,
    ← outermostCollapsed?]
  congr 1
  cases collapsed : tree.isCollapsedAt filter parent <;> simp [collapsed]

/-- A node without a parent has no collapsed group above it. -/
theorem outermostCollapsed?_of_top {tree : Tree} (filter : Filter) {position : Nat}
    (top : tree.parent? position = none) : tree.outermostCollapsed? filter position = none := by
  rw [outermostCollapsed?, ancestors_of_top top, List.find?_nil]

/-- A step down the path keeps the child through which a group above was entered. -/
theorem entryBelow_of_parent {tree : Tree} {group position parent : Nat}
    (named : tree.parent? position = some parent) (above : tree.Above group parent) :
    tree.entryBelow group position = tree.entryBelow group parent := by
  obtain ⟨child, first, further⟩ := Relation.TransGen.head'_iff.mp above
  obtain ⟨step, found⟩ : ∃ step,
      (tree.lineage parent).find? (fun step => tree.parent? step = some group) = some step := by
    rw [← Option.isSome_iff_exists, List.find?_isSome]
    exact ⟨child, mem_lineage.mpr further, by simpa [IsParent] using first⟩
  rw [entryBelow, entryBelow, lineage_of_parent named, List.find?_append, found, Option.some_or,
    Option.getD_some, Option.getD_some]

/-- A group is entered through its own child on the path to that child. -/
theorem entryBelow_child {tree : Tree} {group child : Nat}
    (named : tree.parent? child = some group) : tree.entryBelow group child = child := by
  have notEarlier : (tree.lineage group).find? (fun step => tree.parent? step = some group) = none := by
    rw [List.find?_eq_none]
    intro step listed below
    have later : group < step := parent_lt (by simpa using below)
    exact Nat.lt_irrefl group (Nat.lt_of_lt_of_le later (le_of_atOrAbove (mem_lineage.mp listed)))
  rw [entryBelow, lineage_of_parent named, List.find?_append, notEarlier]
  simp [named]

/-- The closure of a node is its outermost collapsed ancestor with the child through which
the path to the node enters it. Along the path, the closure that is found first stays, and
so does the child of its group. -/
theorem closure?_eq (tree : Tree) (filter : Filter) (position : Nat) :
    tree.closure? filter position =
      (tree.outermostCollapsed? filter position).map
        (fun group => ⟨group, tree.entryBelow group position⟩) := by
  induction position using tree.upward_induction with
  | step position inductionHypothesis =>
    rw [closure?, inherit_eq]
    cases named : tree.parent? position with
    | none => rw [outermostCollapsed?_of_top filter named, Option.map_none]
    | some parent =>
      have inherited := inductionHypothesis parent named
      rw [closure?] at inherited
      simp only [inherited, outermostCollapsed?_of_parent filter named]
      cases outer : tree.outermostCollapsed? filter parent with
      | some group =>
        have above : tree.Above group parent := mem_ancestors.mp (List.mem_of_find?_eq_some outer)
        simp [entryBelow_of_parent named above]
      | none =>
        by_cases open_ : parent = root ∨ tree.isExpandedAt filter parent = true
        · have notCollapsed : tree.isCollapsedAt filter parent = false := by
            rcases open_ with top | expanded
            · simp [isCollapsedAt, top]
            · simp [isCollapsedAt, expanded]
          simp [open_, notCollapsed]
        · have collapsed : tree.isCollapsedAt filter parent = true := by
            simpa [isCollapsedAt, not_or] using open_
          simp [open_, collapsed, entryBelow_child named]

/-- A node surfaces at its representative. -/
theorem surface_eq (tree : Tree) (filter : Filter) (position : Nat) :
    tree.surface filter position = tree.representative filter position := by
  rw [surface, closure?_eq, representative]
  cases tree.outermostCollapsed? filter position <;> rfl

/-- The outermost collapsed group lies above the node, is collapsed, and has no collapsed
group above itself. -/
theorem outermostCollapsed?_eq_some {tree : Tree} {filter : Filter} {position group : Nat}
    (outer : tree.outermostCollapsed? filter position = some group) :
    tree.Above group position ∧ tree.isCollapsedAt filter group = true ∧
      tree.outermostCollapsed? filter group = none := by
  have above : tree.Above group position := mem_ancestors.mp (List.mem_of_find?_eq_some outer)
  refine ⟨above, List.find?_some outer, ?_⟩
  obtain ⟨rest, path⟩ := lineage_begins (Relation.TransGen.to_reflTransGen above)
  cases earlier : tree.outermostCollapsed? filter group with
  | none => rfl
  | some further =>
    have higher : tree.Above further group := mem_ancestors.mp (List.mem_of_find?_eq_some earlier)
    have onPath : (tree.lineage position).find? (tree.isCollapsedAt filter) = some further := by
      rw [← path, lineage, List.append_assoc, List.find?_append, ← outermostCollapsed?, earlier,
        Option.some_or]
    rw [lineage, List.find?_append, ← outermostCollapsed?, outer, Option.some_or,
      Option.some.injEq] at onPath
    exact absurd (lt_of_above higher) (onPath ▸ Nat.lt_irrefl group)

/-- Where a node has no collapsed group above it, neither has any node above it. -/
theorem outermostCollapsed?_eq_none_iff {tree : Tree} {filter : Filter} {position : Nat} :
    tree.outermostCollapsed? filter position = none ↔
      ∀ upper, tree.Above upper position → tree.isCollapsedAt filter upper = false := by
  rw [outermostCollapsed?, List.find?_eq_none]
  constructor
  · intro open_ upper above
    simpa using open_ upper (mem_ancestors.mpr above)
  · intro open_ upper listed
    simpa using open_ upper (mem_ancestors.mp listed)

/-- A representative has no collapsed group above it. -/
theorem outermostCollapsed?_representative (tree : Tree) (filter : Filter) (position : Nat) :
    tree.outermostCollapsed? filter (tree.representative filter position) = none := by
  rw [representative]
  cases outer : tree.outermostCollapsed? filter position with
  | none => exact outer
  | some group => exact (outermostCollapsed?_eq_some outer).2.2

/-- A representative lies at or above the node it stands for. -/
theorem representative_atOrAbove (tree : Tree) (filter : Filter) (position : Nat) :
    tree.AtOrAbove (tree.representative filter position) position := by
  rw [representative]
  cases outer : tree.outermostCollapsed? filter position with
  | none => exact Relation.ReflTransGen.refl
  | some group => exact (outermostCollapsed?_eq_some outer).1.to_reflTransGen

end DependencyDiagram.Tree

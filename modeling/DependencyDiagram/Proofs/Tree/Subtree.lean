import DependencyDiagram.Proofs.Tree.Ancestry
import DependencyDiagram.Proofs.Tree.Lookup
import Mathlib.Data.List.Flatten
import Mathlib.Data.List.Nodup
import Mathlib.Data.List.Sort
import Mathlib.Data.List.Zip

/-!
# Subtrees

The walk from a node lists the node and everything below it, each once: two children of one
node have nothing below them in common, since the paths to both would begin the path to it.
The conditions that are part of every tree therefore suffice for the structural check, which
walks from the root; the check cannot fail on any tree.
-/

namespace DependencyDiagram.Tree

/-- The walk from a node goes on with the walks from its children. -/
theorem preorderFrom_eq (tree : Tree) (position : Nat) :
    tree.preorderFrom position =
      position :: (tree.children position).flatMap tree.preorderFrom := by
  rw [preorderFrom, fold_eq, List.flatMap_def]
  rfl

/-- The walk from a node lists what is at or below it. -/
theorem mem_preorderFrom {tree : Tree} {upper position : Nat} :
    position ∈ tree.preorderFrom upper ↔ tree.AtOrAbove upper position := by
  induction upper using tree.downward_induction with
  | step upper inductionHypothesis =>
    rw [preorderFrom_eq, AtOrAbove, Relation.ReflTransGen.cases_head_iff, List.mem_cons,
      List.mem_flatMap, eq_comm]
    apply or_congr_right
    constructor
    · rintro ⟨child, listed, below⟩
      exact ⟨child, mem_children.mp listed, (inductionHypothesis child listed).mp below⟩
    · rintro ⟨child, named, below⟩
      have listed : child ∈ tree.children upper := mem_children.mpr named
      exact ⟨child, listed, (inductionHypothesis child listed).mpr below⟩

/-- No node lies at or below two children of one node. -/
theorem sibling_unique {tree : Tree} {parent left right position : Nat}
    (first : tree.IsParent parent left) (second : tree.IsParent parent right)
    (fromLeft : tree.AtOrAbove left position) (fromRight : tree.AtOrAbove right position) :
    left = right := by
  have leftPath : tree.lineage left = tree.lineage parent ++ [left] := by
    rw [lineage, ancestors_of_parent first]
  have rightPath : tree.lineage right = tree.lineage parent ++ [right] := by
    rw [lineage, ancestors_of_parent second]
  have equal : tree.lineage left = tree.lineage right :=
    (List.prefix_of_prefix_length_le (lineage_begins fromLeft) (lineage_begins fromRight)
      (by simp [leftPath, rightPath])).eq_of_length (by simp [leftPath, rightPath])
  rw [leftPath, rightPath, List.append_cancel_left_eq] at equal
  exact List.singleton_inj.mp equal

/-- The walk from a node lists no position twice. -/
theorem preorderFrom_nodup (tree : Tree) (position : Nat) :
    (tree.preorderFrom position).Nodup := by
  induction position using tree.downward_induction with
  | step position inductionHypothesis =>
    rw [preorderFrom_eq, List.nodup_cons, List.nodup_flatMap]
    refine ⟨?_, inductionHypothesis, ?_⟩
    · rw [List.mem_flatMap]
      rintro ⟨child, listed, again⟩
      have later : position < child := parent_lt (mem_children.mp listed)
      have notAfter : child ≤ position := le_of_atOrAbove (mem_preorderFrom.mp again)
      exact Nat.lt_irrefl position (Nat.lt_of_lt_of_le later notAfter)
    · apply List.Pairwise.imp_of_mem _ (tree.children_ascending position)
      intro left right leftListed rightListed ascending shared fromLeft fromRight
      have same : left = right :=
        sibling_unique (mem_children.mp leftListed) (mem_children.mp rightListed)
          (mem_preorderFrom.mp fromLeft) (mem_preorderFrom.mp fromRight)
      exact Nat.lt_irrefl right (same ▸ ascending)

/-- The root lies at or above every node. -/
theorem root_atOrAbove {tree : Tree} {position : Nat} (inside : position < tree.size) :
    tree.AtOrAbove root position := by
  induction position using tree.upward_induction with
  | step position inductionHypothesis =>
    by_cases top : position = root
    · exact top ▸ Relation.ReflTransGen.refl
    · obtain ⟨parent, named⟩ := exists_parent inside top
      have earlier : parent < tree.size := Nat.lt_trans (parent_lt named) inside
      exact (inductionHypothesis parent named earlier).tail named

/-- The walk from the root lists every node. -/
theorem mem_preorder {tree : Tree} {position : Nat} (inside : position < tree.size) :
    position ∈ tree.preorder :=
  mem_preorderFrom.mpr (root_atOrAbove inside)

/-- The walk from the root lists the positions of the tree, each once. -/
theorem preorder_perm (tree : Tree) : tree.preorder.Perm (List.range tree.size) := by
  apply (List.perm_ext_iff_of_nodup (tree.preorderFrom_nodup root) List.nodup_range).mpr
  intro position
  rw [List.mem_range]
  constructor
  · intro listed
    rcases Relation.ReflTransGen.cases_tail (mem_preorderFrom.mp listed) with
      same | ⟨parent, _, named⟩
    · obtain ⟨top, present, _⟩ := tree.exists_root
      exact same ▸ lt_size_of_node? present
    · exact lt_size_of_mem_children (mem_children.mpr named)
  · exact mem_preorder

/-- The walk from the root lists as many positions as there are nodes. -/
theorem length_preorder (tree : Tree) : tree.preorder.length = tree.size := by
  rw [tree.preorder_perm.length_eq, List.length_range]

/-- The walk from the root lists the first position before the second. For two different nodes of the
tree one of this and its converse holds, and groups precede everything below them. -/
def Precedes (tree : Tree) (first second : Nat) : Prop := [first, second].Sublist tree.preorder

/-- The walk from a node is part of every walk that comes by the node. -/
theorem preorderFrom_sublist {tree : Tree} {upper lower : Nat} (below : tree.AtOrAbove upper lower) :
    (tree.preorderFrom lower).Sublist (tree.preorderFrom upper) := by
  induction below with
  | refl => exact List.Sublist.refl _
  | @tail parent child _ named inductionHypothesis =>
    have among : (tree.preorderFrom child).Sublist
        ((tree.children parent).flatMap tree.preorderFrom) :=
      List.sublist_flatten_of_mem (List.mem_map_of_mem (mem_children.mpr named))
    have inside : (tree.preorderFrom child).Sublist (tree.preorderFrom parent) := by
      rw [preorderFrom_eq tree parent]
      exact among.cons parent
    exact inside.trans inductionHypothesis

/-- A node is listed before what lies below it. -/
theorem precedes_of_above {tree : Tree} {upper lower : Nat} (above : tree.Above upper lower) :
    tree.Precedes upper lower := by
  obtain ⟨parent, _, named⟩ := Relation.TransGen.tail'_iff.mp above
  have later : upper < lower := lt_of_above above
  have inside : upper < tree.size :=
    Nat.lt_trans later (lt_size_of_mem_children (mem_children.mpr named))
  have listed : lower ∈ tree.preorderFrom upper := mem_preorderFrom.mpr above.to_reflTransGen
  rw [preorderFrom_eq, List.mem_cons] at listed
  have behind : lower ∈ (tree.children upper).flatMap tree.preorderFrom :=
    listed.resolve_left (Nat.ne_of_gt later)
  have near : [upper, lower].Sublist (tree.preorderFrom upper) := by
    rw [preorderFrom_eq]
    exact (List.singleton_sublist.mpr behind).cons_cons upper
  exact near.trans (preorderFrom_sublist (root_atOrAbove inside))

/-- What is at or below a child is listed before what is at or below a later child of the same
node. -/
theorem precedes_of_siblings {tree : Tree} {parent left right first second : Nat}
    (leftNamed : tree.IsParent parent left) (rightNamed : tree.IsParent parent right)
    (earlier : left < right) (fromLeft : tree.AtOrAbove left first)
    (fromRight : tree.AtOrAbove right second) : tree.Precedes first second := by
  have inside : parent < tree.size :=
    Nat.lt_trans (parent_lt leftNamed) (lt_size_of_mem_children (mem_children.mpr leftNamed))
  have children : [left, right].Sublist (tree.children parent) := by
    apply List.sublist_of_subperm_of_pairwise _ (List.pairwise_pair.mpr earlier)
      (tree.children_ascending parent)
    refine List.subperm_of_subset (by simp [Nat.ne_of_lt earlier]) ?_
    simp [mem_children.mpr leftNamed, mem_children.mpr rightNamed]
  have walks := children.flatMap tree.preorderFrom
  rw [List.flatMap_cons, List.flatMap_singleton] at walks
  have near : [first, second].Sublist ((tree.children parent).flatMap tree.preorderFrom) :=
    ((List.singleton_sublist.mpr (mem_preorderFrom.mpr fromLeft)).append
      (List.singleton_sublist.mpr (mem_preorderFrom.mpr fromRight))).trans walks
  have whole : [first, second].Sublist (tree.preorderFrom parent) := by
    rw [preorderFrom_eq]
    exact near.cons parent
  exact whole.trans (preorderFrom_sublist (root_atOrAbove inside))

/-- What the structural check meets below a node: every child with its parent before what lies below the
child. It lists what the check would meet if nothing were wrong. The check itself keeps a stack and the
identifiers it has seen, and both are compared with this list. -/
def reachedBelow (tree : Tree) (position : Nat) : List (Option Nat × Nat) :=
  tree.fold (fun here below =>
    ((tree.children here).zip below).flatMap
      (fun (child, further) => (some here, child) :: further)) position

/-- The equation of what the check meets. -/
theorem reachedBelow_eq (tree : Tree) (position : Nat) :
    tree.reachedBelow position = (tree.children position).flatMap
      (fun child => (some position, child) :: tree.reachedBelow child) := by
  rw [reachedBelow, fold_eq]
  have paired (combine : Nat → List (Option Nat × Nat)) (keys : List Nat) :
      keys.zip (keys.map combine) = keys.map (fun key => (key, combine key)) := by
    induction keys with
    | nil => rfl
    | cons key rest inductionHypothesis => rw [List.map_cons, List.zip_cons_cons, inductionHypothesis,
        List.map_cons]
  rw [paired, List.flatMap_map]
  rfl

/-- The check meets below a node what the walk lists below it. -/
theorem reachedBelow_positions (tree : Tree) (position : Nat) :
    (tree.reachedBelow position).map Prod.snd =
      (tree.children position).flatMap tree.preorderFrom := by
  induction position using tree.downward_induction with
  | step position inductionHypothesis =>
    rw [reachedBelow_eq, List.map_flatMap]
    apply List.flatMap_congr
    intro child listed
    rw [List.map_cons, inductionHypothesis child listed, preorderFrom_eq]

/-- The check reaches every node from its own parent. -/
theorem reachedBelow_parents {tree : Tree} {position : Nat} :
    ∀ step ∈ tree.reachedBelow position, tree.parent? step.2 = step.1 := by
  induction position using tree.downward_induction with
  | step position inductionHypothesis =>
    intro step met
    rw [reachedBelow_eq, List.mem_flatMap] at met
    obtain ⟨child, listed, here⟩ := met
    rcases List.mem_cons.mp here with rfl | further
    · exact mem_children.mp listed
    · exact inductionHypothesis child listed step further

/-- An examination succeeds where every position is met once and from its own parent, and
none of the identifiers still to be met was seen. -/
theorem examine_succeeds {tree : Tree} (seen : List NodeId) (steps : List (Option Nat × Nat))
    (once : (steps.map Prod.snd).Nodup)
    (parents : ∀ step ∈ steps, tree.parent? step.2 = step.1)
    (unseen : ∀ step ∈ steps, ∀ node, tree.node? step.2 = some node → node.id ∉ seen) :
    tree.examine seen steps = .ok () := by
  induction steps generalizing seen with
  | nil => rfl
  | cons step rest inductionHypothesis =>
    obtain ⟨reached, position⟩ := step
    obtain ⟨notAgain, restOnce⟩ := List.nodup_cons.mp once
    have restParents : ∀ later ∈ rest, tree.parent? later.2 = later.1 :=
      fun later met => parents later (List.mem_cons_of_mem _ met)
    have restUnseen : ∀ later ∈ rest, ∀ node, tree.node? later.2 = some node → node.id ∉ seen :=
      fun later met => unseen later (List.mem_cons_of_mem _ met)
    rw [examine]
    cases present : tree.node? position with
    | none => exact inductionHypothesis seen restOnce restParents restUnseen
    | some node =>
      have fresh : node.id ∉ seen := unseen (reached, position) List.mem_cons_self node present
      have own : node.parent = reached := by
        simpa [parent?, present] using parents (reached, position) List.mem_cons_self
      simp only [fresh, own, if_false, ne_eq, not_true_eq_false]
      apply inductionHypothesis (node.id :: seen) restOnce restParents
      intro later met other there
      rw [List.mem_cons, not_or]
      refine ⟨?_, restUnseen later met other there⟩
      intro same
      have again : later.2 = position := position_unique there present same
      exact notAgain (List.mem_map.mpr ⟨later, met, again⟩)

/-- The check meets what the walk from the root lists. -/
theorem reachedFrom_positions (tree : Tree) :
    (tree.reachedFrom root).map Prod.snd = tree.preorder := by
  rw [preorder, preorderFrom_eq, ← reachedBelow_positions]
  rfl

/-- Every tree passes the structural check. -/
theorem checkStructure_succeeds (tree : Tree) : tree.checkStructure = .ok () := by
  apply examine_succeeds
  · rw [tree.reachedFrom_positions]
    exact tree.preorderFrom_nodup root
  · intro step met
    rcases List.mem_cons.mp met with rfl | below
    · exact tree.parent?_root
    · exact reachedBelow_parents step below
  · simp

end DependencyDiagram.Tree

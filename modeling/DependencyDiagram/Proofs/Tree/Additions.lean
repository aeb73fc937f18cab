import DependencyDiagram.Proofs.Tree.Growth
import DependencyDiagram.Proofs.Tree.Subtree

/-!
# Trees under additions

A tree comes about from its root by additions of leaves and groups, one after the other, each below a
position that the caller names. An addition that does not fit fails, and the tree is what it was.
Whatever the additions are, the tree that they leave is in order: identifiers and positions correspond,
parents and child lists agree, and the walk from the root lists every node once, from above downwards and
children in the order in which they were added.

A caller is free to try anything. Additions with a repeated identifier, below a leaf or below no node at
all are among those that the statements cover, and they are told apart only by what they answer.
-/

namespace DependencyDiagram

/-- A leaf or a group that is to be added below a position. The parent is a position, as the caller got
it from an earlier addition, and nothing says that it belongs to a node of the tree. -/
structure Addition where
  parent : Nat
  id : NodeId
  label : String
  kind : NodeKind

namespace Addition

/-- The node that is to be added. -/
def node (addition : Addition) : TreeNode :=
  ⟨addition.id, addition.label, some addition.parent, addition.kind⟩

end Addition

namespace Tree

/-- Add a leaf or a group. -/
def add (tree : Tree) (addition : Addition) : Except Failure Tree :=
  tree.attach addition.parent addition.id addition.label addition.kind

/-- The tree after an addition, whether it fails or not. The failure is dropped here, since the following
additions do not see it. -/
def after (tree : Tree) (addition : Addition) : Tree :=
  match tree.add addition with
  | .ok grown => grown
  | .error _ => tree

/-- The tree after additions one after the other. -/
def afterAll (tree : Tree) (additions : List Addition) : Tree := additions.foldl after tree

/-- A tree is in order: what is stored about it in several ways agrees, and walks meet all of it. Each
part can be observed by one of the questions a tree answers: by looking an identifier up, by asking for a
parent or for children, and by the walk. None of them mentions how the tree came about. -/
structure InOrder (tree : Tree) : Prop where
  /-- An identifier is found at exactly the position whose node has it. -/
  found : ∀ id position,
    tree.find? id = some position ↔ ∃ node, tree.node? position = some node ∧ node.id = id
  /-- No identifier occurs twice. -/
  distinct : (tree.nodes.map TreeNode.id).Nodup
  /-- The first node is there, and it alone has no parent. -/
  top : 0 < tree.size ∧
    ∀ position node, tree.node? position = some node → (node.parent = none ↔ position = 0)
  /-- The parent of any other node is a group at an earlier position whose child list has the node
  exactly once. -/
  below : ∀ position parent, tree.parent? position = some parent →
    parent < position ∧ (∃ above, tree.node? parent = some above ∧ above.isLeaf = false) ∧
    (tree.children parent).count position = 1
  /-- Child lists have nothing else. -/
  listed : ∀ parent, ∀ child ∈ tree.children parent, tree.parent? child = some parent
  /-- The walk from the root lists every position exactly once. -/
  walked : tree.preorder.Perm (List.range tree.size)
  /-- A node is listed before what lies below it. -/
  downward : ∀ upper lower, tree.Above upper lower → tree.Precedes upper lower
  /-- An earlier child is listed, with what lies below it, before a later one. -/
  siblings : ∀ parent left right first second, tree.IsParent parent left →
    tree.IsParent parent right → left < right → tree.AtOrAbove left first →
    tree.AtOrAbove right second → tree.Precedes first second
  /-- The structural check succeeds. -/
  sound : tree.checkStructure = .ok ()

/-- No tree has a child twice in a child list. -/
theorem children_nodup (tree : Tree) (position : Nat) : (tree.children position).Nodup :=
  (tree.children_ascending position).imp Nat.ne_of_lt

/-- Every tree is in order. No additions have to be looked at for this: a tree carries the facts that it
rests on in its own type, so it holds of a tree however it was built. -/
theorem inOrder (tree : Tree) : tree.InOrder where
  found _ _ := find?_eq_some_iff
  distinct := tree.distinct
  top := by
    obtain ⟨group, present, _⟩ := tree.exists_root
    refine ⟨lt_size_of_node? present, ?_⟩
    intro position node here
    rw [← parent?_of_node? here]
    constructor
    · intro none
      by_contra later
      obtain ⟨parent, named⟩ := exists_parent (lt_size_of_node? here) later
      cases none.symm.trans named
    · rintro rfl
      exact tree.parent?_root
  below position parent named :=
    ⟨parent_lt named, group_of_parent named,
      List.count_eq_one_of_mem (tree.children_nodup parent) (mem_children.mpr named)⟩
  listed _ _ := mem_children.mp
  walked := tree.preorder_perm
  downward _ _ := precedes_of_above
  siblings _ _ _ _ _ := precedes_of_siblings
  sound := tree.checkStructure_succeeds

/-- An addition that succeeds puts its node behind the others. -/
theorem nodes_of_add {tree grown : Tree} {addition : Addition} (added : tree.add addition = .ok grown) :
    grown.nodes = tree.nodes ++ [addition.node] :=
  nodes_of_attach added

/-- An addition leaves no fewer nodes. -/
theorem size_le_after (tree : Tree) (addition : Addition) :
    tree.size ≤ (tree.after addition).size := by
  rw [after]
  cases added : tree.add addition with
  | error failure => exact Nat.le_refl _
  | ok grown =>
    have larger := size_of_attach added
    exact larger ▸ Nat.le_succ tree.size

/-- Additions leave no fewer nodes. -/
theorem size_le_afterAll (tree : Tree) (additions : List Addition) :
    tree.size ≤ (tree.afterAll additions).size := by
  induction additions generalizing tree with
  | nil => exact Nat.le_refl _
  | cons addition rest inductionHypothesis =>
    exact (tree.size_le_after addition).trans (inductionHypothesis (tree.after addition))

end Tree

end DependencyDiagram

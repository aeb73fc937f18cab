import DependencyDiagram.Identity.NodeTable

/-!
# Trees of groups and leaves

A tree is the list of its nodes in the order of their creation, and a node is referred to
by its position there. Position zero is the root, a group without a parent. Every other
node names its parent, which is a group at an earlier position, and no identifier occurs
twice. These conditions are part of the type; attaching a node is the only way to grow a
tree, and it either keeps them all or fails.

Children are not stored. The children of a node are the later positions that name it as
their parent, in the order of their creation.

Positions are counted without end. In storage they are words of thirty-two bits, so a tree
can be stored as it is only as long as it has no more nodes than there are such words. Beyond
that a stored tree would give one position to several nodes, and what is proved of trees says
nothing about it. The bound has a name of its own, for the few results that depend on it.
-/

namespace DependencyDiagram

/-- A node is a leaf or a group. A group may promise that its children's labels extend its
own label. The promise is about short labels, for which the group's label is taken off those
of its children. -/
inductive NodeKind where
  | leaf
  | group (shortens : Bool)
deriving DecidableEq, Repr

/-- A node with the position of its parent. The root is the only node of a tree without a
parent. Children are not listed: they are the nodes that name the position. -/
structure TreeNode where
  id : NodeId
  label : String
  parent : Option Nat
  kind : NodeKind
deriving DecidableEq

namespace TreeNode

/-- A leaf holds no other node. -/
def isLeaf (node : TreeNode) : Bool := node.kind == .leaf

/-- The children's labels are expected to extend this node's label. -/
def shortens (node : TreeNode) : Bool := node.kind == .group true

end TreeNode

/-- The first node is a group without a parent. -/
def Rooted (nodes : List TreeNode) : Prop :=
  nodes.head?.map (fun node => (node.parent, node.kind)) = some (none, .group false)

/-- Every further node hangs below a group at an earlier position. -/
def Attached (nodes : List TreeNode) : Prop :=
  ∀ (position : Nat) (node : TreeNode), nodes[position]? = some node → 0 < position →
    ∃ (parent : Nat) (above : TreeNode), node.parent = some parent ∧ parent < position ∧
      nodes[parent]? = some above ∧ above.isLeaf = false

/-- A rooted tree, given by its nodes in order of creation. The conditions are part of the
type, so a function on trees need not ask whether its argument is one. -/
structure Tree where
  nodes : List TreeNode
  distinct : (nodes.map TreeNode.id).Nodup
  rooted : Rooted nodes
  attached : Attached nodes
deriving DecidableEq

namespace Tree

/-- The position of the root in every tree. -/
def root : Nat := 0

/-- The tree of a root alone. -/
def single (id : NodeId) (label : String) : Tree where
  nodes := [⟨id, label, none, .group false⟩]
  distinct := by simp
  rooted := rfl
  attached := by
    intro position node present later
    cases position with
    | zero => exact absurd later (Nat.lt_irrefl 0)
    | succ position => simp at present

/-- The number of nodes, the root included. -/
def size (tree : Tree) : Nat := tree.nodes.length

/-- The positions of a tree's nodes fit into words of thirty-two bits. -/
def FitsWord (tree : Tree) : Prop := tree.size ≤ Text.maxWord32 + 1

instance (tree : Tree) : Decidable tree.FitsWord := inferInstanceAs (Decidable (_ ≤ _))

/-- The root is the only node. -/
def isEmpty (tree : Tree) : Bool := tree.size == 1

/-- The node at a position. -/
def node? (tree : Tree) (position : Nat) : Option TreeNode := tree.nodes[position]?

/-- The position of the parent. -/
def parent? (tree : Tree) (position : Nat) : Option Nat := (tree.node? position).bind TreeNode.parent

/-- The children of a position in order of creation. -/
def children (tree : Tree) (position : Nat) : List Nat :=
  (tree.nodes.zipIdx.filter (fun entry => entry.1.parent = some position)).map Prod.snd

/-- The position of an identifier. -/
def find? (tree : Tree) (id : NodeId) : Option Nat :=
  tree.nodes.findIdx? (fun node => node.id = id)

/-- The position of an identifier that must be in the tree. -/
def lookup (tree : Tree) (id : NodeId) : Except Failure Nat :=
  match tree.find? id with
  | some position => .ok position
  | none => .error ((missingId id).during "tree::lookup")

/-- The failure for an identifier that is in the tree already. -/
def repeatedId (id : NodeId) : Failure :=
  ((Failure.ofKind .structuralInvariantViolation
    ("node id '" ++ id.encode ++ "' is already in the tree")).during "tree::push").noting
      "id" id.encode

/-- The failure for a parent that is a leaf or no node. -/
def unfitParent (id : NodeId) : Failure :=
  (Failure.ofKind .structuralInvariantViolation
    ("cannot attach '" ++ id.encode ++ "' below a leaf or missing node")).during "tree::push"

/-- Appending a fresh identifier keeps identifiers distinct. -/
theorem nodup_append {nodes : List TreeNode} (distinct : (nodes.map TreeNode.id).Nodup)
    (node : TreeNode) (fresh : node.id ∉ nodes.map TreeNode.id) :
    ((nodes ++ [node]).map TreeNode.id).Nodup := by
  rw [List.map_append, List.nodup_append]
  refine ⟨distinct, by simp, ?_⟩
  intro left listed right single equal
  rw [List.map_singleton, List.mem_singleton] at single
  exact fresh (single ▸ equal ▸ listed)

/-- Appending a node leaves the root in place. -/
theorem rooted_append {nodes : List TreeNode} (rooted : Rooted nodes) (node : TreeNode) :
    Rooted (nodes ++ [node]) := by
  cases nodes with
  | nil => simp [Rooted] at rooted
  | cons first rest => simpa [Rooted] using rooted

/-- Appending a node below a group keeps every node attached. -/
theorem attached_append {nodes : List TreeNode} (attached : Attached nodes) (node above : TreeNode)
    (parent : Nat) (below : node.parent = some parent) (present : nodes[parent]? = some above)
    (isGroup : above.isLeaf = false) : Attached (nodes ++ [node]) := by
  have inside : parent < nodes.length := (List.getElem?_eq_some_iff.mp present).1
  intro position other found later
  rcases Nat.lt_or_ge position nodes.length with old | new
  · rw [List.getElem?_append_left old] at found
    obtain ⟨place, group, named, earlier, held, kind⟩ := attached position other found later
    refine ⟨place, group, named, earlier, ?_, kind⟩
    rw [List.getElem?_append_left (Nat.lt_trans earlier old)]
    exact held
  · have last : position = nodes.length := by
      have bound := (List.getElem?_eq_some_iff.mp found).1
      simp at bound
      omega
    subst last
    have same : other = node := by simpa using found.symm
    subst same
    refine ⟨parent, above, below, inside, ?_, isGroup⟩
    rw [List.getElem?_append_left inside]
    exact present

/-- Attach a node below a group. The new node's position is the former size of the tree. An
identifier that the tree has already is reported before an unfit parent is. -/
def attach (tree : Tree) (parent : Nat) (id : NodeId) (label : String) (kind : NodeKind) :
    Except Failure Tree :=
  if repeated : id ∈ tree.nodes.map TreeNode.id then .error (repeatedId id)
  else
    match present : tree.nodes[parent]? with
    | none => .error (unfitParent id)
    | some above =>
      if isGroup : above.isLeaf = false then
        .ok {
          nodes := tree.nodes ++ [⟨id, label, some parent, kind⟩]
          distinct := nodup_append tree.distinct _ repeated
          rooted := rooted_append tree.rooted _
          attached := attached_append tree.attached _ above parent rfl present isGroup }
      else .error (unfitParent id)

/-- A parent comes before its children. -/
theorem parent_lt {tree : Tree} {position parent : Nat}
    (named : tree.parent? position = some parent) : parent < position := by
  obtain ⟨node, present, below⟩ := Option.bind_eq_some_iff.mp named
  rcases Nat.eq_zero_or_pos position with first | later
  · subst first
    have rooted := tree.rooted
    rw [Rooted, List.head?_eq_getElem?] at rooted
    rw [node?] at present
    rw [present] at rooted
    simp [below] at rooted
  · obtain ⟨place, above, placed, earlier, _⟩ := tree.attached position node present later
    rw [below] at placed
    cases placed
    exact earlier

/-- A child is a later position of the tree that names its parent. -/
theorem mem_children {tree : Tree} {position child : Nat} :
    child ∈ tree.children position ↔ tree.parent? child = some position := by
  simp only [children, List.mem_map, List.mem_filter, decide_eq_true_eq, Prod.exists,
    List.mem_zipIdx_iff_getElem?, parent?, node?, Option.bind_eq_some_iff]
  constructor
  · rintro ⟨node, place, ⟨present, named⟩, rfl⟩
    exact ⟨node, present, named⟩
  · rintro ⟨node, present, named⟩
    exact ⟨node, child, ⟨present, named⟩, rfl⟩

/-- Children are listed in the order of their creation. -/
theorem children_ascending (tree : Tree) (position : Nat) :
    (tree.children position).Pairwise (· < ·) := by
  have places : tree.nodes.zipIdx.map Prod.snd = List.range tree.size := by
    rw [List.zipIdx_map_snd, List.range_eq_range', size]
  have below : (tree.children position).Sublist (List.range tree.size) := by
    rw [children, ← places]
    exact List.filter_sublist.map _
  exact List.pairwise_lt_range.sublist below

end Tree

end DependencyDiagram

import DependencyDiagram.Tree.Walk

/-!
# Positions and identifiers

A tree refers to its nodes by position and is asked about them by identifier. Because no
identifier occurs twice the two correspond: an identifier leads to the one position that
holds it, and looking up an identifier fails for those alone that no node has.
-/

namespace DependencyDiagram.Tree

/-- The tree has a node with the identifier. There is at most one such node, so to say that the tree has
it and to say where it is come to the same. -/
def Holds (tree : Tree) (id : NodeId) : Prop :=
  ∃ position node, tree.node? position = some node ∧ node.id = id

/-- A tree has the identifiers of its nodes. -/
theorem mem_ids_iff {tree : Tree} {id : NodeId} :
    id ∈ tree.nodes.map TreeNode.id ↔ tree.Holds id := by
  rw [List.mem_map, Holds]
  constructor
  · rintro ⟨node, listed, named⟩
    obtain ⟨position, present⟩ := List.mem_iff_getElem?.mp listed
    exact ⟨position, node, present, named⟩
  · rintro ⟨position, node, present, named⟩
    exact ⟨node, List.mem_of_getElem? present, named⟩

/-- Two positions with the same identifier are one. -/
theorem position_unique {tree : Tree} {left right : Nat} {first second : TreeNode}
    (here : tree.node? left = some first) (there : tree.node? right = some second)
    (same : first.id = second.id) : left = right := by
  have inside : left < (tree.nodes.map TreeNode.id).length := by
    simpa using (List.getElem?_eq_some_iff.mp here).1
  apply (List.getElem?_inj inside tree.distinct).mp
  rw [node?] at here there
  rw [List.getElem?_map, List.getElem?_map, here, there, Option.map_some, Option.map_some, same]

/-- Looking for an identifier finds exactly the position that holds it. -/
theorem find?_eq_some_iff {tree : Tree} {id : NodeId} {position : Nat} :
    tree.find? id = some position ↔ ∃ node, tree.node? position = some node ∧ node.id = id := by
  constructor
  · intro found
    obtain ⟨inside, holds, _⟩ := List.findIdx?_eq_some_iff_getElem.mp found
    exact ⟨tree.nodes[position], List.getElem?_eq_getElem inside, by simpa using holds⟩
  · rintro ⟨node, present, rfl⟩
    obtain ⟨inside, held⟩ := List.getElem?_eq_some_iff.mp present
    refine List.findIdx?_eq_some_iff_getElem.mpr ⟨inside, by simp [held], ?_⟩
    intro earlier before same
    have lower : earlier < tree.nodes.length := Nat.lt_trans before inside
    have equal : earlier = position :=
      position_unique (List.getElem?_eq_getElem lower) present (by simpa using same)
    exact Nat.lt_irrefl position (equal ▸ before)

/-- The node at a position is found by its identifier. -/
theorem find?_id {tree : Tree} {position : Nat} {node : TreeNode}
    (present : tree.node? position = some node) : tree.find? node.id = some position :=
  find?_eq_some_iff.mpr ⟨node, present, rfl⟩

/-- Two identifiers that are found at one position are one. -/
theorem id_unique {tree : Tree} {first second : NodeId} {position : Nat}
    (here : tree.find? first = some position) (there : tree.find? second = some position) :
    first = second := by
  obtain ⟨node, present, rfl⟩ := find?_eq_some_iff.mp here
  obtain ⟨other, also, rfl⟩ := find?_eq_some_iff.mp there
  exact congrArg TreeNode.id (Option.some.inj (present.symm.trans also))

/-- An identifier is not found exactly when no node has it. -/
theorem find?_eq_none_iff {tree : Tree} {id : NodeId} :
    tree.find? id = none ↔ ¬ tree.Holds id := by
  rw [Option.eq_none_iff_forall_ne_some, Holds]
  simp only [ne_eq, find?_eq_some_iff, not_exists]

/-- A look-up succeeds with the position that was found. -/
theorem lookup_eq_ok_iff {tree : Tree} {id : NodeId} {position : Nat} :
    tree.lookup id = .ok position ↔ tree.find? id = some position := by
  rw [lookup]
  cases tree.find? id <;> simp

/-- A look-up fails exactly for an identifier that no node has. -/
theorem lookup_fails_iff {tree : Tree} {id : NodeId} :
    (∃ failure, tree.lookup id = .error failure) ↔ ¬ tree.Holds id := by
  rw [← find?_eq_none_iff, lookup]
  cases tree.find? id <;> simp

/-- A position inside the tree has a node. -/
theorem node?_of_lt {tree : Tree} {position : Nat} (inside : position < tree.size) :
    ∃ node, tree.node? position = some node :=
  ⟨tree.nodes[position], List.getElem?_eq_getElem inside⟩

/-- A node lies inside the tree. -/
theorem lt_size_of_node? {tree : Tree} {position : Nat} {node : TreeNode}
    (present : tree.node? position = some node) : position < tree.size :=
  (List.getElem?_eq_some_iff.mp present).1

/-- The parent of a position is that of its node. -/
theorem parent?_of_node? {tree : Tree} {position : Nat} {node : TreeNode}
    (present : tree.node? position = some node) : tree.parent? position = node.parent := by
  rw [parent?, present, Option.bind_some]

/-- The labels on the way to a node are those on the way to its parent and its own behind them. -/
theorem labelPath_eq (tree : Tree) (position : Nat) :
    tree.labelPath position =
      match tree.parent? position with
      | none => []
      | some parent => tree.labelPath parent ++ [tree.label position] :=
  inherit_eq tree [] _ position

/-- The root is a group of every tree. -/
theorem exists_root (tree : Tree) : ∃ node, tree.node? root = some node ∧ node.isLeaf = false := by
  have rooted := tree.rooted
  rw [Rooted, List.head?_eq_getElem?] at rooted
  obtain ⟨node, present, same⟩ := Option.map_eq_some_iff.mp rooted
  exact ⟨node, present, by simp [TreeNode.isLeaf, (Prod.mk.inj same).2]⟩

/-- The root promises nothing about labels. -/
theorem shortens_of_root {tree : Tree} {node : TreeNode} (present : tree.node? root = some node) :
    node.shortens = false := by
  have rooted := tree.rooted
  rw [Rooted, List.head?_eq_getElem?] at rooted
  obtain ⟨first, here, same⟩ := Option.map_eq_some_iff.mp rooted
  obtain rfl := Option.some.inj (here.symm.trans present)
  simp [TreeNode.shortens, (Prod.mk.inj same).2]

/-- A leaf is not the root. -/
theorem ne_root_of_leaf {tree : Tree} {position : Nat} {node : TreeNode}
    (present : tree.node? position = some node) (leaf : node.isLeaf = true) : position ≠ root := by
  rintro rfl
  obtain ⟨group, here, isGroup⟩ := tree.exists_root
  obtain rfl := Option.some.inj (here.symm.trans present)
  rw [leaf] at isGroup
  cases isGroup

end DependencyDiagram.Tree

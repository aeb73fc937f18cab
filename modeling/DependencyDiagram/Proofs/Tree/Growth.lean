import DependencyDiagram.Proofs.Tree.Lookup

/-!
# Growing trees

A tree grows by one node at its end. Nodes that are there stay where they are, so what is known of the
nodes of a tree is kept by attaching further ones. Children are the exception: the parent of the new node
has one more, at the end of its list. All other child lists stay the same.
-/

namespace DependencyDiagram.Tree

/-- The tree has a leaf with the identifier. -/
def HasLeaf (tree : Tree) (id : NodeId) : Prop :=
  ∃ position node, tree.node? position = some node ∧ node.id = id ∧ node.isLeaf = true

/-- No group of the tree promises that its children's labels extend its own. The labels of such a tree
are shown in full, whatever groups are open. -/
def Promiseless (tree : Tree) : Prop := ∀ node ∈ tree.nodes, node.shortens = false

variable {tree grown : Tree} {parent : Nat} {id : NodeId} {label : String} {kind : NodeKind}

/-- Attaching adds one node behind the others. -/
theorem nodes_of_attach (attached : tree.attach parent id label kind = .ok grown) :
    grown.nodes = tree.nodes ++ [⟨id, label, some parent, kind⟩] := by
  unfold attach at attached
  split at attached
  · cases attached
  · split at attached
    · cases attached
    · split at attached
      · cases attached
        rfl
      · cases attached

/-- Attaching makes a tree larger by one. -/
theorem size_of_attach (attached : tree.attach parent id label kind = .ok grown) :
    grown.size = tree.size + 1 := by
  rw [size, nodes_of_attach attached, List.length_append, List.length_singleton, size]

/-- Attaching leaves the nodes that are there in their places. -/
theorem node?_of_attach (attached : tree.attach parent id label kind = .ok grown) {position : Nat}
    (inside : position < tree.size) : grown.node? position = tree.node? position := by
  rw [node?, nodes_of_attach attached, List.getElem?_append_left inside, node?]

/-- The attached node stands behind the others. -/
theorem node?_size_of_attach (attached : tree.attach parent id label kind = .ok grown) :
    grown.node? tree.size = some ⟨id, label, some parent, kind⟩ := by
  rw [node?, nodes_of_attach attached, size, List.getElem?_concat_length]

/-- A node is attached below one that is there. -/
theorem lt_size_of_attach (attached : tree.attach parent id label kind = .ok grown) :
    parent < tree.size := by
  have above : grown.parent? tree.size = some parent :=
    parent?_of_node? (node?_size_of_attach attached)
  exact parent_lt above

/-- Attaching enters the new position at the end of the parent's children and changes no other
node's children. -/
theorem children_of_attach (attached : tree.attach parent id label kind = .ok grown)
    (position : Nat) :
    grown.children position =
      if position = parent then tree.children position ++ [tree.size] else tree.children position := by
  rw [children, nodes_of_attach attached, List.zipIdx_append, List.filter_append, List.map_append,
    List.zipIdx_singleton, Nat.zero_add, ← children, ← size]
  by_cases here : position = parent
  · simp [here]
  · simp [here, Ne.symm here]

/-- Attaching fails on an identifier that is there, then on a parent that is a leaf or no node, and
succeeds otherwise. -/
theorem attach_cases (tree : Tree) (parent : Nat) (id : NodeId) (label : String) (kind : NodeKind) :
    (tree.Holds id ∧ tree.attach parent id label kind = .error (repeatedId id)) ∨
    (¬ tree.Holds id ∧ (∀ above, tree.node? parent = some above → above.isLeaf = true) ∧
      tree.attach parent id label kind = .error (unfitParent id)) ∨
    (¬ tree.Holds id ∧ ∃ above grown, tree.node? parent = some above ∧ above.isLeaf = false ∧
      tree.attach parent id label kind = .ok grown) := by
  unfold attach
  split
  · next repeated => exact .inl ⟨mem_ids_iff.mp repeated, rfl⟩
  · next new =>
    rw [mem_ids_iff] at new
    split
    · next absent => exact .inr (.inl ⟨new, by simp [node?, absent], rfl⟩)
    · next above present =>
      split
      · next isGroup => exact .inr (.inr ⟨new, above, _, present, isGroup, rfl⟩)
      · next isLeaf => exact .inr (.inl ⟨new, by simpa [node?, present] using isLeaf, rfl⟩)

/-- Attaching fails exactly where the identifier is there already or the parent is a leaf or no
node. -/
theorem attach_fails_iff : (∃ failure, tree.attach parent id label kind = .error failure) ↔
    tree.Holds id ∨ ∀ above, tree.node? parent = some above → above.isLeaf = true := by
  rcases tree.attach_cases parent id label kind with
    ⟨held, fails⟩ | ⟨new, unfit, fails⟩ | ⟨new, above, grown, present, isGroup, succeeds⟩
  · simp [fails, held]
  · simp only [fails, Except.error.injEq, exists_eq', true_iff]
    exact Or.inr unfit
  · simp [succeeds, new, present, isGroup]

/-- Attaching leaves the labels on the way to the nodes that are there. -/
theorem labelPath_of_attach (attached : tree.attach parent id label kind = .ok grown) {position : Nat}
    (inside : position < tree.size) : grown.labelPath position = tree.labelPath position := by
  induction position using Nat.strongRecOn with
  | ind position earlier =>
    have above : grown.parent? position = tree.parent? position := by
      rw [parent?, node?_of_attach attached inside, parent?]
    rw [labelPath_eq, labelPath_eq, above]
    cases named : tree.parent? position with
    | none => rfl
    | some upper =>
      have before := parent_lt named
      simp only [earlier upper before (Nat.lt_trans before inside), Tree.label,
        node?_of_attach attached inside]

end DependencyDiagram.Tree

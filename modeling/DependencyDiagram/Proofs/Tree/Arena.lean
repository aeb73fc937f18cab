import DependencyDiagram.Proofs.Identity.Codec
import DependencyDiagram.Proofs.Ordered.Contents
import DependencyDiagram.Proofs.Tree.Additions

/-!
# Trees in storage

A tree is stored with what can be derived about it: every group has its child list, and an index leads
from the written form of an identifier to the position. Positions have thirty-two bits. An addition
updates the three parts one after the other and fails in the middle where the parent can take no
children; nothing has been changed by then. Walks keep a stack of the positions that are still to be
visited, the next one on top.

As long as positions do not overflow, the stored form is at all times that of the tree, and so its
redundant parts agree.

The bound is the only hypothesis. The position of a new node is the number of nodes so far, taken to
thirty-two bits; beyond that many nodes it would begin again at the root, and a child list would point at
a node that is not below it.
-/

namespace DependencyDiagram

/-- A stored node is a leaf, or a group with its child list. The stored form keeps children at their
parent, where the tree has them follow from the parents of all nodes. -/
inductive StoredKind where
  | leaf
  | group (children : List Nat) (shortens : Bool)
deriving DecidableEq

/-- A node as it is stored. The parent and the child lists say the same thing twice, which is why it has
to be shown that they agree. -/
structure StoredNode where
  id : NodeId
  label : String
  parent : Option Nat
  kind : StoredKind
deriving DecidableEq

/-- The stored form of a kind with the given child list, of which a leaf makes no use. -/
def NodeKind.stored (children : List Nat) : NodeKind → StoredKind
  | .leaf => .leaf
  | .group shortens => .group children shortens

/-- The kind without the child list. -/
def StoredKind.plain : StoredKind → NodeKind
  | .leaf => .leaf
  | .group _ shortens => .group shortens

/-- The stored form of a node with the given child list. -/
def TreeNode.stored (node : TreeNode) (children : List Nat) : StoredNode :=
  ⟨node.id, node.label, node.parent, node.kind.stored children⟩

namespace StoredNode

/-- The node without its child list. -/
def plain (node : StoredNode) : TreeNode := ⟨node.id, node.label, node.parent, node.kind.plain⟩

/-- The child list; a leaf has none. -/
def children (node : StoredNode) : List Nat :=
  match node.kind with
  | .leaf => []
  | .group children _ => children

/-- Enter a child at the end of the child list, which a leaf does not have. -/
def adopt? (node : StoredNode) (child : Nat) : Option StoredNode :=
  match node.kind with
  | .leaf => none
  | .group children shortens => some { node with kind := .group (children ++ [child]) shortens }

end StoredNode

/-- The stored nodes in order of creation, and the positions of their identifiers by their written form.
The index has the written form as its key, so two identifiers that were written alike would be taken for
one. No two are. -/
structure Arena where
  nodes : List StoredNode
  index : Table String (NodeId × Nat)

namespace Arena

/-- The stored form of a root alone. -/
def single (id : NodeId) (label : String) : Arena where
  nodes := [⟨id, label, none, .group [] false⟩]
  index := Table.empty.put id.encode (id, 0)

/-- The position of an identifier. -/
def find? (arena : Arena) (id : NodeId) : Option Nat := (arena.index.get? id.encode).map Prod.snd

/-- Enter a child in the child list of its parent, or fail where the parent has none. A parent that is a
leaf and one that is not there fail with the same message, and the failure comes before anything is
written. -/
def enlist (parent child : Nat) (id : NodeId) : EStateM Failure Arena Unit := do
  match (← get).nodes[parent]?.bind (·.adopt? child) with
  | some adopting => modify (fun arena => { arena with nodes := arena.nodes.set parent adopting })
  | none => throw (Tree.unfitParent id)

/-- Add a node: to the child list of its parent, to the index, and to the nodes, in this order. The state
is left behind by a failure as it is at that moment. That it is the state from before the call is a
result and not part of the definition. -/
def push (addition : Addition) : EStateM Failure Arena Nat := do
  if (← get).index.contains addition.id.encode then throw (Tree.repeatedId addition.id)
  let position := (← get).nodes.length % UInt32.size
  enlist addition.parent position addition.id
  modify (fun arena =>
    { arena with index := arena.index.put addition.id.encode (addition.id, position) })
  modify (fun arena => { arena with nodes := arena.nodes ++ [addition.node.stored []] })
  return position

/-- What is stored after an addition, whether it fails or not. -/
def after (arena : Arena) (addition : Addition) : Arena :=
  match push addition arena with
  | .ok _ next => next
  | .error _ next => next

/-- What is stored after additions one after the other. -/
def afterAll (arena : Arena) (additions : List Addition) : Arena := additions.foldl after arena

/-- Visit the positions on a stack and all below them, in at most the given number of steps. There is no
result if the stack is not empty by then or a position has no node. The children of a node are put on the
stack in front of what is there, so the node's own subtree is listed to its end before its next sibling
is. -/
def walk (arena : Arena) : Nat → List Nat → Option (List Nat)
  | _, [] => some []
  | 0, _ :: _ => none
  | steps + 1, position :: stack => do
    let node ← arena.nodes[position]?
    let order ← arena.walk steps (node.children ++ stack)
    return position :: order

/-- Check the positions on a stack, each with the parent it is reached from, and all below them, in at
most the given number of steps. Identifiers are compared in their written form and parents by position.
There are two ways to fail, and the check stops at the first node that it finds wrong. -/
def check (arena : Arena) : Nat → List String → List (Option Nat × Nat) →
    Option (Except Failure Unit)
  | _, _, [] => some (.ok ())
  | 0, _, _ :: _ => none
  | steps + 1, seen, (reached, position) :: stack => do
    let node ← arena.nodes[position]?
    if node.id.encode ∈ seen then return .error (Tree.metTwice node.id)
    if node.parent ≠ reached then return .error (Tree.strayParent node.id)
    let further := node.children.map (fun child => (some position, child))
    arena.check steps (node.id.encode :: seen) (further ++ stack)

/-- All parts of the stored form are those of the tree. All that the stored form answers is answered as
the tree answers it. The walk and the check are given as many steps as there are nodes, and need no more. -/
structure Shows (arena : Arena) (tree : Tree) : Prop where
  nodes : arena.nodes.map StoredNode.plain = tree.nodes
  children : ∀ position node, arena.nodes[position]? = some node →
    node.children = tree.children position
  find : ∀ id, arena.find? id = tree.find? id
  walk : ∀ steps, tree.size ≤ steps → arena.walk steps [Tree.root] = some tree.preorder
  check : ∀ steps, tree.size ≤ steps →
    arena.check steps [] [(none, Tree.root)] = some tree.checkStructure

/-- A child is entered in the child list of its parent and nowhere else, or nothing is changed. -/
theorem run_enlist (arena : Arena) (parent child : Nat) (id : NodeId) :
    (enlist parent child id).run arena =
      match arena.nodes[parent]?.bind (·.adopt? child) with
      | some adopting => .ok () { arena with nodes := arena.nodes.set parent adopting }
      | none => .error (Tree.unfitParent id) arena := by
  rw [enlist, EStateM.run_bind, EStateM.run_get]
  cases found : arena.nodes[parent]?.bind (·.adopt? child) <;> simp [found]

/-- An addition does its three updates, or it fails with nothing changed. -/
theorem run_push (arena : Arena) (addition : Addition) :
    (push addition).run arena =
      if arena.index.contains addition.id.encode = true then
        .error (Tree.repeatedId addition.id) arena
      else
        let position := arena.nodes.length % UInt32.size
        match arena.nodes[addition.parent]?.bind (·.adopt? position) with
        | some adopting => .ok position {
            nodes := arena.nodes.set addition.parent adopting ++ [addition.node.stored []]
            index := arena.index.put addition.id.encode (addition.id, position) }
        | none => .error (Tree.unfitParent addition.id) arena := by
  rw [push, EStateM.run_bind, EStateM.run_get]
  by_cases listed : arena.index.contains addition.id.encode = true
  · simp [listed]
  · rw [if_neg listed]
    cases found : arena.nodes[addition.parent]?.bind
        (·.adopt? (arena.nodes.length % UInt32.size)) with
    | none => simp [listed, found, run_enlist]
    | some adopting =>
      simp only [if_neg listed, EStateM.run_bind, EStateM.run_get, run_enlist, found]
      rfl

end Arena

namespace Tree

variable {tree grown : Tree} {addition : Addition}

/-- The entries of the index. -/
def indexEntries (tree : Tree) : List (String × NodeId × Nat) :=
  tree.nodes.mapIdx (fun position node => (node.id.encode, node.id, position))

/-- The stored form of a tree. It is computed afresh from the tree. A sequence of additions arrives at
the same stored form by updates of single entries. -/
def stored (tree : Tree) : Arena where
  nodes := tree.nodes.mapIdx (fun position node => node.stored (tree.children position))
  index := Table.ofList tree.indexEntries

/-- The stored form of a root alone. -/
theorem stored_single (id : NodeId) (label : String) :
    (single id label).stored = Arena.single id label := rfl

/-- The stored nodes are the nodes with their children. -/
theorem nodes_stored (tree : Tree) :
    tree.stored.nodes =
      tree.nodes.mapIdx (fun position node => node.stored (tree.children position)) := rfl

/-- The stored node at a position is the node there with its children. -/
theorem getElem?_nodes_stored (tree : Tree) (position : Nat) :
    tree.stored.nodes[position]? =
      (tree.node? position).map (fun node => node.stored (tree.children position)) := by
  rw [nodes_stored, List.getElem?_mapIdx, node?]

/-- There are as many stored nodes as nodes. -/
theorem length_nodes_stored (tree : Tree) : tree.stored.nodes.length = tree.size := by
  rw [nodes_stored, List.length_mapIdx, size]

/-- What is in the index is an identifier with its position. -/
theorem mem_indexEntries {tree : Tree} {entry : String × NodeId × Nat} :
    entry ∈ tree.indexEntries ↔
      ∃ position node, tree.node? position = some node ∧
        entry = (node.id.encode, node.id, position) := by
  simp only [indexEntries, List.mem_mapIdx, node?, List.getElem?_eq_some_iff]
  constructor
  · rintro ⟨position, inside, rfl⟩
    exact ⟨position, _, ⟨inside, rfl⟩, rfl⟩
  · rintro ⟨position, _, ⟨inside, rfl⟩, rfl⟩
    exact ⟨position, inside, rfl⟩

/-- The index lists the written forms of the identifiers that the tree has. -/
theorem contains_index_stored {tree : Tree} {id : NodeId} :
    tree.stored.index.contains id.encode = true ↔ tree.Holds id := by
  rw [Table.contains_iff, stored, Table.mem_keys_ofList, List.mem_map]
  simp only [mem_indexEntries, Holds]
  constructor
  · rintro ⟨_, ⟨position, node, present, rfl⟩, same⟩
    exact ⟨position, node, present, NodeId.encode_injective same⟩
  · rintro ⟨position, node, present, rfl⟩
    exact ⟨_, ⟨position, node, present, rfl⟩, rfl⟩

/-- The index finds what the tree finds. -/
theorem find?_stored (tree : Tree) (id : NodeId) : tree.stored.find? id = tree.find? id := by
  rw [Arena.find?]
  cases held : tree.stored.index.get? id.encode with
  | none =>
    symm
    rw [Option.map_none, find?_eq_none_iff]
    intro holds
    have listed := (Table.contains_iff _ _).mp (contains_index_stored.mpr holds)
    obtain ⟨value, found, _⟩ := Table.exists_get?_ofList (Table.mem_keys_ofList.mp listed)
    cases held.symm.trans found
  | some value =>
    obtain ⟨position, node, present, same⟩ := mem_indexEntries.mp (Table.mem_of_get?_ofList held)
    obtain ⟨written, rfl⟩ := Prod.mk.inj same
    obtain rfl := NodeId.encode_injective written
    exact (find?_id present).symm

/-- Only a group takes a child. -/
theorem adopt?_stored (node : TreeNode) (children : List Nat) (child : Nat) :
    (node.stored children).adopt? child =
      if node.isLeaf then none else some (node.stored (children ++ [child])) := by
  obtain ⟨id, label, parent, kind⟩ := node
  cases kind <;> rfl

/-- The children of a stored node are those of the node. -/
theorem children_stored {position : Nat} {node : TreeNode} (present : tree.node? position = some node) :
    (node.stored (tree.children position)).children = tree.children position := by
  obtain ⟨id, label, parent, kind⟩ := node
  cases kind with
  | leaf => exact (children_of_leaf present rfl).symm
  | group shortens => rfl

/-- Storing forgets nothing about a node. -/
theorem plain_stored (node : TreeNode) (children : List Nat) :
    (node.stored children).plain = node := by
  obtain ⟨id, label, parent, kind⟩ := node
  cases kind <;> rfl

/-- The child lists of the stored form after an addition are those before it, with the new position
in that of the parent. -/
theorem nodes_stored_of_add (added : tree.add addition = .ok grown) {above : TreeNode}
    (present : tree.node? addition.parent = some above) :
    grown.stored.nodes =
      tree.stored.nodes.set addition.parent
        (above.stored (tree.children addition.parent ++ [tree.size])) ++
      [addition.node.stored []] := by
  have new : grown.children tree.size = [] := by
    rw [children_of_attach added, children_eq_nil (Nat.le_refl _), if_neg]
    exact Nat.ne_of_gt (lt_size_of_attach added)
  rw [nodes_stored, nodes_of_add added, List.mapIdx_concat, ← size, new]
  congr 1
  apply List.ext_getElem?
  intro position
  rw [List.getElem?_set, getElem?_nodes_stored, List.getElem?_mapIdx, ← node?,
    children_of_attach added, length_nodes_stored]
  by_cases here : addition.parent = position
  · subst here
    simp [present, lt_size_of_node? present]
  · simp [here, Ne.symm here]

/-- The index after an addition is that before it with the new identifier. -/
theorem index_stored_of_add (added : tree.add addition = .ok grown) :
    grown.stored.index =
      tree.stored.index.put addition.id.encode (addition.id, tree.size) := by
  have entries : grown.indexEntries =
      tree.indexEntries ++ [(addition.id.encode, addition.id, tree.size)] := by
    rw [indexEntries, nodes_of_add added, List.mapIdx_concat]
    rfl
  change Table.ofList grown.indexEntries = _
  rw [entries, Table.ofList_concat]
  rfl

/-- Below the largest position, an addition to the stored form is an addition to the tree. No index wraps
around there, and texts tell identifiers apart, so the stored form finds the parent, refuses a repeated
identifier and appends the node just as the tree does. -/
theorem push_stored (addition : Addition) (few : tree.size < UInt32.size) :
    (Arena.push addition).run tree.stored =
      match tree.add addition with
      | .ok grown => .ok tree.size grown.stored
      | .error failure => .error failure tree.stored := by
  rw [Arena.run_push]
  rcases tree.attach_cases addition.parent addition.id addition.label addition.kind with
    ⟨held, fails⟩ | ⟨new, unfit, fails⟩ | ⟨new, above, grown, present, isGroup, succeeds⟩
  · rw [if_pos (contains_index_stored.mpr held), add, fails]
  · rw [if_neg (fun listed => new (contains_index_stored.mp listed)), add, fails,
      getElem?_nodes_stored]
    cases present : tree.node? addition.parent with
    | none => rfl
    | some above => simp [adopt?_stored, unfit above present]
  · have added : tree.add addition = .ok grown := succeeds
    rw [if_neg (fun listed => new (contains_index_stored.mp listed)), added,
      length_nodes_stored, Nat.mod_eq_of_lt few, getElem?_nodes_stored, present]
    simp only [Option.map_some, Option.bind_some, adopt?_stored, isGroup, Bool.false_eq_true,
      if_false]
    rw [← nodes_stored_of_add added present, ← index_stored_of_add added]

/-- What is stored after an addition is the stored form of the tree after it. -/
theorem after_stored (few : tree.size < UInt32.size) (addition : Addition) :
    tree.stored.after addition = (tree.after addition).stored := by
  have pushed := push_stored addition few
  rw [EStateM.run] at pushed
  rw [Arena.after, pushed, after]
  cases tree.add addition <;> rfl

/-- What is stored after additions is the stored form of the tree after them, as long as positions
do not overflow. -/
theorem afterAll_stored (additions : List Addition)
    (few : (tree.afterAll additions).size < UInt32.size) :
    tree.stored.afterAll additions = (tree.afterAll additions).stored := by
  induction additions generalizing tree with
  | nil => rfl
  | cons addition rest inductionHypothesis =>
    have before : tree.size < UInt32.size :=
      (tree.size_le_afterAll (addition :: rest)).trans_lt few
    change (tree.stored.after addition).afterAll rest = _
    rw [after_stored before]
    exact inductionHypothesis few

/-- With the children of a position on top, a stack still has positions of the tree alone. -/
theorem stack_inside {stack : List Nat} (inside : ∀ other ∈ stack, other < tree.size)
    (position : Nat) : ∀ other ∈ tree.children position ++ stack, other < tree.size := by
  intro other listed
  rcases List.mem_append.mp listed with child | later
  · exact lt_size_of_mem_children child
  · exact inside other later

/-- The walk over a stack lists for every position on it, the top first, what the walk of the tree
from there lists. Every step takes one position from what remains to be listed. -/
theorem walk_stored (tree : Tree) (steps : Nat) (stack : List Nat)
    (inside : ∀ position ∈ stack, position < tree.size)
    (enough : (stack.flatMap tree.preorderFrom).length ≤ steps) :
    tree.stored.walk steps stack = some (stack.flatMap tree.preorderFrom) := by
  induction steps generalizing stack with
  | zero =>
    cases stack with
    | nil => rfl
    | cons position stack =>
      rw [List.flatMap_cons, preorderFrom_eq] at enough
      simp at enough
  | succ steps inductionHypothesis =>
    cases stack with
    | nil => rfl
    | cons position stack =>
      obtain ⟨node, present⟩ := node?_of_lt (inside position List.mem_cons_self)
      have order : (position :: stack).flatMap tree.preorderFrom =
          position :: (tree.children position ++ stack).flatMap tree.preorderFrom := by
        rw [List.flatMap_cons, preorderFrom_eq, List.flatMap_append, List.cons_append]
      rw [order, List.length_cons] at enough
      have further : ∀ other ∈ tree.children position ++ stack, other < tree.size :=
        stack_inside (fun other listed => inside other (List.mem_cons_of_mem _ listed)) position
      rw [Arena.walk, getElem?_nodes_stored, present]
      simp only [Option.map_some, Option.bind_eq_bind, Option.bind_some, children_stored present]
      rw [inductionHypothesis _ further (Nat.le_of_succ_le_succ enough), order]
      rfl

/-- What the check meets from the entries of a stack. -/
def reachedFromAll (tree : Tree) (stack : List (Option Nat × Nat)) : List (Option Nat × Nat) :=
  stack.flatMap (fun entry => entry :: tree.reachedBelow entry.2)

/-- From the entry on top the check goes on with the children. -/
theorem reachedFromAll_cons (tree : Tree) (reached : Option Nat) (position : Nat)
    (stack : List (Option Nat × Nat)) :
    tree.reachedFromAll ((reached, position) :: stack) =
      (reached, position) :: tree.reachedFromAll
        ((tree.children position).map (fun child => (some position, child)) ++ stack) := by
  simp only [reachedFromAll, List.flatMap_cons, List.flatMap_append, List.flatMap_map,
    reachedBelow_eq tree position, List.cons_append]

/-- The check over a stack examines for every entry on it, the top first, what the check of the tree
meets from there. What was seen is kept as texts here and as identifiers in the tree, which comes to the
same since no two identifiers are written alike. -/
theorem check_stored (tree : Tree) (steps : Nat) (seen : List NodeId)
    (stack : List (Option Nat × Nat))
    (inside : ∀ position ∈ stack.map Prod.snd, position < tree.size)
    (enough : (tree.reachedFromAll stack).length ≤ steps) :
    tree.stored.check steps (seen.map NodeId.encode) stack =
      some (tree.examine seen (tree.reachedFromAll stack)) := by
  induction steps generalizing seen stack with
  | zero =>
    cases stack with
    | nil => rfl
    | cons entry stack =>
      rw [reachedFromAll, List.flatMap_cons] at enough
      simp at enough
  | succ steps inductionHypothesis =>
    rcases stack with _ | ⟨⟨reached, position⟩, stack⟩
    · rfl
    · obtain ⟨node, present⟩ := node?_of_lt (inside _ List.mem_cons_self)
      rw [reachedFromAll_cons, List.length_cons] at enough
      have further : ∀ other ∈
          ((tree.children position).map (fun child => (some position, child)) ++ stack).map Prod.snd,
          other < tree.size := by
        have below : (Prod.snd ∘ fun child => (some position, child)) = (id : Nat → Nat) := rfl
        rw [List.map_append, List.map_map, below, List.map_id]
        exact stack_inside (fun other listed => inside other (List.mem_cons_of_mem _ listed)) position
      have rest := inductionHypothesis (node.id :: seen) _ further (Nat.le_of_succ_le_succ enough)
      have known : node.id.encode ∈ seen.map NodeId.encode ↔ node.id ∈ seen :=
        List.mem_map_of_injective (fun _ _ => NodeId.encode_injective)
      rw [Arena.check, getElem?_nodes_stored, present, reachedFromAll_cons, examine, present]
      simp only [Option.map_some, Option.bind_eq_bind, Option.bind_some, children_stored present]
      by_cases again : node.id ∈ seen
      · simp [TreeNode.stored, known, again]
      · by_cases own : node.parent = reached
        · simpa [TreeNode.stored, known, again, own] using rest
        · simp [TreeNode.stored, known, again, own]

/-- All parts of the stored form of a tree are those of the tree. The walks over the stored form take a
number of steps for their bound, and as many as there are nodes are enough, since each node is met once. -/
theorem shows_stored (tree : Tree) : tree.stored.Shows tree where
  nodes := by
    apply List.ext_getElem?
    intro position
    rw [List.getElem?_map, getElem?_nodes_stored, ← node?]
    cases tree.node? position with
    | none => rfl
    | some node => simp [plain_stored]
  children position stored found := by
    rw [getElem?_nodes_stored] at found
    obtain ⟨node, present, rfl⟩ := Option.map_eq_some_iff.mp found
    exact children_stored present
  find := tree.find?_stored
  walk steps enough := by
    obtain ⟨group, present, _⟩ := tree.exists_root
    have whole : [root].flatMap tree.preorderFrom = tree.preorder := List.flatMap_singleton _ _
    rw [walk_stored, whole]
    · simpa using lt_size_of_node? present
    · rw [whole, tree.length_preorder]
      exact enough
  check steps enough := by
    obtain ⟨group, present, _⟩ := tree.exists_root
    have whole : tree.reachedFromAll [(none, root)] = tree.reachedFrom root :=
      List.flatMap_singleton _ _
    have count : (tree.reachedFrom root).length = tree.size := by
      rw [← List.length_map Prod.snd, tree.reachedFrom_positions, tree.length_preorder]
    have checked := tree.check_stored steps [] [(none, root)]
      (by simpa using lt_size_of_node? present) (by rw [whole, count]; exact enough)
    rw [whole] at checked
    exact checked

end Tree

/-- What an addition to a tree and to what is stored for it does. The tree and what is stored for it
answer the addition together, so a reader of this need not know which of the two is asked. -/
structure Arena.Answers (arena : Arena) (tree : Tree) (addition : Addition) : Prop where
  /-- The addition fails exactly where the identifier is there already or the parent is a leaf or no
  node. -/
  fails : (∃ failure, tree.add addition = .error failure) ↔
    tree.Holds addition.id ∨
      ∀ above, tree.node? addition.parent = some above → above.isLeaf = true
  /-- Failing changes nothing. -/
  kept : ∀ failure, tree.add addition = .error failure →
    tree.after addition = tree ∧ (push addition).run arena = .error failure arena
  /-- Succeeding adds the node behind the others and at the end of its parent's child list, and
  changes nothing else. -/
  grown : ∀ grown, tree.add addition = .ok grown →
    tree.after addition = grown ∧ grown.nodes = tree.nodes ++ [addition.node] ∧
    (∀ position, grown.children position =
      if position = addition.parent then tree.children position ++ [tree.size]
      else tree.children position) ∧
    ∃ next, (push addition).run arena = .ok tree.size next ∧ next.Shows grown

/-- The stored form of a tree answers every addition as the tree does. -/
theorem Tree.answers_stored {tree : Tree} (few : tree.size < UInt32.size) (addition : Addition) :
    tree.stored.Answers tree addition where
  fails := attach_fails_iff
  kept failure failed := by
    rw [push_stored addition few, after, failed]
    exact ⟨rfl, rfl⟩
  grown grown added := by
    rw [push_stored addition few, after, added]
    exact ⟨rfl, nodes_of_add added, children_of_attach added, grown.stored, rfl, grown.shows_stored⟩

/-- After any additions to a root, failed ones among them, the tree is in order, all that is stored for
it is that of the tree, and a further addition either succeeds or changes nothing, as long as there are
fewer nodes than numbers of thirty-two bits. The proof follows the additions from the first to the last.
One addition turns a stored form that shows a tree into one that shows the grown tree, or leaves both as
they are; the order of the tree itself holds of every tree and needs no induction. -/
theorem additions_keep_order (id : NodeId) (label : String) (additions : List Addition)
    (few : ((Tree.single id label).afterAll additions).size < UInt32.size) :
    ((Tree.single id label).afterAll additions).InOrder ∧
    ((Arena.single id label).afterAll additions).Shows
      ((Tree.single id label).afterAll additions) ∧
    ∀ addition, ((Arena.single id label).afterAll additions).Answers
      ((Tree.single id label).afterAll additions) addition := by
  rw [← Tree.stored_single, Tree.afterAll_stored additions few]
  exact ⟨Tree.inOrder _, Tree.shows_stored _, Tree.answers_stored few⟩

namespace Sample

/-- The identifier of a root. -/
def stem : NodeId := .named .customFolder ⟨"Stem", by decide, by decide⟩

/-- A group below the root. -/
def branch : NodeId := .named .customFolder ⟨"Branch", by decide, by decide⟩

/-- A leaf of the group. -/
def twig : NodeId := .named .nameSpace ⟨"Twig", by decide, by decide⟩

/-- A leaf below the root. -/
def shoot : NodeId := .named .nameSpace ⟨"Shoot", by decide, by decide⟩

/-- A leaf that is added to the group last. -/
def bud : NodeId := .named .nameSpace ⟨"Bud", by decide, by decide⟩

/-- Additions of which three fail: below a leaf, of an identifier that is there, and below no
node. -/
def additions : List Addition := [
  ⟨0, branch, "Branch", .group true⟩,
  ⟨1, twig, "Twig", .leaf⟩,
  ⟨2, bud, "Bud", .leaf⟩,
  ⟨0, twig, "Twig", .leaf⟩,
  ⟨9, bud, "Bud", .leaf⟩,
  ⟨0, shoot, "Shoot", .leaf⟩,
  ⟨1, bud, "Bud", .leaf⟩]

end Sample

/-- The four additions that succeed are in order, and the walk lists both leaves of the group before
the leaf that was added to the root between them. -/
theorem additions_of_sample_keep_order :
    ((Tree.single Sample.stem "").afterAll Sample.additions).size < UInt32.size ∧
    ((Tree.single Sample.stem "").afterAll Sample.additions).InOrder ∧
    ((Arena.single Sample.stem "").afterAll Sample.additions).Shows
      ((Tree.single Sample.stem "").afterAll Sample.additions) ∧
    ((Arena.single Sample.stem "").afterAll Sample.additions).walk 5 [0] = some [0, 1, 2, 4, 3] ∧
    (∃ failure, ((Tree.single Sample.stem "").afterAll Sample.additions).add
      ⟨0, Sample.bud, "", .leaf⟩ = .error failure) := by
  have few : ((Tree.single Sample.stem "").afterAll Sample.additions).size < UInt32.size := by
    decide
  obtain ⟨inOrder, shows_, answers⟩ := additions_keep_order Sample.stem "" Sample.additions few
  refine ⟨few, inOrder, shows_, by decide, (answers _).fails.mpr (Or.inl ?_)⟩
  exact Tree.mem_ids_iff.mp (by decide)

end DependencyDiagram

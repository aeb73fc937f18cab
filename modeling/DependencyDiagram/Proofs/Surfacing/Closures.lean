import DependencyDiagram.Proofs.Surfacing.Representative
import DependencyDiagram.Proofs.Tree.Arena

/-!
# The table of closures

A node is closed when some group above it, other than the root, is collapsed. It is closed by the one of
these groups that is closest to the root, and entered below that group through the child on its path.
Nothing else about the groups in between matters.

The closures of a stored tree are found in one walk with a stack. Every position on the stack carries the
closure it inherits; a node hands it on to its children, or else begins a closure for each of them if it
is collapsed itself. The closures of the children are entered in a table under their identifiers.
Whatever order the walk takes, the table ends up with the closures of the tree.

The two accounts are independent. One is about paths in the tree, and the other about a stack, a table
and the order of visits; the second is shown to end with what the first says.
-/

namespace DependencyDiagram

namespace Tree

variable {tree : Tree} {filter : Filter} {position : Nat} {closure : Closure}

/-- A group above the node, other than the root, that is not among the expanded groups. The root never
closes anything, though it is not among the expanded groups. -/
structure Closes (tree : Tree) (filter : Filter) (group position : Nat) : Prop where
  above : tree.Above group position
  inner : group ≠ root
  collapsed : ∃ node, tree.node? group = some node ∧ node.isLeaf = false ∧
    filter.expandsGroup node.id = false

/-- The closing group closest to the root, with its child on the path to the node. There is at most one
such closure for a node, because the groups above a node are linearly ordered and a path enters a group
by one child. -/
structure ClosesFirst (tree : Tree) (filter : Filter) (closure : Closure) (position : Nat) :
    Prop where
  closes : tree.Closes filter closure.group position
  first : ∀ group, tree.Closes filter group position → tree.AtOrAbove closure.group group
  entered : tree.IsParent closure.group closure.entry
  onPath : tree.AtOrAbove closure.entry position

/-- What lies above a node is a group. -/
theorem group_of_above {group : Nat} (above : tree.Above group position) :
    ∃ node, tree.node? group = some node ∧ node.isLeaf = false := by
  obtain ⟨child, named, _⟩ := Relation.TransGen.head'_iff.mp above
  exact group_of_parent named

/-- The closing groups are the collapsed ones among what lies above. -/
theorem closes_iff {group : Nat} :
    tree.Closes filter group position ↔
      tree.Above group position ∧ tree.isCollapsedAt filter group = true := by
  constructor
  · rintro ⟨above, inner, node, present, isGroup, collapsed⟩
    exact ⟨above, by simp [isCollapsedAt, isExpandedAt, present, inner, collapsed]⟩
  · rintro ⟨above, collapsed⟩
    obtain ⟨node, present, isGroup⟩ := group_of_above above
    simp only [isCollapsedAt, isExpandedAt, present, Option.any_some, Bool.and_eq_true, bne_iff_ne,
      Bool.not_eq_true'] at collapsed
    exact ⟨above, collapsed.1, node, present, isGroup, collapsed.2⟩

/-- A group above a node is entered through its child on the path to the node. -/
theorem entryBelow_spec {group : Nat} (above : tree.Above group position) :
    tree.IsParent group (tree.entryBelow group position) ∧
      tree.AtOrAbove (tree.entryBelow group position) position := by
  induction above with
  | single named =>
    rw [entryBelow_child named]
    exact ⟨named, Relation.ReflTransGen.refl⟩
  | tail above named inductionHypothesis =>
    rw [entryBelow_of_parent named above]
    exact ⟨inductionHypothesis.1, inductionHypothesis.2.tail named⟩

/-- The closure of a node is closed first. -/
theorem closesFirst_of_closure? (closed : tree.closure? filter position = some closure) :
    tree.ClosesFirst filter closure position := by
  rw [closure?_eq] at closed
  obtain ⟨group, outer, rfl⟩ := Option.map_eq_some_iff.mp closed
  obtain ⟨above, collapsed, notHigher⟩ := outermostCollapsed?_eq_some outer
  obtain ⟨entered, onPath⟩ := entryBelow_spec above
  refine ⟨closes_iff.mpr ⟨above, collapsed⟩, ?_, entered, onPath⟩
  intro other closes
  obtain ⟨otherAbove, otherCollapsed⟩ := closes_iff.mp closes
  rcases atOrAbove_or_atOrAbove above.to_reflTransGen otherAbove.to_reflTransGen with lower | higher
  · exact lower
  · rcases Relation.reflTransGen_iff_eq_or_transGen.mp higher with same | strictly
    · exact same ▸ Relation.ReflTransGen.refl
    · have open_ := outermostCollapsed?_eq_none_iff.mp notHigher other strictly
      exact absurd (open_.symm.trans otherCollapsed) Bool.false_ne_true

/-- A node is closed exactly where a group closes over it. -/
theorem exists_closure?_iff :
    (∃ closure, tree.closure? filter position = some closure) ↔
      ∃ group, tree.Closes filter group position := by
  constructor
  · rintro ⟨closure, closed⟩
    exact ⟨closure.group, (closesFirst_of_closure? closed).closes⟩
  · rintro ⟨group, closes⟩
    obtain ⟨above, collapsed⟩ := closes_iff.mp closes
    cases outer : tree.outermostCollapsed? filter position with
    | none =>
      have open_ := outermostCollapsed?_eq_none_iff.mp outer group above
      exact absurd (open_.symm.trans collapsed) Bool.false_ne_true
    | some other => exact ⟨_, by rw [closure?_eq, outer, Option.map_some]⟩

/-- A node has one closing group closest to the root, and one child of it on its path. -/
theorem closesFirst_unique {other : Closure} (one : tree.ClosesFirst filter closure position)
    (two : tree.ClosesFirst filter other position) : closure = other := by
  have group : closure.group = other.group :=
    Nat.le_antisymm (le_of_atOrAbove (one.first _ two.closes))
      (le_of_atOrAbove (two.first _ one.closes))
  have entry : closure.entry = other.entry :=
    sibling_unique one.entered (group ▸ two.entered) one.onPath two.onPath
  cases closure
  cases other
  exact (Closure.mk.injEq ..).mpr ⟨group, entry⟩

/-- The closure of a node is what closes over it first. -/
theorem closure?_eq_some_iff :
    tree.closure? filter position = some closure ↔ tree.ClosesFirst filter closure position := by
  refine ⟨closesFirst_of_closure?, fun first => ?_⟩
  obtain ⟨other, closed⟩ := exists_closure?_iff.mpr ⟨closure.group, first.closes⟩
  rw [closed, closesFirst_unique first (closesFirst_of_closure? closed)]

/-- The root is not closed. -/
theorem closure?_root (tree : Tree) (filter : Filter) : tree.closure? filter root = none := by
  rw [closure?_eq, outermostCollapsed?_of_top filter tree.parent?_root, Option.map_none]

/-- A node inherits the closure of its parent, or else is closed by the parent itself. -/
theorem closure?_of_parent {child : Nat} (named : tree.parent? child = some position) :
    tree.closure? filter child = (tree.closure? filter position).or
      (if position = root ∨ tree.isExpandedAt filter position then none
        else some ⟨position, child⟩) := by
  cases outer : tree.closure? filter position with
  | none =>
    rw [closure?] at outer
    rw [closure?, inherit_eq, named]
    simp only [outer, Option.none_or]
  | some closure =>
    rw [closure?] at outer
    rw [closure?, inherit_eq, named]
    simp only [outer, Option.some_or]

/-- The closures are listed with their positions. -/
theorem mem_closures :
    (position, closure) ∈ tree.closures filter ↔ tree.closure? filter position = some closure := by
  simp only [closures, List.mem_filterMap, List.mem_range, Option.map_eq_some_iff, Prod.mk.injEq]
  constructor
  · rintro ⟨_, _, _, closed, rfl, rfl⟩
    exact closed
  · intro closed
    have above := (closesFirst_of_closure? closed).closes.above
    obtain ⟨parent, _, named⟩ := Relation.TransGen.tail'_iff.mp above
    exact ⟨position, lt_size_of_mem_children (mem_children.mpr named), closure, closed, rfl, rfl⟩

/-- No node is listed with two closures. -/
theorem nodup_closures (tree : Tree) (filter : Filter) :
    ((tree.closures filter).map Prod.fst).Nodup := by
  have places : (tree.closures filter).map Prod.fst =
      (List.range tree.size).filter (fun position => (tree.closure? filter position).isSome) := by
    rw [closures, List.map_filterMap, ← List.filterMap_eq_filter]
    apply List.filterMap_congr
    intro position _
    cases closed : tree.closure? filter position <;> simp [Option.guard, closed]
  rw [places]
  exact List.nodup_range.filter _

end Tree

/-- What closes over a node, by identifiers. The walk knows nodes by their identifiers, and the closures
of a tree by their positions. -/
structure ClosedBy where
  parent : NodeId
  child : NodeId
deriving DecidableEq

/-- What closes over the nodes, under the written form of their identifiers. -/
abbrev ClosedTable := Table String (NodeId × ClosedBy)

namespace Arena

/-- Enter a node under its identifier if something closes over it. -/
def enter (closed : ClosedTable) (id : NodeId) : Option ClosedBy → ClosedTable
  | some closing => closed.put id.encode (id, closing)
  | none => closed

/-- Hand to each of the children in order what closes over it, and put it on the stack. The last child
ends up on top of the stack, so a walk visits children in reverse. -/
def handDown (arena : Arena) (boundary : NodeId → Option ClosedBy) :
    List Nat → ClosedTable → List (Nat × Option ClosedBy) →
      Option (ClosedTable × List (Nat × Option ClosedBy))
  | [], closed, stack => some (closed, stack)
  | child :: children, closed, stack => do
    let below ← arena.nodes[child]?
    arena.handDown boundary children (enter closed below.id (boundary below.id))
      ((child, boundary below.id) :: stack)

/-- What a node hands on to a child: the closure it inherits, or else one that begins with it if it is
collapsed. An inherited closure is never replaced, which is why the outermost group wins. -/
def handOn (filter : Filter) (position : Nat) (node : TreeNode) (inherited : Option ClosedBy)
    (child : NodeId) : Option ClosedBy :=
  inherited.or
    (if position ≠ Tree.root ∧ node.isLeaf = false ∧ inherited = none ∧
      filter.expandsGroup node.id = false then some ⟨node.id, child⟩ else none)

/-- Visit the positions on a stack, each with what closes over it, and all below them, in at most the
given number of steps. It has no result where a position is not there or the steps do not suffice.
Neither happens on the stored form of a tree, given as many steps as there are nodes. -/
def close (arena : Arena) (filter : Filter) :
    Nat → ClosedTable → List (Nat × Option ClosedBy) → Option ClosedTable
  | _, closed, [] => some closed
  | 0, _, _ :: _ => none
  | steps + 1, closed, (position, inherited) :: stack => do
    let node ← arena.nodes[position]?
    let (closed, stack) ←
      arena.handDown (handOn filter position node.plain inherited) node.children closed stack
    arena.close filter steps closed stack

end Arena

namespace Tree

variable {tree : Tree} {filter : Filter} {position : Nat} {handed : List Nat} {closed : ClosedTable}

/-- What closes over a position, by identifiers. -/
def closedBy? (tree : Tree) (filter : Filter) (position : Nat) : Option ClosedBy := do
  let closure ← tree.closure? filter position
  let group ← tree.node? closure.group
  let entry ← tree.node? closure.entry
  return ⟨group.id, entry.id⟩

/-- The identifiers of a closure are those of its two nodes. -/
theorem closedBy?_eq_some_iff {closing : ClosedBy} :
    tree.closedBy? filter position = some closing ↔
      ∃ closure group entry, tree.closure? filter position = some closure ∧
        tree.node? closure.group = some group ∧ tree.node? closure.entry = some entry ∧
        closing = ⟨group.id, entry.id⟩ := by
  simp only [closedBy?, Option.bind_eq_bind, Option.bind_eq_some_iff, Option.pure_def,
    Option.some.injEq]
  constructor
  · rintro ⟨closure, found, group, here, entry, there, rfl⟩
    exact ⟨closure, group, entry, found, here, there, rfl⟩
  · rintro ⟨closure, group, entry, found, here, there, rfl⟩
    exact ⟨closure, found, group, here, entry, there, rfl⟩

/-- Both nodes of a closure are there, so every closed position has the identifiers. -/
theorem exists_closedBy? {closure : Closure}
    (found : tree.closure? filter position = some closure) :
    ∃ closing, tree.closedBy? filter position = some closing := by
  obtain ⟨_, _, entered, _⟩ := closesFirst_of_closure? found
  obtain ⟨group, here, _⟩ := group_of_parent entered
  obtain ⟨entry, there⟩ := node?_of_lt (lt_size_of_mem_children (mem_children.mpr entered))
  exact ⟨_, closedBy?_eq_some_iff.mpr ⟨closure, group, entry, found, here, there, rfl⟩⟩

/-- What closes over a child is what closes over its parent, or else the parent if it is collapsed. This
is the rule by which the walk hands closures down from parents to children. The root is expanded whatever
the filter says, and it is never what closes over a node. -/
theorem closedBy?_of_parent {child : Nat} {node below : TreeNode}
    (named : tree.parent? child = some position) (here : tree.node? position = some node)
    (there : tree.node? child = some below) :
    tree.closedBy? filter child =
      Arena.handOn filter position node (tree.closedBy? filter position) below.id := by
  have step : tree.closure? filter child = _ := closure?_of_parent named
  cases outer : tree.closure? filter position with
  | some closure =>
    rw [outer, Option.some_or] at step
    obtain ⟨closing, inherited⟩ := exists_closedBy? outer
    have handedOn : tree.closedBy? filter child = tree.closedBy? filter position := by
      rw [closedBy?, closedBy?, step, outer]
    rw [handedOn, inherited, Arena.handOn, Option.some_or]
  | none =>
    have inherited : tree.closedBy? filter position = none := by rw [closedBy?, outer]; rfl
    obtain ⟨group, present, isGroup⟩ := group_of_parent named
    obtain rfl := Option.some.inj (here.symm.trans present)
    have expanded : tree.isExpandedAt filter position = filter.expandsGroup node.id := by
      rw [isExpandedAt, here, Option.any_some]
    rw [outer, Option.none_or, expanded] at step
    rw [inherited, Arena.handOn, Option.none_or, closedBy?, step]
    by_cases top : position = root
    · simp [top]
    · cases filter.expandsGroup node.id <;> simp [top, isGroup, here, there]

/-- The table lists what closes over the positions that were handed something, and nothing else. This is
the invariant of the walk. Positions are handed something when their parent is visited, before they are
visited themselves. -/
def Records (tree : Tree) (filter : Filter) (handed : List Nat) (closed : ClosedTable) : Prop :=
  ∀ key entry, closed.get? key = some entry ↔
    ∃ position node closing, position ∈ handed ∧ tree.node? position = some node ∧
      tree.closedBy? filter position = some closing ∧ key = node.id.encode ∧
      entry = (node.id, closing)

/-- What a table records does not depend on order and repetition. -/
theorem Records.congr {others : List Nat} (records : tree.Records filter handed closed)
    (same : ∀ position, position ∈ handed ↔ position ∈ others) :
    tree.Records filter others closed := by
  intro key entry
  simp only [records key entry, same]

/-- The empty table records nothing. -/
theorem records_nil (tree : Tree) (filter : Filter) : tree.Records filter [] Table.empty := by
  intro key entry
  simp [Table.get?, Table.empty]

/-- Entering what closes over one more position records it as well. No other position has its
identifier, so no other entry is replaced. -/
theorem records_enter {node : TreeNode} (records : tree.Records filter handed closed)
    (present : tree.node? position = some node) :
    tree.Records filter (position :: handed)
      (Arena.enter closed node.id (tree.closedBy? filter position)) := by
  intro key entry
  cases closing : tree.closedBy? filter position with
  | none =>
    change closed.get? key = some entry ↔ _
    rw [records key entry]
    constructor
    · rintro ⟨other, held, found, listed, rest⟩
      exact ⟨other, held, found, List.mem_cons_of_mem position listed, rest⟩
    · rintro ⟨other, held, found, listed, there, inside, rest⟩
      rcases List.mem_cons.mp listed with rfl | earlier
      · cases closing.symm.trans inside
      · exact ⟨other, held, found, earlier, there, inside, rest⟩
  | some own =>
    rw [Arena.enter, Table.get?_put]
    split
    · rename_i same
      subst same
      constructor
      · intro entered
        exact ⟨position, node, own, List.mem_cons_self, present, closing, rfl,
          (Option.some.inj entered).symm⟩
      · rintro ⟨other, held, found, _, there, inside, named, rfl⟩
        have alike : node.id = held.id := NodeId.encode_injective named
        obtain rfl := position_unique present there alike
        obtain rfl := Option.some.inj (closing.symm.trans inside)
        rw [alike]
    · rename_i apart
      rw [records key entry]
      constructor
      · rintro ⟨other, held, found, listed, rest⟩
        exact ⟨other, held, found, List.mem_cons_of_mem position listed, rest⟩
      · rintro ⟨other, held, found, listed, there, inside, rfl, rest⟩
        rcases List.mem_cons.mp listed with rfl | earlier
        · obtain rfl := Option.some.inj (present.symm.trans there)
          exact absurd rfl apart
        · exact ⟨other, held, found, earlier, there, inside, rfl, rest⟩

/-- A position with what closes over it. -/
def withClosing (tree : Tree) (filter : Filter) (position : Nat) : Nat × Option ClosedBy :=
  (position, tree.closedBy? filter position)

/-- The children are handed what closes over them, and come to stand on the stack in reverse. The
induction is on the children. Each of them is entered in the table with what closes over it and pushed on
the stack, so that the last child comes to stand on top. -/
theorem handDown_stored {boundary : NodeId → Option ClosedBy} {children : List Nat}
    (inside : ∀ child ∈ children, child < tree.size)
    (fits : ∀ child ∈ children, ∀ below, tree.node? child = some below →
      boundary below.id = tree.closedBy? filter child)
    (records : tree.Records filter handed closed) (stack : List Nat) :
    ∃ further, tree.stored.handDown boundary children closed (stack.map (tree.withClosing filter)) =
        some (further, (children.reverse ++ stack).map (tree.withClosing filter)) ∧
      tree.Records filter (children ++ handed) further := by
  induction children generalizing handed closed stack with
  | nil => exact ⟨closed, rfl, records⟩
  | cons child children inductionHypothesis =>
    obtain ⟨below, present⟩ := node?_of_lt (inside child List.mem_cons_self)
    have own := fits child List.mem_cons_self below present
    obtain ⟨further, ran, all⟩ := inductionHypothesis
      (fun other listed => inside other (List.mem_cons_of_mem child listed))
      (fun other listed => fits other (List.mem_cons_of_mem child listed))
      (records_enter records present) (child :: stack)
    refine ⟨further, ?_, all.congr (fun other => ?_)⟩
    · rw [Arena.handDown, getElem?_nodes_stored, present, List.reverse_cons, List.append_assoc,
        List.singleton_append, ← ran]
      change tree.stored.handDown boundary children
        (Arena.enter closed below.id (boundary below.id)) ((child, boundary below.id) :: _) = _
      rw [own]
      rfl
    · simp only [List.mem_append, List.mem_cons]
      rw [or_left_comm, or_assoc]

/-- The positions below a position. -/
def below (tree : Tree) (position : Nat) : List Nat :=
  (tree.children position).flatMap tree.preorderFrom

/-- Below a position are its children and what is below them. -/
theorem mem_below {other : Nat} :
    other ∈ tree.below position ↔
      other ∈ tree.children position ∨
        ∃ child ∈ tree.children position, other ∈ tree.below child := by
  rw [below, List.mem_flatMap]
  constructor
  · rintro ⟨child, listed, under⟩
    rw [preorderFrom_eq] at under
    rcases List.mem_cons.mp under with rfl | deeper
    · exact Or.inl listed
    · exact Or.inr ⟨child, listed, deeper⟩
  · rintro (listed | ⟨child, listed, deeper⟩)
    · exact ⟨other, listed, mem_preorderFrom.mpr Relation.ReflTransGen.refl⟩
    · exact ⟨child, listed, preorderFrom_eq tree child ▸ List.mem_cons_of_mem child deeper⟩

/-- The walk over a stack records what closes over every position below those on the stack. Every
step takes one position from what remains to be visited. -/
theorem close_stored (steps : Nat) (stack : List Nat)
    (inside : ∀ position ∈ stack, position < tree.size)
    (enough : (stack.flatMap tree.preorderFrom).length ≤ steps)
    (records : tree.Records filter handed closed) :
    ∃ all, tree.stored.close filter steps closed (stack.map (tree.withClosing filter)) = some all ∧
      tree.Records filter (stack.flatMap tree.below ++ handed) all := by
  induction steps generalizing stack handed closed with
  | zero =>
    cases stack with
    | nil => exact ⟨closed, rfl, records⟩
    | cons position stack =>
      rw [List.flatMap_cons, preorderFrom_eq] at enough
      simp at enough
  | succ steps inductionHypothesis =>
    cases stack with
    | nil => exact ⟨closed, rfl, records⟩
    | cons position stack =>
      obtain ⟨node, present⟩ := node?_of_lt (inside position List.mem_cons_self)
      obtain ⟨next, handedDown, recorded⟩ := handDown_stored
        (fun child listed => lt_size_of_mem_children listed)
        (fun child listed below there =>
          (closedBy?_of_parent (mem_children.mp listed) present there).symm)
        records stack
      -- The children are put on the stack in reverse. That changes neither how many positions are still
      -- to be visited nor what is recorded in the end.
      have shuffled : ((tree.children position).reverse ++ stack).Perm
          (tree.children position ++ stack) := (List.reverse_perm _).append_right stack
      have further : ∀ other ∈ (tree.children position).reverse ++ stack, other < tree.size :=
        fun other listed => stack_inside
          (fun other listed => inside other (List.mem_cons_of_mem position listed)) position other
          (shuffled.mem_iff.mp listed)
      have fewer : (((tree.children position).reverse ++ stack).flatMap
          tree.preorderFrom).length ≤ steps := by
        rw [(shuffled.flatMap_right tree.preorderFrom).length_eq]
        rw [List.flatMap_cons, preorderFrom_eq, List.cons_append, ← List.flatMap_append,
          List.length_cons] at enough
        exact Nat.le_of_succ_le_succ enough
      obtain ⟨all, ran, complete⟩ := inductionHypothesis _ further fewer recorded
      refine ⟨all, ?_, complete.congr (fun other => ?_)⟩
      · rw [List.map_cons, withClosing, Arena.close, getElem?_nodes_stored, present]
        simp only [Option.map_some, Option.bind_eq_bind, Option.bind_some, children_stored present,
          plain_stored]
        exact (congrArg (Option.bind · _) handedDown).trans ran
      · simp only [List.flatMap_append, List.flatMap_cons, List.mem_append, List.mem_flatMap,
          List.mem_reverse, @mem_below tree position]
        rw [or_left_comm, or_assoc, or_assoc, or_assoc]

/-- The table holds under the identifier of every closed node those of its closure, and nothing else.
Nothing is left of the order of the walk in this: it only says which entries there are. -/
def Tabulates (tree : Tree) (filter : Filter) (closed : ClosedTable) : Prop :=
  ∀ key entry, closed.get? key = some entry ↔
    ∃ position closure node group child, (position, closure) ∈ tree.closures filter ∧
      tree.node? position = some node ∧ tree.node? closure.group = some group ∧
      tree.node? closure.entry = some child ∧ key = node.id.encode ∧
      entry = (node.id, ⟨group.id, child.id⟩)

/-- The walk over a stored tree ends within as many steps as there are nodes, with the closures of
the tree in its table. -/
theorem exists_close_stored (tree : Tree) (filter : Filter) :
    ∃ closed, tree.stored.close filter tree.size Table.empty [(root, none)] = some closed ∧
      tree.Tabulates filter closed := by
  have top : tree.withClosing filter root = (root, none) := by
    rw [withClosing, closedBy?, closure?_root]
    rfl
  obtain ⟨group, present, _⟩ := tree.exists_root
  have whole : [root].flatMap tree.preorderFrom = tree.preorder := List.flatMap_singleton _ _
  obtain ⟨closed, ran, records⟩ := close_stored tree.size [root]
    (by simpa using lt_size_of_node? present)
    (by rw [whole, tree.length_preorder]) (tree.records_nil filter)
  rw [List.map_singleton, top] at ran
  refine ⟨closed, ran, fun key entry => (records key entry).trans ?_⟩
  simp only [mem_closures, closedBy?_eq_some_iff]
  constructor
  · rintro ⟨position, node, _, _, here, ⟨closure, group, child, found, above, entered, rfl⟩, named,
      held⟩
    exact ⟨position, closure, node, group, child, found, here, above, entered, named, held⟩
  · rintro ⟨position, closure, node, group, child, found, here, above, entered, named, held⟩
    refine ⟨position, node, _, ?_, here, ⟨closure, group, child, found, above, entered, rfl⟩, named,
      held⟩
    have listed := mem_preorder (lt_size_of_node? here)
    rw [preorder, preorderFrom_eq] at listed
    rcases List.mem_cons.mp listed with rfl | deeper
    · cases (closure?_root tree filter).symm.trans found
    · simpa [below] using deeper

/-- A node has a closure exactly where a group above it, other than the root, is collapsed. The closure
is then the collapsed group closest to the root, with its child on the path to the node. No node has two
closures and the root has none. The walk over the stored tree fills its table with exactly these
closures, whatever the filter. The filter may name identifiers that the tree does not have, or leaves;
for closures only the groups that are there matter. -/
theorem closures_exact (tree : Tree) (filter : Filter) :
    (∀ position, (∃ closure, (position, closure) ∈ tree.closures filter) ↔
      ∃ group, tree.Closes filter group position) ∧
    (∀ position closure, (position, closure) ∈ tree.closures filter ↔
      tree.ClosesFirst filter closure position) ∧
    ((tree.closures filter).map Prod.fst).Nodup ∧
    root ∉ (tree.closures filter).map Prod.fst ∧
    ∃ closed, tree.stored.close filter tree.size Table.empty [(root, none)] = some closed ∧
      tree.Tabulates filter closed := by
  refine ⟨fun position => ?_, fun position closure => mem_closures.trans closure?_eq_some_iff,
    tree.nodup_closures filter, ?_, tree.exists_close_stored filter⟩
  · simp only [mem_closures]
    exact exists_closure?_iff
  · rw [List.mem_map]
    rintro ⟨⟨position, closure⟩, listed, rfl⟩
    cases (closure?_root tree filter).symm.trans (mem_closures.mp listed)

end Tree

end DependencyDiagram

import DependencyDiagram.Tree.Basic

/-!
# Walks over a tree

Two ways of computing over a tree suffice. A downward walk combines at every node what its
children yield, in the order of the children. An upward walk hands a value from the root
down one path, changing it at every step from parent to child. Both end because parents
come before their children. Each is governed by one equation, from which everything else
about it follows. Where the results of a downward walk are needed at many positions, they are
computed at all of them together.
-/

namespace DependencyDiagram.Tree

universe u
variable {α : Type u}

/-- The downward walk over at most the given number of generations. -/
def foldWithin (tree : Tree) (combine : Nat → List α → α) : Nat → Nat → α
  | 0, position => combine position []
  | generations + 1, position =>
    combine position ((tree.children position).map (tree.foldWithin combine generations))

/-- Combine at every node what its children yield. The results of the children are handed
over as a list in their order, so a walk can stop below a node by not looking at them. -/
def fold (tree : Tree) (combine : Nat → List α → α) (position : Nat) : α :=
  tree.foldWithin combine tree.size position

/-- The upward walk over at most the given number of generations. -/
def inheritWithin (tree : Tree) (start : α) (hand : Nat → Nat → α → α) : Nat → Nat → α
  | 0, _ => start
  | generations + 1, position =>
    match tree.parent? position with
    | none => start
    | some parent => hand parent position (tree.inheritWithin start hand generations parent)

/-- Hand a value from the root down the path to a node. -/
def inherit (tree : Tree) (start : α) (hand : Nat → Nat → α → α) (position : Nat) : α :=
  tree.inheritWithin start hand position position

/-- Positions outside the tree have no children. -/
theorem children_eq_nil {tree : Tree} {position : Nat} (outside : tree.size ≤ position) :
    tree.children position = [] := by
  rw [List.eq_nil_iff_forall_not_mem]
  intro child listed
  have named := mem_children.mp listed
  have later := parent_lt named
  obtain ⟨node, present, _⟩ := Option.bind_eq_some_iff.mp named
  have inside := (List.getElem?_eq_some_iff.mp present).1
  exact Nat.lt_irrefl _ (Nat.lt_trans (Nat.lt_of_le_of_lt outside later) inside)

/-- More generations than lie below a node change nothing. -/
theorem foldWithin_eq (tree : Tree) (combine : Nat → List α → α) (first second position : Nat)
    (enough : tree.size ≤ first + position) (also : tree.size ≤ second + position) :
    tree.foldWithin combine first position = tree.foldWithin combine second position := by
  induction first generalizing second position with
  | zero =>
    have alone : tree.children position = [] := children_eq_nil (by omega)
    cases second <;> simp [foldWithin, alone]
  | succ first inductionHypothesis =>
    cases second with
    | zero =>
      have alone : tree.children position = [] := children_eq_nil (by omega)
      simp [foldWithin, alone]
    | succ second =>
      rw [foldWithin, foldWithin]
      congr 1
      apply List.map_congr_left
      intro child listed
      have later := parent_lt (mem_children.mp listed)
      exact inductionHypothesis second child (by omega) (by omega)

/-- The equation of the downward walk. -/
theorem fold_eq (tree : Tree) (combine : Nat → List α → α) (position : Nat) :
    tree.fold combine position =
      combine position ((tree.children position).map (tree.fold combine)) := by
  rw [fold, foldWithin_eq tree combine tree.size (tree.size + 1) position (by omega) (by omega),
    foldWithin]
  rfl

/-- The results of the downward walk at the given number of last positions. Every result is
computed once, from those of the children, which come later. -/
def foldLast (tree : Tree) (combine : Nat → List α → α) : Nat → List α
  | 0 => []
  | count + 1 =>
    let position := tree.size - (count + 1)
    let later := tree.foldLast combine count
    combine position ((tree.children position).filterMap
      (fun child => later[child - (position + 1)]?)) :: later

/-- The results of the downward walk at all positions in order. -/
def foldAll (tree : Tree) (combine : Nat → List α → α) : List α := tree.foldLast combine tree.size

/-- A child lies inside the tree. -/
theorem lt_size_of_mem_children {tree : Tree} {position child : Nat}
    (listed : child ∈ tree.children position) : child < tree.size := by
  obtain ⟨node, present, _⟩ := Option.bind_eq_some_iff.mp (mem_children.mp listed)
  exact (List.getElem?_eq_some_iff.mp present).1

/-- Where every look-up succeeds, collecting what was found is a plain map. -/
theorem filterMap_of_present (lookUp : Nat → Option α) (value : Nat → α) (keys : List Nat)
    (present : ∀ key ∈ keys, lookUp key = some (value key)) :
    keys.filterMap lookUp = keys.map value := by
  induction keys with
  | nil => rfl
  | cons key rest inductionHypothesis =>
    rw [List.filterMap_cons_some (present key List.mem_cons_self), List.map_cons,
      inductionHypothesis (fun other listed => present other (List.mem_cons_of_mem key listed))]

/-- The last results are those of the downward walk from each of the last positions. -/
theorem foldLast_eq (tree : Tree) (combine : Nat → List α → α) (count : Nat)
    (enough : count ≤ tree.size) :
    tree.foldLast combine count =
      (List.range' (tree.size - count) count).map (tree.fold combine) := by
  induction count with
  | zero => rfl
  | succ count inductionHypothesis =>
    have next : tree.size - count = tree.size - (count + 1) + 1 := by omega
    have later := inductionHypothesis (by omega)
    rw [foldLast, later, next, List.range'_succ, List.map_cons, fold_eq]
    congr 2
    apply filterMap_of_present
    intro child listed
    have above := parent_lt (mem_children.mp listed)
    have inside := lt_size_of_mem_children listed
    rw [List.getElem?_map, List.getElem?_range' (by omega)]
    simp only [Option.map_some, Nat.one_mul]
    congr 2
    omega

/-- All results at once are the results one by one. -/
theorem foldAll_eq (tree : Tree) (combine : Nat → List α → α) :
    tree.foldAll combine = (List.range tree.size).map (tree.fold combine) := by
  rw [foldAll, foldLast_eq tree combine tree.size (Nat.le_refl _), Nat.sub_self,
    List.range_eq_range']

/-- More generations than lie above a node change nothing. -/
theorem inheritWithin_eq (tree : Tree) (start : α) (hand : Nat → Nat → α → α)
    (first second position : Nat) (enough : position ≤ first) (also : position ≤ second) :
    tree.inheritWithin start hand first position = tree.inheritWithin start hand second position := by
  induction first generalizing second position with
  | zero =>
    have top : tree.parent? position = none := by
      cases named : tree.parent? position with
      | none => rfl
      | some parent =>
        have earlier := parent_lt named
        omega
    cases second <;> simp [inheritWithin, top]
  | succ first inductionHypothesis =>
    cases second with
    | zero =>
      have top : tree.parent? position = none := by
        cases named : tree.parent? position with
        | none => rfl
        | some parent =>
          have earlier := parent_lt named
          omega
      simp [inheritWithin, top]
    | succ second =>
      rw [inheritWithin, inheritWithin]
      cases named : tree.parent? position with
      | none => rfl
      | some parent =>
        have earlier := parent_lt named
        simp only
        rw [inductionHypothesis second parent (by omega) (by omega)]

/-- The equation of the upward walk. -/
theorem inherit_eq (tree : Tree) (start : α) (hand : Nat → Nat → α → α) (position : Nat) :
    tree.inherit start hand position =
      match tree.parent? position with
      | none => start
      | some parent => hand parent position (tree.inherit start hand parent) := by
  rw [inherit, inheritWithin_eq tree start hand position (position + 1) position (by omega) (by omega),
    inheritWithin]
  cases named : tree.parent? position with
  | none => rfl
  | some parent =>
    have earlier := parent_lt named
    simp only [inherit]
    rw [inheritWithin_eq tree start hand position parent parent (by omega) (by omega)]

/-- The positions of a subtree, every node before its children and children in order. -/
def preorderFrom (tree : Tree) (position : Nat) : List Nat :=
  tree.fold (fun here below => here :: below.flatten) position

/-- All positions, every node before its children and children in order. -/
def preorder (tree : Tree) : List Nat := tree.preorderFrom root

/-- The positions of the leaves in order of creation. -/
def leaves (tree : Tree) : List Nat :=
  (List.range tree.size).filter (fun position => (tree.node? position).any TreeNode.isLeaf)

/-- The label at a position; a position outside the tree has none to show. -/
def label (tree : Tree) (position : Nat) : String :=
  match tree.node? position with
  | some node => node.label
  | none => ""

/-- The labels from below the root down to a node. -/
def labelPath (tree : Tree) (position : Nat) : List String :=
  tree.inherit [] (fun _ child above => above ++ [tree.label child]) position

/-- The failure for an identifier that a walk meets twice. -/
def metTwice (id : NodeId) : Failure :=
  ((Failure.ofKind .structuralInvariantViolation
    ("node id '" ++ id.encode ++ "' occurs twice")).during "visibility::assert_structure").noting
      "id" id.encode

/-- The failure for a node that does not name the parent it is reached from. -/
def strayParent (id : NodeId) : Failure :=
  ((Failure.ofKind .structuralInvariantViolation
    ("node '" ++ id.encode ++ "' does not point back to its parent")).during
      "visibility::assert_structure").noting "id" id.encode

/-- Examine the nodes that a walk reached, each with the parent it was reached from. -/
def examine (tree : Tree) : List NodeId → List (Option Nat × Nat) → Except Failure Unit
  | _, [] => .ok ()
  | seen, (reached, position) :: rest =>
    match tree.node? position with
    | none => tree.examine seen rest
    | some node =>
      if node.id ∈ seen then .error (metTwice node.id)
      else if node.parent ≠ reached then .error (strayParent node.id)
      else tree.examine (node.id :: seen) rest

/-- The positions of a downward walk, each with the parent it is reached from. -/
def reachedFrom (tree : Tree) (position : Nat) : List (Option Nat × Nat) :=
  (none, position) ::
    tree.fold (fun here below =>
      ((tree.children here).zip below).flatMap
        (fun (child, further) => (some here, child) :: further)) position

/-- Check that the walk from the root meets every identifier once and that every node names
the parent it is reached from. On every tree the check succeeds. It is carried out all the
same, where a filter is applied, as a stored tree would be checked. -/
def checkStructure (tree : Tree) : Except Failure Unit := tree.examine [] (tree.reachedFrom root)

end DependencyDiagram.Tree

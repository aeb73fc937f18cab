import DependencyDiagram.Filter

/-!
# Closures

A group that is not expanded closes over everything below it. The outermost such group on
a node's path wins: the node surfaces there, whatever lies in between. The root never
closes. A closure records the closing group together with the child of that group through
which the path goes on, which is what a reader sees of the hidden node.

Closures are inherited. A node below a closed node has the same closure, and a node whose
parent is collapsed but not closed itself has a new one.
-/

namespace DependencyDiagram

/-- Where a hidden node surfaces: the closing group and its child on the node's path. Both
are positions, and the second one is a child of the first. -/
structure Closure where
  group : Nat
  entry : Nat
deriving DecidableEq, Repr

namespace Tree

/-- The identifier at a position is among the expanded groups. -/
def isExpandedAt (tree : Tree) (filter : Filter) (position : Nat) : Bool :=
  (tree.node? position).any (fun node => filter.expandsGroup node.id)

/-- The closure of a node, if some group above it is collapsed. -/
def closure? (tree : Tree) (filter : Filter) (position : Nat) : Option Closure :=
  tree.inherit none (fun parent child outer =>
    match outer with
    | some closure => some closure
    | none =>
      if parent = root ∨ tree.isExpandedAt filter parent then none else some ⟨parent, child⟩)
    position

/-- The closed nodes with their closures, in order of creation. -/
def closures (tree : Tree) (filter : Filter) : List (Nat × Closure) :=
  (List.range tree.size).filterMap
    (fun position => (tree.closure? filter position).map (position, ·))

/-- Where a node surfaces: at its closing group, or at itself when nothing closes over it. -/
def surface (tree : Tree) (filter : Filter) (position : Nat) : Nat :=
  match tree.closure? filter position with
  | some closure => closure.group
  | none => position

end Tree

end DependencyDiagram

import DependencyDiagram.Surfacing.Route

/-!
# The visible graph

A filter reduces a tree with its edges to what is drawn. Only connected material is drawn:
a leaf shows when it is shown by the filter and takes part in a surfaced edge; a group shows
when it takes part itself or when a child shows. The root always shows, as the frame around
everything, and is never counted.

Whether a node shows depends on everything below it. The graph therefore keeps the answers
for all nodes, computed together, and its type says that they are the right ones.
-/

namespace DependencyDiagram

namespace Tree

/-- A node shows by itself, or because a child does. -/
def showsWith (tree : Tree) (filter : Filter) (participants : Collection NodeId) (position : Nat)
    (below : List Bool) : Bool :=
  match tree.node? position with
  | none => false
  | some node =>
    if node.isLeaf then filter.showsLeaf node.id && participants.contains node.id
    else participants.contains node.id || below.any id

/-- A node shows by itself or through a node below it. -/
def showsFrom (tree : Tree) (filter : Filter) (participants : Collection NodeId) (position : Nat) :
    Bool :=
  tree.fold (tree.showsWith filter participants) position

/-- A node shows; the root always does. -/
def showsAt (tree : Tree) (filter : Filter) (participants : Collection NodeId) (position : Nat) :
    Bool :=
  position == root || tree.showsFrom filter participants position

/-- For all positions in order, whether the node there shows by itself or through a node
below it. -/
def showing (tree : Tree) (filter : Filter) (participants : Collection NodeId) : List Bool :=
  tree.foldAll (tree.showsWith filter participants)

/-- Nothing shows outside the tree. -/
theorem showsFrom_outside {tree : Tree} (filter : Filter) (participants : Collection NodeId)
    {position : Nat} (outside : tree.size ≤ position) :
    tree.showsFrom filter participants position = false := by
  have missing : tree.node? position = none := List.getElem?_eq_none outside
  rw [showsFrom, fold_eq, showsWith, missing]

/-- The answers at all positions are the answers one by one. -/
theorem getD_showing (tree : Tree) (filter : Filter) (participants : Collection NodeId)
    (position : Nat) :
    (tree.showing filter participants)[position]?.getD false =
      tree.showsFrom filter participants position := by
  rw [showing, foldAll_eq, List.getElem?_map]
  rcases Nat.lt_or_ge position tree.size with inside | outside
  · rw [List.getElem?_range inside]
    rfl
  · rw [List.getElem?_eq_none (by simpa using outside), showsFrom_outside filter participants outside]
    rfl

end Tree

/-- A tree and a filter with the edges that surface under it. What shows at each position is
kept with a proof that it is what the tree, the filter and the participants give, so two
graphs with the same of these are equal. -/
structure VisibleGraph where
  tree : Tree
  filter : Filter
  surfaced : Surfaced
  showing : List Bool
  showing_eq : showing = tree.showing filter surfaced.participants
deriving DecidableEq

namespace VisibleGraph

/-- The graph of a tree and a filter with the surfaced edges. -/
def ofSurfaced (tree : Tree) (filter : Filter) (surfaced : Surfaced) : VisibleGraph :=
  ⟨tree, filter, surfaced, tree.showing filter surfaced.participants, rfl⟩

/-- The surfaced edges. -/
def edges (graph : VisibleGraph) : Edges := graph.surfaced.edges

/-- The position is drawn, unless it lies inside a collapsed group. -/
def isVisible (graph : VisibleGraph) (position : Nat) : Bool :=
  position == Tree.root || graph.showing[position]?.getD false

/-- What is visible is what shows. -/
theorem isVisible_eq (graph : VisibleGraph) (position : Nat) :
    graph.isVisible position =
      graph.tree.showsAt graph.filter graph.surfaced.participants position := by
  rw [isVisible, graph.showing_eq, Tree.getD_showing, Tree.showsAt]

/-- The position is drawn as a frame around its children. The root always is. -/
def isExpanded (graph : VisibleGraph) (position : Nat) : Bool :=
  position == Tree.root || graph.tree.isOpenGroup graph.filter position

/-- The positions that are drawn, the root excluded, in order of creation. They are found by
going through all positions, without descending from the root. -/
def drawn (graph : VisibleGraph) : List Nat :=
  (List.range graph.tree.size).filter (fun position =>
    position != Tree.root && graph.isVisible position &&
      (graph.tree.closure? graph.filter position).isNone)

/-- The number of nodes that are drawn. -/
def visibleCount (graph : VisibleGraph) : Nat := graph.drawn.length

end VisibleGraph

/-- Reduce a tree and its edges to what a filter leaves. The structure of the tree is
checked first, and a fault there would be reported before any fault of an edge. -/
def applyFilter (tree : Tree) (edges : Edges) (filter : Filter) : Except Failure VisibleGraph := do
  tree.checkStructure
  return .ofSurfaced tree filter (tree.surfaced (← tree.routes edges filter))

end DependencyDiagram

import DependencyDiagram.Grouping.Draft
import DependencyDiagram.Identity.Mint
import DependencyDiagram.Tree.Walk
import DependencyDiagram.ViewOptions

/-!
# Building a hierarchy

A hierarchy is built from the draft of its leaves, on a tree that begins with a minted root. Each
level of the draft is carried out below the node of its group: first its groups, each with all
that is inside it, then its leaves. Groups without an identifier of their own receive minted ones
in this order. Names must be unique, which is checked before anything else; identifiers must be
unique too, which the tree checks as it grows.
-/

namespace DependencyDiagram

/-- A tree with the positions of its leaves by name. Names are what the makers of edges and
texts know leaves by. -/
structure BuiltTree where
  tree : Tree
  leafs : Table String Nat
deriving DecidableEq

namespace BuiltTree

/-- A root and nothing else. -/
def single (id : NodeId) : BuiltTree := ⟨Tree.single id "", Table.empty⟩

/-- The positions directly below the root. -/
def groups (built : BuiltTree) : List Nat := built.tree.children Tree.root

/-- Attach a leaf below a node and note its position under its name. -/
def addLeaf (built : BuiltTree) (parent : Nat) (spec : LeafSpec) : Except Failure BuiltTree := do
  let position := built.tree.size
  let tree ← built.tree.attach parent spec.id spec.label .leaf
  return ⟨tree, built.leafs.put spec.name position⟩

end BuiltTree

/-- The identifier of a group: its own, or the next minted one. -/
def Mint.identify (mint : Mint) (segment : Segment) : NodeId × Mint :=
  match segment.id with
  | some id => (id, mint)
  | none => mint.group

namespace Draft

/-- Carry out a level of a draft below a node of a tree. The tree and the mint are handed on
from one group to the next, so a failure at any depth ends the whole. -/
def materialize (specs : List LeafSpec) (parent : Nat) :
    Draft specs.length → BuiltTree × Mint → Except Failure (BuiltTree × Mint)
  | leaves standing, (built, mint) => do
    return (← standing.foldlM (fun built leaf => built.addLeaf parent (specs.get leaf)) built, mint)
  | group segment inside others, (built, mint) => do
    let (id, mint) := mint.identify segment
    let position := built.tree.size
    let tree ← built.tree.attach parent id segment.label (.group segment.shortens)
    let filled ← materialize specs position inside (⟨tree, built.leafs⟩, mint)
    materialize specs parent others filled

end Draft

/-- The first member of a list that occurred before. -/
def firstRepeated? : List String → List String → Option String
  | _, [] => none
  | seen, name :: rest => if name ∈ seen then some name else firstRepeated? (name :: seen) rest

/-- Build a tree from leaves with their paths. The root is minted before any group, and it
has no label. -/
def buildHierarchy (specs : List LeafSpec) (options : HierarchyOptions) (mint : Mint) :
    Except Failure (BuiltTree × Mint) :=
  match firstRepeated? [] (specs.map LeafSpec.name) with
  | some name => .error ((Failure.duplicateLeafName name).during "hierarchy::build")
  | none =>
    (draftOf options.nested options.ungroupSingle specs).materialize specs Tree.root
      (.single mint.group.1, mint.group.2)

/-- A leaf from its name alone. Its path is chosen before its identifier is examined. -/
def leafFromName (executables : List String) (kind : NamedKind) (clustering : Clustering)
    (name : String) : Except Failure LeafSpec := do
  let path ← if name ∈ executables then .ok [] else clustering.path name
  return ⟨← NodeId.ofName kind name, name, name, path⟩

/-- Build a tree from names. Executables stay below the root; every other name is placed by
the clustering policy. -/
def buildTree (names executables : List String) (kind : NamedKind) (options : HierarchyOptions)
    (clustering : Clustering) (mint : Mint) : Except Failure (BuiltTree × Mint) := do
  buildHierarchy (← names.mapM (leafFromName executables kind clustering)) options mint

end DependencyDiagram

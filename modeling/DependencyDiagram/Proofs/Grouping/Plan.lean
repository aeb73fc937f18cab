import DependencyDiagram.Grouping.Hierarchy
import DependencyDiagram.Ordered.Ascending

/-!
# Plans of a hierarchy

A plan lists the groups and leaves of a tree in the order in which they are created: each
group before what lies in it, groups in ascending order of their labels before the leaves,
and leaves in the order of the input. A group is known by the labels on the way to it.

Where a draft is grown leaf by leaf and then thinned out group by group, a plan is read off all
leaves of a level at once. On each level the leaves with a common next label form a group. When
single members are not to be grouped, a leaf that is alone with its next label stays on the level.
A group takes its identifier and its promise about labels from the first leaf that runs through it.

A plan is carried out entry by entry. For this it is kept which group stands at which place, so that
an entry finds the group it goes into by the labels of its place.
-/

namespace DependencyDiagram

/-- A group or a leaf with the labels of the groups around it. Two groups with one label at different
places are different entries, while two segments with one label at one place have come to a single entry
already. -/
inductive PlanEntry where
  | group (around : List String) (segment : Segment)
  | leaf (around : List String) (spec : LeafSpec)
deriving DecidableEq

/-- A leaf with the part of its path that lies below the present level. What a leaf is stays open. A plan
places the leaves themselves and a draft their positions in the input, and a level decides the same for
both. -/
structure Placing (α : Type) where
  leaf : α
  rest : List Segment
deriving DecidableEq

namespace Placing

variable {α : Type}

/-- The label of the next group on the way. -/
def heading? (placing : Placing α) : Option String := placing.rest.head?.map Segment.label

/-- Step into the next group. -/
def descend (placing : Placing α) : Placing α := ⟨placing.leaf, placing.rest.tail⟩

/-- The group of this level that takes a leaf in, if any does. A leaf whose path ends here is taken in by
none. Neither is one that is alone with its next label, where such groups are dissolved; the rest of its
path is then without effect, for nobody shares it. -/
def owner? (ungroupSingle : Bool) (level : List (Placing α)) (placing : Placing α) : Option String :=
  match placing.heading? with
  | none => none
  | some label =>
    if ungroupSingle ∧ (level.filter (fun other => other.heading? = some label)).length ≤ 1 then none
    else some label

/-- The leaves of a level that a group takes in. -/
def membersOf (ungroupSingle : Bool) (level : List (Placing α)) (label : String) : List (Placing α) :=
  level.filter (fun placing => placing.owner? ungroupSingle level = some label)

/-- The labels of the groups on a level, ascending. -/
def groupLabels (ungroupSingle : Bool) (level : List (Placing α)) : List String :=
  ascendingMembers (level.filterMap (fun placing => placing.owner? ungroupSingle level))

/-- The leaves of a level that no group takes in. -/
def looseLeaves (ungroupSingle : Bool) (level : List (Placing α)) : List (Placing α) :=
  level.filter (fun placing => (placing.owner? ungroupSingle level).isNone)

/-- The plan of a level, down to at most the given number of further levels. The bound only makes the
recursion structural. A plan is taken with the length of the longest path, and there no path is cut by
it. -/
def planWithin (ungroupSingle : Bool) :
    Nat → List String → List (Placing LeafSpec) → List PlanEntry
  | 0, around, level => level.map (fun placing => .leaf around placing.leaf)
  | depth + 1, around, level =>
    (groupLabels ungroupSingle level).flatMap (fun label =>
      let members := membersOf ungroupSingle level label
      match members.head?.bind (fun first => first.rest.head?) with
      | none => []
      | some segment =>
        .group around segment ::
          planWithin ungroupSingle depth (around ++ [label]) (members.map descend)) ++
      (looseLeaves ungroupSingle level).map (fun placing => .leaf around placing.leaf)

end Placing

/-- The length of the longest path. -/
def deepestPath {α : Type} (level : List (Placing α)) : Nat :=
  (level.map (fun placing => placing.rest.length)).foldl max 0

/-- No path of a level is longer than the longest. -/
theorem length_le_deepestPath {α : Type} {level : List (Placing α)} {placing : Placing α}
    (listed : placing ∈ level) : placing.rest.length ≤ deepestPath level := by
  have counted : placing.rest.length ∈ level.map (fun placing => placing.rest.length) :=
    List.mem_map_of_mem listed
  rw [deepestPath, List.foldl_max]
  exact Nat.le_trans (List.le_max?_getD_of_mem counted) (Nat.le_max_right _ _)

/-- The plan for a list of leaves. Building a hierarchy comes to carrying this plan out, and it is the
plan that is reasoned about, since it says at once what a draft arrives at in several passes. -/
def planOf (nested ungroupSingle : Bool) (specs : List LeafSpec) : List PlanEntry :=
  let level := specs.map (fun spec => Placing.mk spec (cutPath nested spec.path))
  Placing.planWithin ungroupSingle (deepestPath level) [] level

/-- A tree under construction: the positions of its groups by the labels on the way to them, the latest
first, the positions of its leaves by name, and the mint. The root is the place without labels. Places
are only ever added, and an entry meets the latest position first. -/
structure Construction where
  tree : Tree
  places : List (List String × Nat)
  leafs : Table String Nat
  mint : Mint

namespace Construction

/-- A minted root and nothing else. -/
def begin (mint : Mint) : Construction where
  tree := Tree.single mint.group.1 ""
  places := [([], Tree.root)]
  leafs := Table.empty
  mint := mint.group.2

/-- The position of the group that the labels lead to. A plan in order never asks for a place that is not
there, so the root as the answer to such a question is of no consequence. -/
def placeOf (construction : Construction) (around : List String) : Nat :=
  match construction.places.find? (fun place => place.1 = around) with
  | some place => place.2
  | none => Tree.root

/-- Carry out one entry of a plan. -/
def perform (construction : Construction) : PlanEntry → Except Failure Construction
  | .group around segment => do
    let (id, mint) := construction.mint.identify segment
    let position := construction.tree.size
    let tree ← construction.tree.attach (construction.placeOf around) id segment.label
      (.group segment.shortens)
    return { construction with
      tree := tree
      places := (around ++ [segment.label], position) :: construction.places
      mint := mint }
  | .leaf around spec => do
    let position := construction.tree.size
    let tree ← construction.tree.attach (construction.placeOf around) spec.id spec.label .leaf
    return { construction with
      tree := tree
      leafs := construction.leafs.put spec.name position }

end Construction

end DependencyDiagram

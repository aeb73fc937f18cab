import DependencyDiagram.Grouping.Clustering

/-!
# Drafts of a hierarchy

Before any node of a tree is made, the leaves are collected in a draft. A draft has a level for
the root and one for every group; leaves are entered one after the other along their paths, and
a group is opened by the first leaf that runs through it, from which it takes its identifier and
its promise about labels. Leaves that come later join the group by its label alone.

When single members are not to be grouped, the groups that hold nothing but one leaf are dissolved,
from the inside out, and their leaves move up to the level around. So a leaf may move up through
several levels, and a group that loses all its groups may be dissolved in turn.

A draft knows leaves by their positions in the input. The number of leaves is part of the type, so
that every position in a draft is that of a leaf.
-/

namespace DependencyDiagram

/-- A leaf to be placed: its name is unique in a build, its label need not be. The path is
the whole of what a policy chose; how much of it is used is decided later. -/
structure LeafSpec where
  id : NodeId
  name : String
  label : String
  path : List Segment
deriving DecidableEq

/-- The part of a leaf's path that is used: all of it, or the outermost group only. -/
def cutPath (nested : Bool) (path : List Segment) : List Segment :=
  if nested then path else path.take 1

/-- A level of a draft. It is made up of its groups in ascending order of their labels, each with
the level inside it, and ends in the leaves that stand on the level itself. -/
inductive Draft (count : Nat) where
  | leaves (standing : List (Fin count))
  | group (segment : Segment) (inside : Draft count) (others : Draft count)
deriving DecidableEq

namespace Draft

variable {count : Nat}

/-- A level with nothing on it. -/
def empty : Draft count := leaves []

instance : Inhabited (Draft count) := ⟨empty⟩

/-- Change the leaves that stand on a level. -/
def mapStanding (change : List (Fin count) → List (Fin count)) : Draft count → Draft count
  | leaves standing => leaves (change standing)
  | group segment inside others => group segment inside (others.mapStanding change)

/-- Change the level inside the group that has the label of a segment. Where a level has no such
group, the segment opens one at its place in ascending order. -/
def inGroup (segment : Segment) (change : Draft count → Draft count) : Draft count → Draft count
  | leaves standing => group segment (change empty) (leaves standing)
  | group present inside others =>
    match compare segment.label present.label with
    | .lt => group segment (change empty) (group present inside others)
    | .eq => group present (change inside) others
    | .gt => group present inside (others.inGroup segment change)

/-- Enter a leaf along a path, behind the leaves that were entered before. -/
def enter (leaf : Fin count) : List Segment → Draft count → Draft count
  | [] => mapStanding (· ++ [leaf])
  | segment :: rest => inGroup segment (enter leaf rest)

/-- The only leaf of a level that has no group and no other leaf. -/
def onlyLeaf? : Draft count → Option (Fin count)
  | leaves [leaf] => some leaf
  | _ => none

/-- Put a leaf in front of the first one that comes later in the input. -/
def insertLeaf (leaf : Fin count) : List (Fin count) → List (Fin count)
  | [] => [leaf]
  | next :: rest => if leaf ≤ next then leaf :: next :: rest else next :: insertLeaf leaf rest

/-- Bring leaves into the order of the input. -/
def inInputOrder (standing : List (Fin count)) : List (Fin count) := standing.foldr insertLeaf []

/-- Let leaves move up to a level, to their places among those that stand there. -/
def promote (draft : Draft count) (promoted : List (Fin count)) : Draft count :=
  if promoted = [] then draft
  else draft.mapStanding (fun standing => inInputOrder (standing ++ promoted))

/-- Dissolve the groups of a level that hold nothing but one leaf after the same was done
inside them: what remains of the level, and the leaves to move up in the order of their
groups. A group that has lost everything but one leaf is dissolved as well, which is why the
inside comes first. -/
def sift : Draft count → Draft count × List (Fin count)
  | leaves standing => (leaves standing, [])
  | group segment inside others =>
    let (innermost, rising) := inside.sift
    let body := innermost.promote rising
    let (remaining, promoted) := others.sift
    match body.onlyLeaf? with
    | some leaf => (remaining, leaf :: promoted)
    | none => (group segment body remaining, promoted)

/-- Dissolve the groups with a single leaf on a level and on all levels inside it. -/
def ungroupSingle (draft : Draft count) : Draft count := draft.sift.1.promote draft.sift.2

/-- The draft of leaves that are entered in the order of the input. -/
def collect (nested : Bool) (specs : List LeafSpec) : Draft specs.length :=
  (List.finRange specs.length).foldl
    (fun draft leaf => enter leaf (cutPath nested (specs.get leaf).path) draft) empty

end Draft

/-- The draft of a hierarchy. -/
def draftOf (nested ungroupSingle : Bool) (specs : List LeafSpec) : Draft specs.length :=
  if ungroupSingle then (Draft.collect nested specs).ungroupSingle else Draft.collect nested specs

end DependencyDiagram

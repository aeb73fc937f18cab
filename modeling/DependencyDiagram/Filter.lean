import DependencyDiagram.Tree.Walk
import DependencyDiagram.Ordered.Collection
import DependencyDiagram.Json.Writer
import DependencyDiagram.Json.Fields

/-!
# Filters

A filter says which leaves are shown, which groups are expanded, and whether edges may end
on an expanded group. It speaks of identifiers only, so it may name nodes that a tree does
not have. The order of its two sets is kept, because it is written out in that order.
-/

namespace DependencyDiagram

/-- The part of a diagram's state that the user controls. Leaves that are not among the
shown ones are hidden, and groups that are not among the expanded ones are collapsed, so
whatever is new in a tree is hidden or collapsed at first. -/
structure Filter where
  leafVisible : Collection NodeId
  groupExpanded : Collection NodeId
  /-- Edges may end on an expanded group. -/
  parentEdges : Bool
deriving DecidableEq

namespace Filter

/-- Nothing shown, nothing expanded. -/
def blank : Filter := ⟨Collection.empty, Collection.empty, false⟩

/-- Every leaf shown, every group collapsed. -/
def allVisible (tree : Tree) : Filter where
  leafVisible := Collection.ofList
    (tree.nodes.filterMap (fun node => if node.isLeaf then some node.id else none))
  groupExpanded := Collection.empty
  parentEdges := false

/-- A leaf is shown. -/
def showsLeaf (filter : Filter) (id : NodeId) : Bool := filter.leafVisible.contains id

/-- A group is expanded. -/
def expandsGroup (filter : Filter) (id : NodeId) : Bool := filter.groupExpanded.contains id

/-- Show or hide a leaf. -/
def setLeafVisible (filter : Filter) (id : NodeId) (visible : Bool) : Filter :=
  { filter with
    leafVisible := if visible then filter.leafVisible.add id else filter.leafVisible.remove id }

/-- Expand or collapse a group. -/
def setGroupExpanded (filter : Filter) (id : NodeId) (expanded : Bool) : Filter :=
  { filter with
    groupExpanded := if expanded then filter.groupExpanded.add id else filter.groupExpanded.remove id }

/-- Show or hide several leaves one after the other. -/
def setLeavesVisible (filter : Filter) (ids : List NodeId) (visible : Bool) : Filter :=
  ids.foldl (fun filter id => filter.setLeafVisible id visible) filter

/-- Expand or collapse several groups one after the other. -/
def setGroupsExpanded (filter : Filter) (ids : List NodeId) (expanded : Bool) : Filter :=
  ids.foldl (fun filter id => filter.setGroupExpanded id expanded) filter

/-- Show a hidden leaf or hide a shown one. -/
def toggleLeaf (filter : Filter) (id : NodeId) : Filter :=
  filter.setLeafVisible id (!filter.showsLeaf id)

end Filter

/-- A set of identifiers as it is stored: a list of their written forms. The list is read
member by member, and one text that is no identifier makes the whole list unreadable. -/
structure NodeIdList where
  nodeIds : List String
deriving DecidableEq, Repr

namespace NodeIdList

/-- The stored form of a set, in the set's order. -/
def ofCollection (ids : Collection NodeId) : NodeIdList := ⟨ids.members.map NodeId.encode⟩

/-- The set of a stored list; a text that is no identifier is reported. -/
def toCollection (list : NodeIdList) : Except Failure (Collection NodeId) := do
  let ids ← list.nodeIds.mapM (fun text =>
    (NodeId.decode text).mapError (fun failure => failure.during "filter::load"))
  return Collection.ofList ids

/-- The list as a JSON value. -/
def toJson (list : NodeIdList) : Json :=
  Json.ofMembers [("nodeIds", .array (list.nodeIds.map Json.ofText))]

/-- The list that a JSON value holds. -/
def ofJson? (value : Json) : Option NodeIdList := do
  let fields ← value.fields? ["nodeIds"]
  return ⟨← fields.required "nodeIds" (Json.list? Json.text?)⟩

end NodeIdList

end DependencyDiagram

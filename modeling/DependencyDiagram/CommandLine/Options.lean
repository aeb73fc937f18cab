import DependencyDiagram.ViewOptions
import DependencyDiagram.Filter

/-!
# Options of a run

A run takes the options of a view apart: how it is grouped and drawn, which changes are made
to the filter that shows everything, and which files are read and written. The changes of
the filter are given as written identifiers; groups are expanded before leaves are hidden,
and the first text that is no identifier is reported.
-/

namespace DependencyDiagram

/-- How a diagram is grouped and drawn. These are the options of a view without its kind and
without the flag on edges that end on groups, which a run is asked for together with its
filter. -/
structure DisplayOptions where
  nested : Bool
  ungroupSingle : Bool
  shortLabels : Bool
  showLeafLabels : Bool
  showGroupLabels : Bool
  verticalAlign : Bool
  maxNodes : Nat
  maxEdges : Nat
deriving DecidableEq, Repr

namespace DisplayOptions

/-- The part of a view's options that says how it is grouped and drawn. -/
def ofViewOptions (options : ViewOptions) : DisplayOptions where
  nested := options.nested
  ungroupSingle := options.ungroupSingle
  shortLabels := options.shortLabels
  showLeafLabels := options.edgeLabels.leafs
  showGroupLabels := options.edgeLabels.groups
  verticalAlign := options.verticalAlign
  maxNodes := options.maxNodes
  maxEdges := options.maxEdges

/-- The options of a view that is drawn in this way. -/
def toViewOptions (display : DisplayOptions) (kind : ViewKind) (hasParentEdges : Bool) :
    ViewOptions where
  viewType := kind
  nested := display.nested
  ungroupSingle := display.ungroupSingle
  shortLabels := display.shortLabels
  edgeLabels := ⟨display.showLeafLabels, display.showGroupLabels⟩
  verticalAlign := display.verticalAlign
  maxNodes := display.maxNodes
  maxEdges := display.maxEdges
  hasParentEdges := hasParentEdges

/-- The defaults. -/
def standard : DisplayOptions := ofViewOptions (ViewOptions.standard .references)

end DisplayOptions

/-- Changes to the filter that shows everything. The identifiers are kept as they were
given, and they are read only when the changes are made, so an unreadable one is a failure
of the run and not of its arguments. -/
structure FilterOptions where
  expand : List String
  hide : List String
  parentEdges : Bool
deriving DecidableEq, Repr

namespace FilterOptions

/-- No change at all. -/
def none : FilterOptions := ⟨[], [], false⟩

/-- Expand one group. -/
def expandGroup (filter : Filter) (text : String) : Except Failure Filter := do
  return filter.setGroupExpanded (← NodeId.decode text) true

/-- Hide one leaf. -/
def hideLeaf (filter : Filter) (text : String) : Except Failure Filter := do
  return filter.setLeafVisible (← NodeId.decode text) false

/-- Make the changes. -/
def apply (changes : FilterOptions) (filter : Filter) : Except Failure Filter := do
  let expanded ← changes.expand.foldlM expandGroup filter
  let hidden ← changes.hide.foldlM hideLeaf expanded
  return { hidden with parentEdges := changes.parentEdges }

end FilterOptions

/-- Everything that a run is asked for, apart from where its text goes. Nothing else decides
about a run but the texts that it reads. -/
structure RunOptions where
  input : String
  custom : Option String
  view : ViewKind
  display : DisplayOptions
  filter : FilterOptions
  sideTable : Option String
deriving DecidableEq, Repr

end DependencyDiagram

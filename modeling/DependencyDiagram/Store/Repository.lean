import DependencyDiagram.Store.Basic
import DependencyDiagram.Filter
import DependencyDiagram.ViewOptions

/-!
# Filters and options in a store

Options are stored per view. Filters are stored per view and grouping, their two sets in
tables of their own; whether edges may end on expanded groups is not stored with a filter
but taken from the options it is loaded for. A filter counts as stored when its set of
shown leaves is, and an absent set of expanded groups is then empty.
-/

namespace DependencyDiagram.Repository

/-- The failure for a stored text that does not hold what its table is for. -/
def unreadableEntry (table key : String) : Failure :=
  (((Failure.ofKind .deserializationFailed ("cannot read " ++ table ++ " entry")).during
    "filters::load").noting "key" key).withSource

/-- Read the text under a key of a table, if there is one. -/
def loadEntry {α : Type} (store : Store) (table key : String) (read : Json → Option α) :
    Except Failure (Option α) :=
  match store.get? table key with
  | none => .ok none
  | some text =>
    match (Json.read? text).bind read with
    | some value => .ok (some value)
    | none => .error (unreadableEntry table key)

/-- The key of filters for the given options. -/
def filterKey (options : ViewOptions) : String := options.viewType.word ++ "/" ++ options.clusterBy

/-- Read a stored set of identifiers, if there is one. -/
def loadSet (store : Store) (table key : String) : Except Failure (Option (Collection NodeId)) := do
  match ← loadEntry store table key NodeIdList.ofJson? with
  | none => return none
  | some list => return some (← list.toCollection)

/-- The filter stored for the given options. Both sets are read even if the first is absent.
A set that cannot be read is a failure also where the other one is absent. -/
def loadFilter (store : Store) (options : ViewOptions) : Except Failure (Option Filter) := do
  let leafVisible ← loadSet store leafVisibleTable (filterKey options)
  let groupExpanded ← loadSet store groupExpandedTable (filterKey options)
  return leafVisible.map (fun shown =>
    ⟨shown, groupExpanded.getD Collection.empty, options.hasParentEdges⟩)

/-- The stored text of a set of identifiers. -/
def setText (ids : Collection NodeId) : String := (NodeIdList.ofCollection ids).toJson.compact

/-- Store a filter for the given options. -/
def saveFilter (store : Store) (options : ViewOptions) (filter : Filter) : Store :=
  (store.put leafVisibleTable (filterKey options) (setText filter.leafVisible)).put
    groupExpandedTable (filterKey options) (setText filter.groupExpanded)

/-- The options stored for a view, or the view's defaults. -/
def loadOptions (store : Store) (kind : ViewKind) : Except Failure ViewOptions := do
  return (← loadEntry store viewOptionsTable kind.word ViewOptions.ofJson?).getD
    (ViewOptions.standard kind)

/-- Store the options of the view they are for. -/
def saveOptions (store : Store) (options : ViewOptions) : Store :=
  store.put viewOptionsTable options.viewType.word options.toJson.compact

end DependencyDiagram.Repository

import DependencyDiagram.Proofs.Ordered.Contents
import DependencyDiagram.Proofs.Store.Options

/-!
# Stored filters are read back

A set of identifiers is read back from its stored form with its members in their order. So a filter
that is stored under a key keeps its two sets until another filter is stored under this key. Whether
edges may end on expanded groups is not stored: it is taken from the options for which the filter is
loaded.
-/

namespace DependencyDiagram

namespace NodeIdList

/-- Lists of identifiers are read back from their stored form. -/
theorem faithful : Json.Faithful toJson ofJson? where
  wellSpelled list := by
    refine Json.wellSpelled_ofMembers ?_
    simp [Json.faithful_text.list.wellSpelled list.nodeIds]
  readBack list := by
    rw [ofJson?, toJson, Json.fields?_ofMembers (by simp) (by simp)]
    simp [Json.Fields.required, Json.Fields.find?, Json.faithful_text.list.readBack]

/-- A set is read back from the list of its members. -/
theorem toCollection_ofCollection (ids : Collection NodeId) :
    (ofCollection ids).toCollection = .ok ids := by
  have each : (ids.members.map NodeId.encode).mapM (fun text =>
      (NodeId.decode text).mapError (fun failure => failure.during "filter::load")) =
        .ok ids.members := by
    refine Outcome.mapM_eq_ok_iff.mpr (List.forall₂_map_left_iff.mpr (List.forall₂_same.mpr ?_))
    intro id _
    rw [NodeId.decode_encode]
    rfl
  rw [toCollection, ofCollection, each]
  exact congrArg Except.ok ids.ofList_members

end NodeIdList

namespace Repository

/-- A store holds the two sets of a filter under a key. What the stored filter said about edges on
expanded groups is no part of this, for it is not in the store. -/
structure Holds (store : Store) (key : String) (filter : Filter) : Prop where
  leaves : store.get? leafVisibleTable key = some (setText filter.leafVisible)
  groups : store.get? groupExpandedTable key = some (setText filter.groupExpanded)

/-- A set is loaded from the place where its text is. -/
theorem loadSet_of_setText {store : Store} {table key : String} {ids : Collection NodeId}
    (held : store.get? table key = some (setText ids)) :
    loadSet store table key = .ok (some ids) := by
  have read : (Json.read? (setText ids)).bind NodeIdList.ofJson? =
      some (NodeIdList.ofCollection ids) := by
    rw [setText, Json.read?_compact (NodeIdList.faithful.wellSpelled _), Option.bind_some,
      NodeIdList.faithful.readBack]
  have entry : loadEntry store table key NodeIdList.ofJson? =
      .ok (some (NodeIdList.ofCollection ids)) := by
    rw [loadEntry, held]
    simp only [read]
  rw [loadSet, entry]
  change (NodeIdList.ofCollection ids).toCollection.map some = _
  rw [NodeIdList.toCollection_ofCollection]
  rfl

namespace Holds

variable {store : Store} {key : String} {filter : Filter}

/-- The filter for options with the key is the one that is held, with edges ending on expanded
groups as the options have it. -/
theorem loadFilter (held : Holds store key filter) {options : ViewOptions}
    (sameKey : filterKey options = key) :
    loadFilter store options = .ok (some { filter with parentEdges := options.hasParentEdges }) := by
  rw [Repository.loadFilter, sameKey, loadSet_of_setText held.leaves, loadSet_of_setText held.groups]
  rfl

/-- Saving options leaves filters alone. -/
theorem saveOptions (held : Holds store key filter) (options : ViewOptions) :
    Holds (saveOptions store options) key filter := by
  constructor
  · rw [Repository.saveOptions, Store.get?_put, if_neg (by simp [viewOptionsTable, leafVisibleTable])]
    exact held.leaves
  · rw [Repository.saveOptions, Store.get?_put, if_neg (by simp [viewOptionsTable, groupExpandedTable])]
    exact held.groups

/-- Saving a filter leaves the filters under other keys alone. -/
theorem saveFilter (held : Holds store key filter) {options : ViewOptions}
    (otherKey : filterKey options ≠ key) (other : Filter) :
    Holds (saveFilter store options other) key filter := by
  constructor
  · rw [Repository.saveFilter, Store.get?_put, Store.get?_put, if_neg (by simp [otherKey]),
      if_neg (by simp [otherKey])]
    exact held.leaves
  · rw [Repository.saveFilter, Store.get?_put, Store.get?_put, if_neg (by simp [otherKey]),
      if_neg (by simp [otherKey])]
    exact held.groups

end Holds

/-- A filter that was just saved is held under the key of its options. -/
theorem holds_saveFilter (store : Store) (options : ViewOptions) (filter : Filter) :
    Holds (saveFilter store options filter) (filterKey options) filter := by
  constructor
  · rw [saveFilter, Store.get?_put, if_neg (by simp [groupExpandedTable, leafVisibleTable]),
      Store.get?_put, if_pos rfl]
  · rw [saveFilter, Store.get?_put, if_pos rfl]

end Repository

end DependencyDiagram

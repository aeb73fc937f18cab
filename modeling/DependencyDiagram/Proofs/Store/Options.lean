import DependencyDiagram.Store.Repository
import DependencyDiagram.Proofs.Json.Records

/-!
# Stored options are read back

Options are read back from their stored form as they were, unless a limit does not fit into a word. In a
store the options of a view are what was saved for this view last. Options saved for another view and
filters go to places of their own and leave them alone. A limit that does not fit can be saved and is
refused when it is read, so it is the reading that has a condition and not the saving.
-/

namespace DependencyDiagram

/-- A view is read back from its stored form. -/
theorem ViewKind.ofJson?_ofText (kind : ViewKind) : ofJson? (.ofText kind.word) = some kind := by
  have text : (Json.ofText kind.word).text? = some kind.word := Json.unspell?_spell kind.word
  have read : Vocabulary.read? kind.word = some kind := Vocabulary.read_word kind
  change (Json.ofText kind.word).text?.bind Vocabulary.read? = some kind
  rw [text, Option.bind_some, read]

/-- Options for labels are read back from their stored form. -/
theorem EdgeLabelOptions.faithful : Json.Faithful toJson ofJson? where
  wellSpelled options := by
    refine Json.wellSpelled_ofMembers ?_
    simp [Json.WellSpelled.bool]
  readBack options := by
    rw [ofJson?, toJson, Json.fields?_ofMembers (by simp) (by simp)]
    rfl

namespace ViewOptions

/-- The grouping in one word says whether groups are nested and whether small ones are dissolved. -/
theorem clusterBy_eq_iff {left right : ViewOptions} : left.clusterBy = right.clusterBy ↔
    left.nested = right.nested ∧ left.ungroupSingle = right.ungroupSingle := by
  have words : ∀ nested ungroup nested' ungroup' : Bool,
      (if nested then "nested" else "flat") ++ (if ungroup then "+ungroup" else "") =
        (if nested' then "nested" else "flat") ++ (if ungroup' then "+ungroup" else "") ↔
      nested = nested' ∧ ungroup = ungroup' := by decide
  exact words left.nested left.ungroupSingle right.nested right.ungroupSingle

/-- The limits of options fit into a word, as they must to be read. All other options are read back
whatever they are. -/
def FitsWords (options : ViewOptions) : Prop :=
  options.maxNodes ≤ Text.maxWord64 ∧ options.maxEdges ≤ Text.maxWord64

instance (options : ViewOptions) : Decidable options.FitsWords := by
  unfold FitsWords
  infer_instance

/-- The stored form of options is well spelled. -/
theorem wellSpelled_toJson (options : ViewOptions) : options.toJson.WellSpelled := by
  refine Json.wellSpelled_ofMembers ?_
  simp [Json.WellSpelled.bool, Json.wellSpelled_ofText, Json.wellSpelled_ofNat,
    EdgeLabelOptions.faithful.wellSpelled options.edgeLabels]

/-- Options are read back from their stored form if their limits fit into words. -/
theorem ofJson?_toJson (options : ViewOptions) :
    ofJson? options.toJson = if options.FitsWords then some options else none := by
  rw [ofJson?, toJson, Json.fields?_ofMembers (by simp [fieldNames]) (by simp)]
  simp only [Option.bind_eq_bind, Option.bind_some, Json.Fields.withDefault, Json.Fields.find?,
    List.find?_cons, String.reduceBEq, Option.map_some, ViewKind.ofJson?_ofText,
    EdgeLabelOptions.faithful.readBack, Json.bool?, Json.nat?_ofNat]
  by_cases fits : options.FitsWords
  · rw [if_pos fits, if_pos fits.1, if_pos fits.2]
    rfl
  · rw [if_neg fits]
    rcases Classical.not_and_iff_not_or_not.mp fits with nodes | edges
    · rw [if_neg nodes]
      rfl
    · rw [if_neg edges]
      split <;> rfl

end ViewOptions

namespace Repository

/-- In a store without any text every view has its defaults. -/
theorem loadOptions_empty (kind : ViewKind) :
    loadOptions Store.empty kind = .ok (ViewOptions.standard kind) := rfl

/-- Saved options are the options of the view they are for, if they can be read, and other views keep
theirs. Options are kept under the word of their view, and different views have different words. What is
written is well spelled, so it is read back unless one of its numbers does not fit a word. -/
theorem loadOptions_saveOptions (store : Store) (options : ViewOptions) (kind : ViewKind) :
    loadOptions (saveOptions store options) kind =
      if options.viewType = kind then
        if options.FitsWords then .ok options
        else .error (unreadableEntry viewOptionsTable kind.word)
      else loadOptions store kind := by
  have word : (viewOptionsTable, options.viewType.word) = (viewOptionsTable, kind.word) ↔
      options.viewType = kind := by
    rw [Prod.mk.injEq]
    exact ⟨fun same => Vocabulary.distinct _ _ same.2, fun same => ⟨rfl, by rw [same]⟩⟩
  have found : (saveOptions store options).get? viewOptionsTable kind.word =
      if options.viewType = kind then some options.toJson.compact
      else store.get? viewOptionsTable kind.word := by
    rw [saveOptions, Store.get?_put]
    simp only [word]
  by_cases same : options.viewType = kind
  · rw [if_pos same] at found ⊢
    have read : (Json.read? options.toJson.compact).bind ViewOptions.ofJson? =
        if options.FitsWords then some options else none := by
      rw [Json.read?_compact options.wellSpelled_toJson, Option.bind_some, ViewOptions.ofJson?_toJson]
    rw [loadOptions, loadEntry, found]
    simp only [read]
    by_cases fits : options.FitsWords
    · rw [if_pos fits, if_pos fits]
      rfl
    · rw [if_neg fits, if_neg fits]
      rfl
  · rw [if_neg same] at found ⊢
    rw [loadOptions, loadEntry, found]
    rfl

/-- Saving a filter leaves the options of all views alone. -/
theorem loadOptions_saveFilter (store : Store) (options : ViewOptions) (filter : Filter)
    (kind : ViewKind) : loadOptions (saveFilter store options filter) kind = loadOptions store kind := by
  have found : (saveFilter store options filter).get? viewOptionsTable kind.word =
      store.get? viewOptionsTable kind.word := by
    rw [saveFilter, Store.get?_put, Store.get?_put, if_neg, if_neg]
    · simp [leafVisibleTable, viewOptionsTable]
    · simp [groupExpandedTable, viewOptionsTable]
  rw [loadOptions, loadEntry, found]
  rfl

/-- The options of every view are for this view. It holds of the empty store, where options are the
defaults, and saving keeps it, for options are saved under their own view. -/
def OwnOptions (store : Store) : Prop :=
  ∀ kind options, loadOptions store kind = .ok options → options.viewType = kind

/-- In a store without any text the options of every view are its own. -/
theorem ownOptions_empty : OwnOptions Store.empty := by
  intro kind options loaded
  rw [loadOptions_empty] at loaded
  obtain rfl := Except.ok.inj loaded
  rfl

/-- Whatever options are saved, the options of every view stay its own. -/
theorem OwnOptions.saveOptions {store : Store} (own : OwnOptions store) (saved : ViewOptions) :
    OwnOptions (saveOptions store saved) := by
  intro kind options loaded
  rw [loadOptions_saveOptions] at loaded
  split at loaded
  · rename_i same
    split at loaded
    · obtain rfl := Except.ok.inj loaded
      exact same
    · cases loaded
  · exact own kind options loaded

/-- Whatever filter is saved, the options of every view stay its own. -/
theorem OwnOptions.saveFilter {store : Store} (own : OwnOptions store) (present : ViewOptions)
    (filter : Filter) : OwnOptions (saveFilter store present filter) := by
  intro kind options loaded
  rw [loadOptions_saveFilter] at loaded
  exact own kind options loaded

end Repository

end DependencyDiagram

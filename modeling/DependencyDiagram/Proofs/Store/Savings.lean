import DependencyDiagram.Proofs.Store.Filters

/-!
# What was saved last is loaded

Filters and options of all views are saved in one store, in whatever order. A filter counts for the
options that have the view and the grouping for which it was saved; options count for their view. What is
loaded is what was saved last among the savings that count, and none of the others can be seen. Where
none counts there is no filter, and the view has its defaults.

The proof is by induction on the savings from the last to the first. The last one either counts, and then
it is what is loaded, or it does not, and then the store answers as it did before it.
-/

namespace DependencyDiagram

/-- The options are for one view and put its leaves into groups in the same way. These three are what the
key of a filter is made of. Limits and labels may differ. -/
def ViewOptions.SameGrouping (left right : ViewOptions) : Prop :=
  left.viewType = right.viewType ∧ left.nested = right.nested ∧
    left.ungroupSingle = right.ungroupSingle

instance (left right : ViewOptions) : Decidable (left.SameGrouping right) :=
  inferInstanceAs (Decidable (_ ∧ _ ∧ _))

namespace Repository

/-- Filters have one key exactly if they are for one view and grouping. No word for a view holds the
slash, so the key can be cut into its two words. -/
theorem filterKey_eq_iff {left right : ViewOptions} :
    filterKey left = filterKey right ↔ left.SameGrouping right := by
  constructor
  · intro same
    have slashless (kind : ViewKind) : '/' ∉ kind.word.toList := by
      cases kind <;> decide
    have cut (options : ViewOptions) : Text.cutFirst? '/' (filterKey options) =
        some (options.viewType.word, options.clusterBy) :=
      Text.cutFirst?_eq_some_iff.mpr ⟨slashless options.viewType, rfl⟩
    have words := (cut left).symm.trans (same ▸ cut right)
    obtain ⟨view, grouping⟩ := Prod.mk.inj (Option.some.inj words)
    exact ⟨Vocabulary.distinct _ _ view, ViewOptions.clusterBy_eq_iff.mp grouping⟩
  · rintro ⟨view, grouping⟩
    rw [filterKey, filterKey, view, ViewOptions.clusterBy_eq_iff.mpr grouping]

/-- Something that is saved. A filter is saved under the view and grouping of its options, and options
under their view. -/
inductive Saving where
  | filter (options : ViewOptions) (filter : Filter)
  | options (options : ViewOptions)

namespace Saving

/-- The store after something was saved. -/
def after (store : Store) : Saving → Store
  | filter chosen saved => saveFilter store chosen saved
  | options saved => saveOptions store saved

/-- The filter that is saved, if it counts for the given options. -/
def filterFor? (present : ViewOptions) : Saving → Option Filter
  | filter chosen saved => if chosen.SameGrouping present then some saved else none
  | options _ => none

/-- The options that are saved, if they count for the given view. -/
def optionsFor? (kind : ViewKind) : Saving → Option ViewOptions
  | filter _ _ => none
  | options saved => if saved.viewType = kind then some saved else none

end Saving

/-- The store after one saving upon the other. The two kinds of savings are mixed here as they come. -/
def afterSavings (store : Store) (savings : List Saving) : Store := savings.foldl Saving.after store

/-- The filter that was saved last among those that count for the given options. Savings that do not
count are left out before the last one is taken, wherever they stand. -/
def lastFilter? (savings : List Saving) (present : ViewOptions) : Option Filter :=
  (savings.filterMap (Saving.filterFor? present)).getLast?

/-- The options that were saved last among those that count for the given view. -/
def lastOptions? (savings : List Saving) (kind : ViewKind) : Option ViewOptions :=
  (savings.filterMap (Saving.optionsFor? kind)).getLast?

section Runs

variable {store : Store} {savings : List Saving} {present : ViewOptions} {kind : ViewKind}

/-- One more saving. -/
theorem afterSavings_append_singleton (saving : Saving) :
    afterSavings store (savings ++ [saving]) = saving.after (afterSavings store savings) := by
  rw [afterSavings, List.foldl_append]
  rfl

/-- A saving that counts is the last one from then on. -/
theorem lastFilter?_append_singleton (saving : Saving) :
    lastFilter? (savings ++ [saving]) present =
      (saving.filterFor? present).or (lastFilter? savings present) := by
  cases counts : saving.filterFor? present <;> simp [lastFilter?, counts]

/-- A saving that counts is the last one from then on. -/
theorem lastOptions?_append_singleton (saving : Saving) :
    lastOptions? (savings ++ [saving]) kind =
      (saving.optionsFor? kind).or (lastOptions? savings kind) := by
  cases counts : saving.optionsFor? kind <;> simp [lastOptions?, counts]

/-- In a store without any text there is no filter for any options. -/
theorem loadFilter_empty (present : ViewOptions) : loadFilter Store.empty present = .ok none := rfl

/-- Saving options leaves the filters of all views alone. -/
theorem loadFilter_saveOptions (store : Store) (options present : ViewOptions) :
    loadFilter (saveOptions store options) present = loadFilter store present := by
  have leaves : (saveOptions store options).get? leafVisibleTable (filterKey present) =
      store.get? leafVisibleTable (filterKey present) := by
    rw [saveOptions, Store.get?_put, if_neg (by simp [viewOptionsTable, leafVisibleTable])]
  have groups : (saveOptions store options).get? groupExpandedTable (filterKey present) =
      store.get? groupExpandedTable (filterKey present) := by
    rw [saveOptions, Store.get?_put, if_neg (by simp [viewOptionsTable, groupExpandedTable])]
  simp only [loadFilter, loadSet, loadEntry, leaves, groups]

/-- A saved filter is the filter for options of its view and grouping, with edges ending on expanded
groups as these options have it, and all other options keep theirs. -/
theorem loadFilter_saveFilter (store : Store) (options present : ViewOptions) (filter : Filter) :
    loadFilter (saveFilter store options filter) present =
      if options.SameGrouping present then
        .ok (some { filter with parentEdges := present.hasParentEdges })
      else loadFilter store present := by
  by_cases same : options.SameGrouping present
  · rw [if_pos same]
    exact (holds_saveFilter store options filter).loadFilter (filterKey_eq_iff.mpr same).symm
  · have otherKey : filterKey options ≠ filterKey present := mt filterKey_eq_iff.mp same
    have kept (table : String) : (saveFilter store options filter).get? table (filterKey present) =
        store.get? table (filterKey present) := by
      rw [saveFilter, Store.get?_put, Store.get?_put, if_neg (by simp [otherKey]),
        if_neg (by simp [otherKey])]
    rw [if_neg same]
    simp only [loadFilter, loadSet, loadEntry, kept]

/-- The filter that is loaded after all savings is the last one that counts. -/
theorem loadFilter_afterSavings (savings : List Saving) (present : ViewOptions) :
    loadFilter (afterSavings Store.empty savings) present =
      .ok ((lastFilter? savings present).map
        (fun filter => { filter with parentEdges := present.hasParentEdges })) := by
  induction savings using List.reverseRecOn with
  | nil => exact loadFilter_empty present
  | append_singleton savings saving inductionHypothesis =>
    rw [afterSavings_append_singleton, lastFilter?_append_singleton]
    cases saving with
    | filter options saved =>
      rw [Saving.after, loadFilter_saveFilter, Saving.filterFor?]
      split
      · rfl
      · exact inductionHypothesis
    | options saved =>
      rw [Saving.after, loadFilter_saveOptions]
      exact inductionHypothesis

/-- The options that are loaded after all savings are the last ones that count, and the defaults where
none count. -/
theorem loadOptions_afterSavings (savings : List Saving)
    (fits : ∀ options, .options options ∈ savings → options.FitsWords) (kind : ViewKind) :
    loadOptions (afterSavings Store.empty savings) kind =
      .ok ((lastOptions? savings kind).getD (.standard kind)) := by
  induction savings using List.reverseRecOn with
  | nil => exact loadOptions_empty kind
  | append_singleton savings saving inductionHypothesis =>
    have before := inductionHypothesis (fun options listed =>
      fits options (List.mem_append_left [saving] listed))
    rw [afterSavings_append_singleton, lastOptions?_append_singleton]
    cases saving with
    | filter options saved =>
      rw [Saving.after, loadOptions_saveFilter]
      exact before
    | options saved =>
      have readable : saved.FitsWords := fits saved (by simp)
      rw [Saving.after, loadOptions_saveOptions, Saving.optionsFor?, if_pos readable]
      split
      · rfl
      · exact before

end Runs

/-- After any savings into an empty store the filter that is loaded for options is the one that was saved
last for their view and grouping, its two sets in their order, with edges ending on expanded groups as
the options have it; there is none if no such filter was saved. The options that are loaded for a view
are those that were saved last for it, and the view's defaults if none were. Keys are texts that are put
together from words for the view and the grouping. That no filter is taken for another therefore rests on
these texts being different, and this is shown for all of them. -/
theorem last_saving_loaded (savings : List Saving)
    (fits : ∀ options, .options options ∈ savings → options.FitsWords) :
    (∀ present, loadFilter (afterSavings Store.empty savings) present =
      .ok ((lastFilter? savings present).map
        (fun filter => { filter with parentEdges := present.hasParentEdges }))) ∧
    ∀ kind, loadOptions (afterSavings Store.empty savings) kind =
      .ok ((lastOptions? savings kind).getD (.standard kind)) :=
  ⟨loadFilter_afterSavings savings, loadOptions_afterSavings savings fits⟩

namespace Sample

/-- A browser alone is shown. -/
def browser : Filter where
  leafVisible := Collection.ofList [.named .assembly ⟨"Browser", by decide, by decide⟩]
  groupExpanded := Collection.empty
  parentEdges := false

/-- A server with quotes in its name and the browser are shown, and one namespace is expanded. -/
def quoted : Filter where
  leafVisible := Collection.ofList [.named .assembly ⟨"\"Server\"", by decide, by decide⟩,
    .named .assembly ⟨"Browser", by decide, by decide⟩]
  groupExpanded := Collection.ofList [.named .nameSpace ⟨"Tools", by decide, by decide⟩]
  parentEdges := false

/-- Calls of methods in flat groups. -/
def flat : ViewOptions := { ViewOptions.standard .methods with nested := false }

/-- Calls of methods with the largest limit, and with edges ending on expanded groups. -/
def unlimited : ViewOptions :=
  { ViewOptions.standard .methods with maxNodes := Text.maxWord64, hasParentEdges := true }

/-- The browser's filter is saved for the methods view, replaced, and saved for flat groups, with options
in between. -/
def savings : List Saving :=
  [.filter (.standard .methods) browser, .options flat, .filter unlimited quoted, .options unlimited,
    .filter flat browser, .options (.standard .apis)]

end Sample

/-- In the sample the second filter and the largest limit are loaded for the methods view, and nothing
was saved for the custom view. -/
theorem replaced_sample_loaded :
    (∀ options, .options options ∈ Sample.savings → options.FitsWords) ∧
      loadFilter (afterSavings Store.empty Sample.savings) Sample.unlimited =
        .ok (some { Sample.quoted with parentEdges := true }) ∧
      loadFilter (afterSavings Store.empty Sample.savings) (.standard .custom) = .ok none ∧
      loadOptions (afterSavings Store.empty Sample.savings) .methods = .ok Sample.unlimited ∧
      loadOptions (afterSavings Store.empty Sample.savings) .custom = .ok (.standard .custom) := by
  have fits : ∀ options, .options options ∈ Sample.savings → options.FitsWords := by
    intro options listed
    have one : options = Sample.flat ∨ options = Sample.unlimited ∨ options = .standard .apis := by
      simpa [Sample.savings] using listed
    rcases one with rfl | rfl | rfl <;> decide
  obtain ⟨filters, options⟩ := last_saving_loaded Sample.savings fits
  exact ⟨fits, filters Sample.unlimited, filters (.standard .custom), options .methods,
    options .custom⟩

end Repository

end DependencyDiagram

import DependencyDiagram.Proofs.Session.Runs
import DependencyDiagram.Proofs.Store.Options

/-!
# Prepared sources cannot be told from fresh ones

A session keeps the sources it has prepared under the view and the grouping word. The two say all about
the options that the preparation looks at, and what is kept was prepared from the present data, for
replacing the data drops everything. So every answer of a session is a function of the data, the store
and the styles it stands on: the answer that it would give if nothing were kept.

The options that are not in the key, such as limits and labels, are looked at only after the preparation,
so two sets of options that agree on the key may share a source. That a shared source is never one of
other data is an invariant of the session and not checked when the source is taken.
-/

namespace DependencyDiagram

/-- Options with the same grouping word group in the same way. -/
theorem ViewOptions.hierarchy_of_clusterBy {left right : ViewOptions}
    (same : left.clusterBy = right.clusterBy) : left.hierarchy = right.hierarchy := by
  obtain ⟨nested, ungroup⟩ := clusterBy_eq_iff.mp same
  rw [hierarchy, hierarchy, nested, ungroup]

/-- What is prepared depends on the view and the grouping word only. -/
theorem prepare_congr {left right : ViewOptions} (data : ViewData)
    (same : (left.viewType, left.clusterBy) = (right.viewType, right.clusterBy)) :
    prepare data left = prepare data right := by
  obtain ⟨view, grouping⟩ := Prod.mk.inj same
  rw [prepare, prepare, view, ViewOptions.hierarchy_of_clusterBy grouping]

namespace Session

/-- A session stands on data, a store and styles: these are its own, and every source that it keeps is
what would be prepared from the data afresh. Tracker and shown views are left out, because no view that
is built depends on them. The invariant holds of a session that has just been started, and every call
keeps it. -/
structure StandsOn (data : ViewData) (store : Store) (styles : Styles) (session : Session) : Prop where
  sameData : session.data = data
  sameStore : session.store = store
  sameStyles : session.styles = styles
  fresh : ∀ (options : ViewOptions) (source : GraphSource),
    session.sources.get? (options.viewType, options.clusterBy) = some source →
      prepare data options = .ok source

/-- The filter for given options, with a source prepared afresh where one is needed. A stored filter is
taken as it is loaded. Only where none is stored a source is needed, whose tree says what there is to be
shown. -/
def freshFilter (data : ViewData) (store : Store) (options : ViewOptions) : Except Failure Filter :=
  match Repository.loadFilter store options with
  | .error failure => .error failure
  | .ok (some filter) => .ok filter
  | .ok none => (prepare data options).map (fun source =>
      { Filter.allVisible source.built.tree with parentEdges := options.hasParentEdges })

namespace StandsOn

variable {data : ViewData} {store : Store} {styles : Styles} {session : Session}

/-- A session begins with no source at all. -/
theorem start (data : ViewData) (store : Store) (renderer : Renderer) (styles : Styles) :
    StandsOn data store styles (Session.start data store renderer styles) :=
  ⟨rfl, rfl, rfl, fun _ _ found => nomatch found⟩

/-- A session stands on nothing of its renderer, its tracker and what it shows. -/
theorem elsewhere (stands : StandsOn data store styles session) (renderer : Renderer)
    (tracker : Tracker) (shown : ViewKind → Option ShownView) : StandsOn data store styles
      { session with renderer := renderer, tracker := tracker, shown := shown } :=
  ⟨stands.sameData, stands.sameStore, stands.sameStyles, stands.fresh⟩

/-- The source for given options is what is prepared afresh; a failure keeps nothing. -/
theorem source (stands : StandsOn data store styles session) (options : ViewOptions) :
    (session.source options).1 = prepare data options ∧
      StandsOn data store styles (session.source options).2 := by
  unfold Session.source
  cases kept : session.sources.get? (options.viewType, options.clusterBy) with
  | some source => exact ⟨(stands.fresh options source kept).symm, stands⟩
  | none =>
    rw [stands.sameData]
    cases prepared : prepare data options with
    | error failure => exact ⟨rfl, stands⟩
    | ok source =>
      refine ⟨rfl, rfl, stands.sameStore, stands.sameStyles, ?_⟩
      -- the new entry also answers for other options with its key
      intro other found present
      rw [Table.get?_put] at present
      split at present
      · rename_i same
        obtain rfl := Option.some.inj present
        rwa [← prepare_congr data same]
      · exact stands.fresh other found present

/-- The filter for given options is the fresh one. -/
theorem filterFor (stands : StandsOn data store styles session) (options : ViewOptions) :
    (session.filterFor options).1 = freshFilter data store options ∧
      StandsOn data store styles (session.filterFor options).2 := by
  unfold Session.filterFor freshFilter
  rw [stands.sameStore]
  rcases Repository.loadFilter store options with failure | (_ | filter)
  · exact ⟨rfl, stands⟩
  · obtain ⟨prepared, after⟩ := stands.source options
    rw [← prepared]
    rcases outcome : session.source options with ⟨failure | source, last⟩
    · rw [outcome] at after
      exact ⟨rfl, after⟩
    · rw [outcome] at after
      exact ⟨rfl, after⟩
  · exact ⟨rfl, stands⟩

/-- A view is described from the fresh filter and a fresh source. -/
theorem describe (stands : StandsOn data store styles session) (options : ViewOptions) :
    (session.describe options).1 = (do
      let filter ← freshFilter data store options
      assemble styles (← prepare data options) filter options) ∧
      StandsOn data store styles (session.describe options).2 := by
  obtain ⟨fresh, filtered⟩ := stands.filterFor options
  unfold Session.describe
  rw [← fresh]
  rcases found : session.filterFor options with ⟨failure | filter, middle⟩
  · rw [found] at filtered
    exact ⟨rfl, filtered⟩
  · rw [found] at filtered
    obtain ⟨prepared, after⟩ := filtered.source options
    rw [← prepared]
    dsimp only
    rcases outcome : middle.source options with ⟨failure | source, last⟩
    · rw [outcome] at after
      exact ⟨rfl, after⟩
    · rw [outcome] at after
      exact ⟨by rw [stands.sameStyles]; rfl, after⟩

/-- A render is begun with the view that the fresh filter and a fresh source give. -/
theorem beginRender (stands : StandsOn data store styles session) (kind : ViewKind) :
    (session.beginRender kind).1.map PendingRender.view = (do
      let options ← Repository.loadOptions store kind
      let filter ← freshFilter data store options
      assemble styles (← prepare data options) filter options) ∧
      StandsOn data store styles (session.beginRender kind).2 := by
  unfold Session.beginRender Session.options
  rw [stands.sameStore]
  rcases Repository.loadOptions store kind with failure | options
  · exact ⟨rfl, stands⟩
  · obtain ⟨described, after⟩ := stands.describe options
    change _ = (freshFilter data store options >>= _) ∧ _
    rw [← described]
    dsimp only
    rcases outcome : session.describe options with ⟨failure | view, last⟩
    · rw [outcome] at after
      exact ⟨rfl, after⟩
    · rw [outcome] at after
      exact ⟨rfl, after.elsewhere _ _ _⟩

/-- Completing a render changes nothing that the session stands on. -/
theorem completeRender (stands : StandsOn data store styles session) (pending : PendingRender)
    (output : RenderOutput) : StandsOn data store styles (session.completeRender pending output).2 := by
  unfold Session.completeRender
  split
  · exact stands
  · dsimp only
    split <;> exact stands.elsewhere _ _ _

/-- Showing a view changes nothing that the session stands on. -/
theorem showView (stands : StandsOn data store styles session) (kind : ViewKind) :
    StandsOn data store styles (session.showView kind).2 := by
  have began := (stands.beginRender kind).2
  rcases showView_cases session kind with ⟨failure, after, here, shown⟩ |
    ⟨pending, begun, here, outcome⟩
  · rw [here] at began
    rwa [shown]
  · rw [here] at began
    rcases outcome with ⟨failure, _, shown⟩ | ⟨output, _, ⟨failure, after, done, shown⟩ |
      ⟨view, after, done, shown⟩⟩
    · rw [shown]
      exact began.elsewhere _ _ _
    · have completed := began.completeRender pending (output.getD ⟨"", ""⟩)
      rw [done] at completed
      rwa [shown]
    · have completed := began.completeRender pending (output.getD ⟨"", ""⟩)
      rw [done] at completed
      rwa [shown]

end StandsOn

/-- The data that a session has after a call. -/
def Call.dataAfter (data : ViewData) : Call → ViewData
  | .reload reloaded => reloaded
  | _ => data

/-- The store that a session has after a call. The grouping that a filter is saved under is that of the
options in the store at this time. A filter is not saved if these cannot be read. -/
def Call.storeAfter (store : Store) : Call → Store
  | .setOptions options => Repository.saveOptions store options
  | .updateFilter kind updated =>
    match Repository.loadOptions store kind with
    | .error _ => store
    | .ok options => Repository.saveFilter store options updated
  | _ => store

/-- A call keeps the options of every view its own. -/
theorem Call.ownOptions_storeAfter {store : Store} (own : Repository.OwnOptions store) (call : Call) :
    Repository.OwnOptions (call.storeAfter store) := by
  cases call with
  | setOptions options => exact own.saveOptions options
  | updateFilter kind filter =>
    unfold storeAfter
    dsimp only
    split
    · exact own
    · exact own.saveFilter _ filter
  | _ => exact own

/-- After a call a session stands on what the call makes of data and store. Data and store change only
where the call says so. A reload empties the cache of sources, and every other call keeps in it what was
built from the present data. -/
theorem StandsOn.perform {data : ViewData} {store : Store} {styles : Styles} {session : Session}
    (stands : StandsOn data store styles session) (call : Call) :
    StandsOn (call.dataAfter data) (call.storeAfter store) styles (session.perform call).2 := by
  cases call with
  | reload reloaded => exact ⟨rfl, stands.sameStore, stands.sameStyles, fun _ _ found => nomatch found⟩
  | setOptions options =>
    refine ⟨stands.sameData, ?_, stands.sameStyles, stands.fresh⟩
    exact congrArg (Repository.saveOptions · options) stands.sameStore
  | filter kind =>
    change StandsOn data store styles (session.filter kind).2
    unfold Session.filter
    split
    · exact stands
    · exact (stands.filterFor _).2
  | updateFilter kind filter =>
    change StandsOn data _ styles (session.updateFilter kind filter).2
    unfold Session.updateFilter Session.options Call.storeAfter
    rw [stands.sameStore]
    dsimp only
    cases Repository.loadOptions store kind with
    | error failure => exact stands
    | ok options => exact ⟨stands.sameData, rfl, stands.sameStyles, stands.fresh⟩
  | beginRender kind => exact (stands.beginRender kind).2
  | completeRender pending output => exact stands.completeRender pending output
  | showView kind => exact stands.showView kind
  | cancel kind => exact stands.elsewhere _ _ _
  | replaceRenderer renderer => exact stands.elsewhere _ _ _

/-- The session after calls, each made on the session that the one before left behind. Here a render may
also be completed that was never begun. This is more than a caller can do in practice. What is said of it
holds of all runs. -/
def afterCalls (session : Session) (calls : List Call) : Session :=
  calls.foldl (fun session call => (session.perform call).2) session

/-- The data of the latest reload, or the initial data. -/
def latestData (data : ViewData) (calls : List Call) : ViewData :=
  calls.foldl (fun data call => call.dataAfter data) data

/-- The store after calls, of which those that save options or a filter change it. It is computed from
the calls alone, without looking at any session, so nothing that a session keeps can have had a part in
it. -/
def latestStore (store : Store) (calls : List Call) : Store :=
  calls.foldl (fun store call => call.storeAfter store) store

/-- Whatever calls are made, the options of every view stay its own. -/
theorem ownOptions_latestStore {store : Store} (own : Repository.OwnOptions store)
    (calls : List Call) : Repository.OwnOptions (latestStore store calls) := by
  induction calls generalizing store with
  | nil => exact own
  | cons call rest inductionHypothesis => exact inductionHypothesis (call.ownOptions_storeAfter own)

/-- After calls a session stands on the latest data and the latest store. -/
theorem StandsOn.afterCalls {data : ViewData} {store : Store} {styles : Styles} {session : Session}
    (stands : StandsOn data store styles session) (calls : List Call) :
    StandsOn (latestData data calls) (latestStore store calls) styles (session.afterCalls calls) := by
  induction calls generalizing data store session with
  | nil => exact stands
  | cons call rest inductionHypothesis => exact inductionHypothesis (stands.perform call)

/-- Whatever calls were made on a session with an empty store, a render is begun with the view that is
built from the latest data for the present options and filter, or fails as this does, and the options of
a view are for this view. The view is compared in whole: the diagram text, the side table, the filter and
the options that it was made from, or the message in place of a diagram. Asking for the filter before
beginning the render prepares a source and keeps it; it makes no difference whether this is done. -/
theorem render_as_built (data : ViewData) (renderer : Renderer) (styles : Styles) (calls : List Call)
    {session : Session}
    (reached : session = (start data Store.empty renderer styles).afterCalls calls) {kind : ViewKind}
    {options : ViewOptions} (loaded : session.options kind = .ok options) :
    options.viewType = kind ∧ ∀ filter filtered, session.filter kind = (.ok filter, filtered) →
      (filtered.beginRender kind).1.map PendingRender.view =
          buildView styles kind (latestData data calls) filter options ∧
        (session.beginRender kind).1.map PendingRender.view =
          buildView styles kind (latestData data calls) filter options := by
  have stands := (StandsOn.start data Store.empty renderer styles).afterCalls calls
  rw [← reached] at stands
  have stored : Repository.loadOptions (latestStore Store.empty calls) kind = .ok options :=
    stands.sameStore ▸ loaded
  have view : options.viewType = kind :=
    ownOptions_latestStore Repository.ownOptions_empty calls kind options stored
  refine ⟨view, fun filter filtered found => ?_⟩
  have sought : session.filter kind = session.filterFor options := by
    rw [Session.filter, loaded]
  obtain ⟨fresh, after⟩ := stands.filterFor options
  rw [← sought, found] at fresh after
  have built : (do
      let options ← Repository.loadOptions (latestStore Store.empty calls) kind
      let filter ← freshFilter (latestData data calls) (latestStore Store.empty calls) options
      assemble styles (← prepare (latestData data calls) options) filter options) =
        buildView styles kind (latestData data calls) filter options := by
    rw [stored, buildView, if_pos view]
    change (freshFilter _ _ options >>= _) = _
    rw [← fresh]
    rfl
  exact ⟨(after.beginRender kind).1.trans built, (stands.beginRender kind).1.trans built⟩

namespace Sample

/-- Data with executables and nothing else. -/
def executables (names : List String) : ViewData := ⟨{ Reflection.empty with executables := names }, []⟩

/-- Options of the references view without nested groups. -/
def flat : ViewOptions := { ViewOptions.standard .references with nested := false }

/-- The references view is shown, its grouping is changed, its filter is asked for, and the data is
replaced. -/
def regrouped : List Call :=
  [.showView .references, .setOptions flat, .filter .references,
    .reload (executables ["Client", "Server"])]

/-- A session on which these calls were made. -/
def regroupedSession : Session :=
  (start (executables ["Client"]) Store.empty (fun _ _ => .ok "") .plain).afterCalls regrouped

end Sample

/-- In the sample a render is begun with the view of the replaced data in the changed grouping. -/
theorem regrouped_sample_as_built :
    ∃ filter filtered, Sample.regroupedSession.options .references = .ok Sample.flat ∧
      Sample.regroupedSession.filter .references = (.ok filter, filtered) ∧
      (filtered.beginRender .references).1.map PendingRender.view =
        buildView .plain .references (Sample.executables ["Client", "Server"]) filter Sample.flat := by
  have stands : StandsOn (Sample.executables ["Client", "Server"])
      (Repository.saveOptions Store.empty Sample.flat) .plain Sample.regroupedSession :=
    (StandsOn.start _ Store.empty _ _).afterCalls Sample.regrouped
  have loaded : Sample.regroupedSession.options .references = .ok Sample.flat := by
    have own : Sample.flat.viewType = .references := rfl
    rw [options, stands.sameStore, Repository.loadOptions_saveOptions, if_pos own, if_pos (by decide)]
  have sought : Sample.regroupedSession.filter .references =
      Sample.regroupedSession.filterFor Sample.flat := by
    rw [Session.filter, loaded]
  have present : (freshFilter (Sample.executables ["Client", "Server"])
      (Repository.saveOptions Store.empty Sample.flat) Sample.flat).isOk = true := by decide +kernel
  rw [← (stands.filterFor Sample.flat).1, ← sought] at present
  rcases found : Sample.regroupedSession.filter .references with ⟨failure | filter, filtered⟩
  · rw [found] at present
    cases present
  · obtain ⟨_, same⟩ := render_as_built (Sample.executables ["Client"]) (fun _ _ => .ok "") .plain
      Sample.regrouped rfl loaded
    exact ⟨filter, filtered, loaded, rfl, (same filter filtered found).1⟩

end Session

end DependencyDiagram

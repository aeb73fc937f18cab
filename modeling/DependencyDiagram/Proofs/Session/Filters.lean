import DependencyDiagram.Proofs.Session.Cache
import DependencyDiagram.Proofs.Store.Filters

/-!
# A stored filter is the filter in use

A filter is stored for a view and its grouping. Until another filter is stored for the two, every
later answer of the session works with its sets, whatever options are stored and data loaded in
between. Whether edges may end on expanded groups is asked of the options that the view has when
the filter is used; what the stored filter said about it is forgotten.
-/

namespace DependencyDiagram

namespace Session

/-- The key under which a call stores a filter, if it stores one. The key is that of the options in the
store at the time of the call, not of those that are stored later. -/
def Call.filterKey? (store : Store) : Call → Option String
  | .updateFilter kind _ => (Repository.loadOptions store kind).toOption.map Repository.filterKey
  | _ => none

/-- None of the calls, made one after the other, stores a filter under the key. Options may be stored,
data replaced and other filters stored, among them filters of the same view for another grouping. -/
def LeaveFilter (key : String) : Store → List Call → Prop
  | _, [] => True
  | store, call :: rest =>
    call.filterKey? store ≠ some key ∧ LeaveFilter key (call.storeAfter store) rest

/-- A call that stores no filter under a key leaves the one that is held there. -/
theorem Call.holds_storeAfter {store : Store} {key : String} {filter : Filter}
    (held : Repository.Holds store key filter) {call : Call}
    (elsewhere : call.filterKey? store ≠ some key) :
    Repository.Holds (call.storeAfter store) key filter := by
  cases call with
  | setOptions options => exact held.saveOptions options
  | updateFilter kind other =>
    unfold storeAfter
    dsimp only
    cases loaded : Repository.loadOptions store kind with
    | error failure => exact held
    | ok options =>
      refine held.saveFilter ?_ other
      rintro rfl
      exact elsewhere (by rw [filterKey?, loaded]; rfl)
  | _ => exact held

/-- Calls that store no filter under a key leave the one that is held there. -/
theorem holds_latestStore {store : Store} {key : String} {filter : Filter}
    (held : Repository.Holds store key filter) {calls : List Call}
    (left : LeaveFilter key store calls) : Repository.Holds (latestStore store calls) key filter := by
  induction calls generalizing store with
  | nil => exact held
  | cons call rest inductionHypothesis =>
    exact inductionHypothesis (Call.holds_storeAfter held left.1) left.2

namespace StandsOn

variable {data : ViewData} {store : Store} {styles : Styles} {session : Session} {kind : ViewKind}
  {options : ViewOptions} {filter : Filter}

/-- A filter that the store holds for a view is the view's filter. -/
theorem filter_of_holds (stands : StandsOn data store styles session)
    (loaded : session.options kind = .ok options)
    (held : Repository.Holds store (Repository.filterKey options) filter) :
    (session.filter kind).1 = .ok { filter with parentEdges := options.hasParentEdges } := by
  rw [Session.filter, loaded]
  dsimp only
  rw [(stands.filterFor options).1, freshFilter, held.loadFilter rfl]

/-- A render is begun with the view that a filter gives which the store holds for it. -/
theorem beginRender_of_holds (stands : StandsOn data store styles session)
    (loaded : session.options kind = .ok options)
    (held : Repository.Holds store (Repository.filterKey options) filter) :
    (session.beginRender kind).1.map PendingRender.view = (do
      let source ← prepare data options
      assemble styles source { filter with parentEdges := options.hasParentEdges } options) := by
  have stored : Repository.loadOptions store kind = .ok options := stands.sameStore ▸ loaded
  rw [(stands.beginRender kind).1, stored]
  change (freshFilter data store options >>= _) = _
  rw [freshFilter, held.loadFilter rfl]
  rfl

end StandsOn

/-- Once a filter was stored for a view, and until another one is stored for the view and its grouping,
the view's filter has the stored sets, and edges may end on expanded groups as the view's options say. It
is the stored filter exactly when this agrees with them. A render is begun with the view that this filter
gives. The grouping decides which stored filter is meant. If it is changed and changed back, the stored
filter is in use again, which is why the condition is on the key at the time of use and not on the
options in between. -/
theorem stored_filter_used (data : ViewData) (store : Store) (renderer : Renderer) (styles : Styles)
    (calls : List Call) {session stored : Session} {kind : ViewKind} {filter : Filter}
    (reached : session = (start data store renderer styles).afterCalls calls)
    (updated : session.updateFilter kind filter = (.ok (), stored)) :
    ∃ options, session.options kind = .ok options ∧ stored.options kind = .ok options ∧
      ∀ between later now, later = stored.afterCalls between →
        LeaveFilter (Repository.filterKey options) stored.store between →
        later.options kind = .ok now → Repository.filterKey now = Repository.filterKey options →
        (later.filter kind).1 = .ok { filter with parentEdges := now.hasParentEdges } ∧
        ((later.filter kind).1 = .ok filter ↔ filter.parentEdges = now.hasParentEdges) ∧
        (later.beginRender kind).1.map PendingRender.view = (do
          let source ← prepare later.data now
          assemble styles source { filter with parentEdges := now.hasParentEdges } now) := by
  have stands := (StandsOn.start data store renderer styles).afterCalls calls
  rw [← reached] at stands
  have called := stands.perform (.updateFilter kind filter)
  change StandsOn _ _ styles (session.updateFilter kind filter).2 at called
  rw [updated] at called
  cases loaded : session.options kind with
  | error failure => simp [updateFilter, loaded] at updated
  | ok options =>
    have saved : stored = { session with store := Repository.saveFilter session.store options filter } := by
      simpa [updateFilter, loaded] using updated.symm
    have held : Repository.Holds stored.store (Repository.filterKey options) filter := by
      rw [saved]
      exact Repository.holds_saveFilter session.store options filter
    have kept : stored.options kind = .ok options := by
      rw [saved, Session.options, Repository.loadOptions_saveFilter]
      exact loaded
    refine ⟨options, rfl, kept, ?_⟩
    -- The calls in between lead to a session that stands on a store which still holds the filter under
    -- the key, so the session answers with it.
    intro between later now after left present sameKey
    have standsLater := called.afterCalls between
    rw [← after, ← called.sameStore] at standsLater
    have holds : Repository.Holds _ (Repository.filterKey now) filter :=
      sameKey ▸ holds_latestStore held left
    have found := standsLater.filter_of_holds present holds
    refine ⟨found, ?_, ?_⟩
    · rw [found, Except.ok.injEq, Filter.mk.injEq]
      simp [eq_comm]
    · rw [standsLater.sameData]
      exact standsLater.beginRender_of_holds present holds

namespace Sample

/-- The client alone is shown, and edges may end on expanded groups. -/
def clientOnly : Filter where
  leafVisible := Collection.ofList [.named .assembly ⟨"Client", by decide, by decide⟩]
  groupExpanded := Collection.empty
  parentEdges := true

/-- A session on a client and a server, with references not put into nested groups. -/
def flatSession : Session :=
  (start (executables ["Client", "Server"]) Store.empty (fun _ _ => .ok "") .plain).afterCalls
    [.setOptions flat]

/-- The references view is shown, its edges are let end on expanded groups, and the server is
dropped from the data. -/
def narrowed : List Call :=
  [.showView .references, .setOptions { flat with hasParentEdges := true },
    .reload (executables ["Client"])]

/-- The session after the filter was stored. -/
def filteredSession : Session :=
  { flatSession with store := Repository.saveFilter flatSession.store flat clientOnly }

/-- The sample session stands on both executables and the saved options. -/
theorem standsOn_flatSession : StandsOn (executables ["Client", "Server"])
    (Repository.saveOptions Store.empty flat) .plain flatSession :=
  (StandsOn.start _ Store.empty _ _).afterCalls [.setOptions flat]

/-- The options of the sample session are the saved ones. -/
theorem options_flatSession : flatSession.options .references = .ok flat := by
  have own : flat.viewType = .references := rfl
  rw [options, standsOn_flatSession.sameStore, Repository.loadOptions_saveOptions, if_pos own,
    if_pos (by decide)]

/-- The sample's filter is stored. -/
theorem updateFilter_flatSession :
    flatSession.updateFilter .references clientOnly = (.ok (), filteredSession) := by
  rw [updateFilter, options_flatSession]
  rfl

/-- The session with the stored filter stands on what it stood on before, and on the filter. -/
theorem standsOn_filteredSession : StandsOn (executables ["Client", "Server"])
    (Repository.saveFilter (Repository.saveOptions Store.empty flat) flat clientOnly) .plain
    filteredSession :=
  ⟨standsOn_flatSession.sameData,
    congrArg (Repository.saveFilter · flat clientOnly) standsOn_flatSession.sameStore,
    standsOn_flatSession.sameStyles, standsOn_flatSession.fresh⟩

end Sample

/-- In the sample the stored filter is still the view's filter after all, since the options were
brought to agree with it. -/
theorem narrowed_sample_keeps_filter :
    Sample.flatSession.updateFilter .references Sample.clientOnly = (.ok (), Sample.filteredSession) ∧
      ((Sample.filteredSession.afterCalls Sample.narrowed).filter .references).1 =
        .ok Sample.clientOnly := by
  obtain ⟨options, sought, _, used⟩ := stored_filter_used (Sample.executables ["Client", "Server"])
    Store.empty (fun _ _ => .ok "") .plain [.setOptions Sample.flat] rfl
    Sample.updateFilter_flatSession
  obtain rfl : Sample.flat = options := Except.ok.inj (Sample.options_flatSession.symm.trans sought)
  have present : (Sample.filteredSession.afterCalls Sample.narrowed).options .references =
      .ok { Sample.flat with hasParentEdges := true } := by
    have stands := Sample.standsOn_filteredSession.afterCalls Sample.narrowed
    have own : { Sample.flat with hasParentEdges := true }.viewType = .references := rfl
    rw [Session.options, stands.sameStore]
    change Repository.loadOptions (Repository.saveOptions _ _) _ = _
    rw [Repository.loadOptions_saveOptions, if_pos own, if_pos (by decide)]
  have silent : none ≠ some (Repository.filterKey Sample.flat) := (Option.some_ne_none _).symm
  have kept := used Sample.narrowed _ _ rfl ⟨silent, silent, silent, trivial⟩ present rfl
  exact ⟨Sample.updateFilter_flatSession, kept.2.1.mpr rfl⟩

/-- In the sample a stored filter is not the view's filter at once: it lets edges end on expanded
groups, and the options of the view do not. -/
theorem parent_edges_not_kept :
    Sample.flatSession.updateFilter .references Sample.clientOnly = (.ok (), Sample.filteredSession) ∧
      (Sample.filteredSession.filter .references).1 =
        .ok { Sample.clientOnly with parentEdges := false } ∧
      (Sample.filteredSession.filter .references).1 ≠ .ok Sample.clientOnly := by
  have loaded : Sample.filteredSession.options .references = .ok Sample.flat := by
    rw [options, Sample.filteredSession, Repository.loadOptions_saveFilter]
    exact Sample.options_flatSession
  have found := Sample.standsOn_filteredSession.filter_of_holds loaded
    (Repository.holds_saveFilter _ Sample.flat Sample.clientOnly)
  refine ⟨Sample.updateFilter_flatSession, found, ?_⟩
  rw [found]
  intro same
  cases congrArg Filter.parentEdges (Except.ok.inj same)

end Session

end DependencyDiagram

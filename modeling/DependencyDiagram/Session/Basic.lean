import DependencyDiagram.Session.Tracker
import DependencyDiagram.Store.Repository
import DependencyDiagram.View.Assembly

/-!
# Sessions

A session holds loaded data, the store with options and filters, a renderer, and the view
that was last shown of each kind. Sources are kept once they are prepared and dropped when
the data is replaced. A render is begun and completed in two steps, and a completed render
is shown only if it is still the awaited one of its view. Showing a view does both steps at
once with the session's own renderer.

Every call answers with a result and the session after it. A call may fail after a part of
its effects: a source stays prepared although a later stage fails, and a render counts as
finished although its output cannot be read.
-/

namespace DependencyDiagram

/-- A view as it is shown. A message is shown without anything rendered. It stays as it is
until another render of its view is applied, whatever becomes of the data. -/
structure ShownView where
  view : ViewDescription
  rendered : Option RenderedView

/-- A described view whose render is awaited. It is handed out to whoever renders, and it
holds the view that was described when the render was begun, not a reference to the session. -/
structure PendingRender where
  ticket : Ticket
  view : ViewDescription

/-- The state of a session. The data and the store come from outside and can be replaced or
filled, and everything else is made from them by calls. -/
structure Session where
  data : ViewData
  store : Store
  renderer : Renderer
  styles : Styles
  tracker : Tracker
  /-- Prepared sources by view and grouping. -/
  sources : Table (ViewKind × String) GraphSource
  shown : ViewKind → Option ShownView

namespace Session

/-- A session at its beginning. -/
def start (data : ViewData) (store : Store) (renderer : Renderer) (styles : Styles) : Session where
  data := data
  store := store
  renderer := renderer
  styles := styles
  tracker := Tracker.idle
  sources := Table.empty
  shown := fun _ => none

/-- Replace the data; every prepared source is dropped. -/
def reload (session : Session) (data : ViewData) : Session :=
  { session with data := data, sources := Table.empty }

/-- The options of a view. -/
def options (session : Session) (kind : ViewKind) : Except Failure ViewOptions :=
  Repository.loadOptions session.store kind

/-- Store options. -/
def setOptions (session : Session) (options : ViewOptions) : Session :=
  { session with store := Repository.saveOptions session.store options }

/-- The source for the given options, prepared if it was not before. A source that could not
be prepared is not kept, so the next call tries again. -/
def source (session : Session) (options : ViewOptions) : Except Failure GraphSource × Session :=
  match session.sources.get? (options.viewType, options.clusterBy) with
  | some source => (.ok source, session)
  | none =>
    match prepare session.data options with
    | .error failure => (.error failure, session)
    | .ok source =>
      (.ok source,
        { session with
          sources := session.sources.put (options.viewType, options.clusterBy) source })

/-- The filter for the given options: the stored one, or everything visible. -/
def filterFor (session : Session) (options : ViewOptions) : Except Failure Filter × Session :=
  match Repository.loadFilter session.store options with
  | .error failure => (.error failure, session)
  | .ok (some filter) => (.ok filter, session)
  | .ok none =>
    match session.source options with
    | (.error failure, after) => (.error failure, after)
    | (.ok source, after) =>
      (.ok { Filter.allVisible source.built.tree with parentEdges := options.hasParentEdges }, after)

/-- The filter of a view. -/
def filter (session : Session) (kind : ViewKind) : Except Failure Filter × Session :=
  match session.options kind with
  | .error failure => (.error failure, session)
  | .ok options => session.filterFor options

/-- Store a filter for the view's present options. -/
def updateFilter (session : Session) (kind : ViewKind) (filter : Filter) :
    Except Failure Unit × Session :=
  match session.options kind with
  | .error failure => (.error failure, session)
  | .ok options =>
    (.ok (), { session with store := Repository.saveFilter session.store options filter })

/-- Describe a view with given options, preparing what is missing. -/
def describe (session : Session) (options : ViewOptions) : Except Failure ViewDescription × Session :=
  match session.filterFor options with
  | (.error failure, after) => (.error failure, after)
  | (.ok filter, filtered) =>
    match filtered.source options with
    | (.error failure, after) => (.error failure, after)
    | (.ok source, after) => (assemble session.styles source filter options, after)

/-- Describe a view and begin its render, which supersedes an earlier one of the same view.
If the view cannot be described nothing is begun, and an earlier render stays awaited. -/
def beginRender (session : Session) (kind : ViewKind) : Except Failure PendingRender × Session :=
  match session.options kind with
  | .error failure => (.error failure, session)
  | .ok options =>
    match session.describe options with
    | (.error failure, after) => (.error failure, after)
    | (.ok view, after) =>
      let (ticket, tracker) := after.tracker.begin kind
      (.ok ⟨ticket, view⟩, { after with tracker := tracker })

/-- Show a view with what was rendered for it. -/
def showing (session : Session) (kind : ViewKind) (shown : ShownView) : Session :=
  { session with shown := fun other => if other = kind then some shown else session.shown other }

/-- Complete a render with a renderer's output. A render that is not the awaited one is
dropped, and nothing changes. -/
def completeRender (session : Session) (pending : PendingRender) (output : RenderOutput) :
    Except Failure (Option ShownView) × Session :=
  match session.tracker.finish pending.ticket with
  | (false, _) => (.ok none, session)
  | (true, tracker) =>
    let finished := { session with tracker := tracker }
    match attachRender pending.view output with
    | .error failure => (.error failure, finished)
    | .ok rendered =>
      let shown := ⟨pending.view, rendered⟩
      (.ok (some shown), finished.showing pending.ticket.view shown)

/-- Cancel the awaited render of a view. -/
def cancel (session : Session) (kind : ViewKind) : Session :=
  { session with tracker := session.tracker.cancel kind }

/-- The failure for a render that was superseded although nothing could come between. -/
def superseded : Failure := Failure.ofKind .unexpected "render superseded while shown synchronously"

/-- Render a view with the session's renderer and show it. If the renderer fails, the render
is cancelled. A message is completed without asking the renderer for anything. -/
def showView (session : Session) (kind : ViewKind) : Except Failure ShownView × Session :=
  match session.beginRender kind with
  | (.error failure, after) => (.error failure, after)
  | (.ok pending, begun) =>
    match runRenderer pending.view begun.renderer with
    | .error failure => (.error failure, begun.cancel kind)
    | .ok output =>
      match begun.completeRender pending (output.getD ⟨"", ""⟩) with
      | (.error failure, after) => (.error failure, after)
      | (.ok none, after) => (.error superseded, after)
      | (.ok (some shown), after) => (.ok shown, after)

end Session

end DependencyDiagram

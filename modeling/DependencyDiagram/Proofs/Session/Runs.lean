import DependencyDiagram.Session.Basic

/-!
# Runs of sessions

A run is a sequence of calls on one session, each made on the session that the one before left behind. A
render can only be completed after it was begun in the same run, but at any later time, in any order and
as often as one likes, with whatever a renderer made of it. The session's own renderer may change its
behaviour between any two calls.

Of all that a session holds, the tracker and the shown views decide which renders are awaited and shown.
Most calls leave both alone; beginning and completing a render change them in ways that are said here
once.

Calls that only store something, and calls that ask for a filter, cannot be told apart by the two. They
are therefore treated together wherever a run is followed.
-/

namespace DependencyDiagram

namespace Session

/-- A call on a session. These are all the ways in which a session is used from outside. The data, the
filter, the output of the renderer and the renderer itself are chosen freely by the caller. -/
inductive Call where
  | reload (data : ViewData)
  | setOptions (options : ViewOptions)
  | filter (kind : ViewKind)
  | updateFilter (kind : ViewKind) (filter : Filter)
  | beginRender (kind : ViewKind)
  | completeRender (pending : PendingRender) (output : RenderOutput)
  | showView (kind : ViewKind)
  | cancel (kind : ViewKind)
  /-- The session's renderer behaves in another way from now on. -/
  | replaceRenderer (renderer : Renderer)

/-- What a call answers. A render that was dropped is an answer of its own, since nothing has failed. -/
inductive Answer where
  | done
  | filter (filter : Filter)
  | begun (pending : PendingRender)
  | dropped
  | shown (shown : ShownView)
  | failed (failure : Failure)

namespace Answer

/-- The answer for an outcome. -/
def ofOutcome {α : Type} (found : α → Answer) : Except Failure α → Answer
  | .ok value => found value
  | .error failure => failed failure

/-- The answer for a completed render, or for one that was dropped. -/
def ofCompletion : Option ShownView → Answer
  | some view => shown view
  | none => dropped

/-- Nothing came of the call. A dropped render is no failure, but for what is shown it comes to the same. -/
def IsRefusal : Answer → Prop
  | dropped | failed _ => True
  | _ => False

end Answer

/-- Make a call. -/
def perform (session : Session) : Call → Answer × Session
  | .reload data => (.done, session.reload data)
  | .setOptions options => (.done, session.setOptions options)
  | .filter kind => (session.filter kind).map (.ofOutcome .filter) id
  | .updateFilter kind filter => (session.updateFilter kind filter).map (.ofOutcome fun _ => .done) id
  | .beginRender kind => (session.beginRender kind).map (.ofOutcome .begun) id
  | .completeRender pending output =>
    (session.completeRender pending output).map (.ofOutcome .ofCompletion) id
  | .showView kind => (session.showView kind).map (.ofOutcome .shown) id
  | .cancel kind => (.done, session.cancel kind)
  | .replaceRenderer renderer => (.done, { session with renderer := renderer })

/-- A call together with the session on which it is made. The answer and the session afterwards are
functions of the two and are not stored. -/
structure Step where
  before : Session
  call : Call

namespace Step

/-- What the call answers. -/
def answer (step : Step) : Answer := (step.before.perform step.call).1

/-- The session after the call. -/
def after (step : Step) : Session := (step.before.perform step.call).2

end Step

/-- A session is reached from a start by calls, each made on the session after the one before. Only
renders that were begun in the run are completed. A render that is completed may have been begun at any
earlier step, and nothing prevents it from being completed again. Completing something that was never
begun is left out, since renders are only made by a session. -/
inductive Run (start : Session) : List Step → Session → Prop where
  | start : Run start [] start
  | next {steps : List Step} {session : Session} (call : Call) (before : Run start steps session)
      (begun : ∀ pending output, call = .completeRender pending output →
        ∃ step ∈ steps, step.answer = .begun pending) :
      Run start (steps ++ [⟨session, call⟩]) (session.perform call).2

/-- What the renders of a session depend on: the tracker and what is shown. Two sessions with one desk
answer every completion alike, whatever data, store or prepared sources they have. -/
structure Desk where
  tracker : Tracker
  shown : ViewKind → Option ShownView

/-- The tracker of a session and what it shows. -/
def desk (session : Session) : Desk := ⟨session.tracker, session.shown⟩

/-- Preparing a source neither begins nor ends a render. -/
theorem desk_source (session : Session) (options : ViewOptions) :
    (session.source options).2.desk = session.desk := by
  unfold source
  split
  · rfl
  · split <;> rfl

/-- Finding a filter neither begins nor ends a render. -/
theorem desk_filterFor (session : Session) (options : ViewOptions) :
    (session.filterFor options).2.desk = session.desk := by
  have sourced := desk_source session options
  unfold filterFor
  split
  · rfl
  · rfl
  · split
    · rename_i same
      rwa [same] at sourced
    · rename_i same
      rwa [same] at sourced

/-- Asking for a filter neither begins nor ends a render. -/
theorem desk_filter (session : Session) (kind : ViewKind) :
    (session.filter kind).2.desk = session.desk := by
  unfold filter
  split
  · rfl
  · exact desk_filterFor session _

/-- Storing a filter neither begins nor ends a render. -/
theorem desk_updateFilter (session : Session) (kind : ViewKind) (filter : Filter) :
    (session.updateFilter kind filter).2.desk = session.desk := by
  unfold updateFilter
  split <;> rfl

/-- Describing a view neither begins nor ends a render. -/
theorem desk_describe (session : Session) (options : ViewOptions) :
    (session.describe options).2.desk = session.desk := by
  have filtered := desk_filterFor session options
  unfold describe
  split
  · rename_i same
    rwa [same] at filtered
  · rename_i after same
    rw [same] at filtered
    have sourced := desk_source after options
    split
    · rename_i again
      rw [again] at sourced
      exact sourced.trans filtered
    · rename_i again
      rw [again] at sourced
      exact sourced.trans filtered

/-- Beginning a render begins one at the tracker, or fails and leaves tracker and shown views alone.
Options and description can fail, and they come first: the ticket is taken only when there is a view to
render. Describing a view may fill the cache of sources, but neither tracker nor shown views. -/
theorem desk_beginRender (session : Session) (kind : ViewKind) :
    (∃ pending after, session.beginRender kind = (.ok pending, after) ∧
      pending.ticket = (session.tracker.begin kind).1 ∧
      after.desk = ⟨(session.tracker.begin kind).2, session.shown⟩) ∨
    (∃ failure after, session.beginRender kind = (.error failure, after) ∧
      after.desk = session.desk) := by
  unfold beginRender
  split
  · exact Or.inr ⟨_, _, rfl, rfl⟩
  · rename_i options _
    have described := desk_describe session options
    split
    · rename_i failure after same
      rw [same] at described
      exact Or.inr ⟨failure, after, rfl, described⟩
    · rename_i view after same
      rw [same] at described
      obtain ⟨sameTracker, sameShown⟩ := Desk.mk.inj described
      refine Or.inl ⟨_, _, rfl, ?_, ?_⟩
      · rw [sameTracker]
        rfl
      · rw [desk, sameTracker, sameShown]
        rfl

/-- Completing a render that is not awaited changes nothing; otherwise the tracker finishes it, and
the view is shown unless the output cannot be read. -/
theorem desk_completeRender (session : Session) (pending : PendingRender) (output : RenderOutput) :
    (session.tracker.accepts pending.ticket = false ∧
      session.completeRender pending output = (.ok none, session)) ∨
    (session.tracker.accepts pending.ticket = true ∧ ∃ after,
      (∃ failure, session.completeRender pending output = (.error failure, after) ∧
        after.desk = ⟨(session.tracker.finish pending.ticket).2, session.shown⟩) ∨
      (∃ shown, session.completeRender pending output = (.ok (some shown), after) ∧
        shown.view = pending.view ∧
        after.desk = ⟨(session.tracker.finish pending.ticket).2, fun other =>
          if other = pending.ticket.view then some shown else session.shown other⟩)) := by
  cases accepted : session.tracker.accepts pending.ticket with
  | false =>
    refine Or.inl ⟨rfl, ?_⟩
    simp [completeRender, Tracker.finish, accepted]
  | true =>
    refine Or.inr ⟨rfl, ?_⟩
    simp only [completeRender, Tracker.finish, accepted, if_true]
    cases attachRender pending.view output with
    | error failure => exact ⟨_, Or.inl ⟨failure, rfl, rfl⟩⟩
    | ok rendered => exact ⟨_, Or.inr ⟨_, rfl, rfl, rfl⟩⟩

/-- The tracker awaits the render that was begun last. -/
theorem accepts_begin (tracker : Tracker) (kind : ViewKind) :
    (tracker.begin kind).2.accepts (tracker.begin kind).1 = true := by
  simp [Tracker.begin, Tracker.accepts, Tracker.set]

/-- Showing a view fails where beginning its render does, where the renderer does, which cancels
the render, or where the output cannot be read. Otherwise it shows what completing the render
does; the render that it began itself is never dropped. -/
theorem showView_cases (session : Session) (kind : ViewKind) :
    (∃ failure after, session.beginRender kind = (.error failure, after) ∧
      session.showView kind = (.error failure, after)) ∨
    ∃ pending begun, session.beginRender kind = (.ok pending, begun) ∧
      ((∃ failure, runRenderer pending.view begun.renderer = .error failure ∧
        session.showView kind = (.error failure, begun.cancel kind)) ∨
      ∃ output, runRenderer pending.view begun.renderer = .ok output ∧
        ((∃ failure after, begun.completeRender pending (output.getD ⟨"", ""⟩) = (.error failure, after) ∧
          session.showView kind = (.error failure, after)) ∨
        (∃ shown after, begun.completeRender pending (output.getD ⟨"", ""⟩) = (.ok (some shown), after) ∧
          session.showView kind = (.ok shown, after)))) := by
  rcases desk_beginRender session kind with
    ⟨pending, begun, here, ticket, tracked⟩ | ⟨failure, after, here, _⟩
  · refine Or.inr ⟨pending, begun, here, ?_⟩
    simp only [showView, here]
    cases rendered : runRenderer pending.view begun.renderer with
    | error failure => exact Or.inl ⟨failure, rfl, rfl⟩
    | ok output =>
      refine Or.inr ⟨output, rfl, ?_⟩
      -- Nothing came between, so the render is still the one begun last and is not dropped.
      have awaited : begun.tracker.accepts pending.ticket = true := by
        have same : begun.tracker = (session.tracker.begin kind).2 := (Desk.mk.inj tracked).1
        rw [same, ticket]
        exact accepts_begin session.tracker kind
      rcases desk_completeRender begun pending (output.getD ⟨"", ""⟩) with ⟨refused, _⟩ | ⟨_, after, done⟩
      · rw [awaited] at refused
        cases refused
      · rcases done with ⟨failure, completed, _⟩ | ⟨shown, completed, _⟩
        · exact Or.inl ⟨failure, after, completed, by simp only [completed]⟩
        · exact Or.inr ⟨shown, after, completed, by simp only [completed]⟩
  · refine Or.inl ⟨failure, after, here, ?_⟩
    simp only [showView, here]

end Session

end DependencyDiagram

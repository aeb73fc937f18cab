import DependencyDiagram.Proofs.Session.Currency
import DependencyDiagram.Proofs.Session.Cache

/-!
# Renders and reloads

A render is described when it is begun, from the data of this moment, and it is applied as it was
described. Replacing the data drops the prepared sources and nothing else: a render that is awaited stays
awaited, and when it is completed its view is shown, although the data are gone from which the view was
built. Only where no data are replaced in between is a view shown that is built from the present data.

That a replacement keeps renders holds of any session and any number of replacements, because what
becomes of a render is decided by the tracker and the shown views alone.

This is by design and is worth knowing: a picture on the screen may be of data that are no longer there,
until its view is rendered again.
-/

namespace DependencyDiagram

namespace Session

/-- A view is what the data give for the view's own filter and options. The view names its filter and its
options itself, so the data are all that is left to compare. -/
def BuiltFrom (styles : Styles) (data : ViewData) (view : ViewDescription) : Prop :=
  ∃ source, prepare data view.options = .ok source ∧
    assemble styles source view.filter view.options = .ok view

/-- The call replaces the data. -/
def Call.Reloads (call : Call) : Prop := ∃ data, call = .reload data

/-- The render that a call applies was begun by this call or an earlier one. What is shown is the view
that it was begun with, which was built from the data of that moment, and nothing else happened to its
view since. Where no data were replaced in between, and always where the view is shown at once, these are
the data that the session holds after the call. The call that began the render is found among the earlier
ones or is the present one. What came after it may be calls on other views, options, filters and reloads;
none of these has an event of this view. -/
def BegunBefore (styles : Styles) (earlier : List Step) (step : Step) (pending : PendingRender)
    (shown : ShownView) : Prop :=
  ∃ front begun back, earlier ++ [step] = front ++ begun :: back ∧
    .begun pending ∈ begun.events ∧ shown.view = pending.view ∧
    BuiltFrom styles begun.before.data shown.view ∧
    (∀ event ∈ eventsOf back, event.view = pending.ticket.view → event = .applied pending shown) ∧
    ((∀ other ∈ back, ¬ other.call.Reloads) → BuiltFrom styles step.after.data shown.view) ∧
    ∀ kind, step.call = .showView kind → BuiltFrom styles step.after.data shown.view

/-- The session after its data were replaced, once by each member of a list. -/
def reloadAll (session : Session) (replacements : List ViewData) : Session :=
  replacements.foldl reload session

/-- A later session awaits the renders that an earlier one awaits. Each of them is completed as it would
have been before, and shows the same. Keeping is symmetric between the two: a render that the earlier one
would drop is dropped by the later one too, so nothing that was cancelled comes back. -/
structure KeepsRenders (session later : Session) : Prop where
  pending : ∀ kind, later.tracker.isPending kind = session.tracker.isPending kind
  accepted : ∀ ticket, later.tracker.accepts ticket = session.tracker.accepts ticket
  completed : ∀ pending output,
    (later.completeRender pending output).1 = (session.completeRender pending output).1
  shown : ∀ pending output kind, (later.completeRender pending output).2.shown kind =
    (session.completeRender pending output).2.shown kind

variable {data : ViewData} {store : Store} {renderer : Renderer} {styles : Styles}
  {session : Session} {steps : List Step} {pending : PendingRender}

/-- Replacing data neither begins nor ends a render, however often it is done. -/
theorem desk_reloadAll (session : Session) (replacements : List ViewData) :
    (session.reloadAll replacements).desk = session.desk := by
  induction replacements generalizing session with
  | nil => rfl
  | cons data rest inductionHypothesis => exact inductionHypothesis (session.reload data)

/-- The tracker and the shown views decide what becomes of a render and what is shown then. -/
theorem keepsRenders_of_desk {later : Session} (same : later.desk = session.desk) :
    KeepsRenders session later := by
  obtain ⟨sameTracker, sameShown⟩ := Desk.mk.inj same
  have alike (pending : PendingRender) (output : RenderOutput) :
      (later.completeRender pending output).1 = (session.completeRender pending output).1 ∧
        (later.completeRender pending output).2.shown =
          (session.completeRender pending output).2.shown := by
    simp only [completeRender, sameTracker]
    split
    · exact ⟨rfl, sameShown⟩
    · split
      · exact ⟨rfl, sameShown⟩
      · exact ⟨rfl, by simp only [showing, sameShown]⟩
  exact {
    pending := fun _ => by rw [sameTracker]
    accepted := fun _ => by rw [sameTracker]
    completed := fun pending output => (alike pending output).1
    shown := fun pending output kind => congrFun (alike pending output).2 kind }

/-- A render that is awaited is not dropped when it is completed. -/
theorem completeRender_ne_dropped (accepted : session.tracker.accepts pending.ticket = true)
    (output : RenderOutput) : (session.completeRender pending output).1 ≠ .ok none := by
  rcases desk_completeRender session pending output with
    ⟨refused, _⟩ | ⟨_, _, ⟨failure, done, _⟩ | ⟨shown, done, _⟩⟩
  · cases refused.symm.trans accepted
  · simp [done]
  · simp [done]

/-- An assembled view tells with which filter and options it was assembled. -/
theorem builtFrom_of_assemble {source : GraphSource} {filter : Filter} {options : ViewOptions}
    {view : ViewDescription} (prepared : prepare data options = .ok source)
    (assembled : assemble styles source filter options = .ok view) : BuiltFrom styles data view := by
  have fields : view.filter = filter ∧ view.options = options := by
    unfold assemble at assembled
    obtain ⟨_, _, rest⟩ := Outcome.bind_eq_ok_iff.mp assembled
    obtain ⟨_, _, described⟩ := Outcome.bind_eq_ok_iff.mp rest
    obtain rfl := Except.ok.inj described
    exact ⟨rfl, rfl⟩
  refine ⟨source, ?_, ?_⟩
  · rwa [fields.2]
  · rwa [fields.1, fields.2]

/-- A render is begun with a view that is built from the session's data. -/
theorem StandsOn.builtFrom_of_beginRender {kind : ViewKind}
    (stands : StandsOn data store styles session)
    (began : (session.beginRender kind).1 = .ok pending) : BuiltFrom styles data pending.view := by
  have described := (stands.beginRender kind).1
  rw [began] at described
  obtain ⟨options, _, filtered⟩ := Outcome.bind_eq_ok_iff.mp described.symm
  obtain ⟨filter, _, sourced⟩ := Outcome.bind_eq_ok_iff.mp filtered
  obtain ⟨source, prepared, assembled⟩ := Outcome.bind_eq_ok_iff.mp sourced
  exact builtFrom_of_assemble prepared assembled

/-- A session that is reached by a run stands on the latest data and the latest store. -/
theorem standsOn_of_run (run : Run (start data store renderer styles) steps session) :
    StandsOn (latestData data (steps.map Step.call)) (latestStore store (steps.map Step.call)) styles
      session := by
  induction run with
  | start => exact StandsOn.start data store renderer styles
  | @next steps session call before begun inductionHypothesis =>
    rw [List.map_append, latestData, latestStore, List.foldl_append, List.foldl_append]
    exact inductionHypothesis.perform call

/-- The latest data after more calls. -/
theorem latestData_append (earlier later : List Call) :
    latestData data (earlier ++ later) = latestData (latestData data earlier) later :=
  List.foldl_append

/-- After a call of a run the session has the latest data. -/
theorem data_after_run {earlier later : List Step} {step : Step}
    (run : Run (start data store renderer styles) (earlier ++ step :: later) session) :
    step.after.data = latestData data ((earlier ++ [step]).map Step.call) := by
  rw [List.map_append, latestData_append]
  exact ((standsOn_of_run run.reaches_before).perform step.call).sameData

/-- Calls that replace no data keep them. -/
theorem latestData_eq {calls : List Call} (kept : ∀ call ∈ calls, ¬ call.Reloads) :
    latestData data calls = data := by
  induction calls generalizing data with
  | nil => rfl
  | cons call rest inductionHypothesis =>
    have same : call.dataAfter data = data := by
      cases call with
      | reload reloaded => exact absurd ⟨reloaded, rfl⟩ (kept _ List.mem_cons_self)
      | _ => rfl
    rw [latestData, List.foldl_cons, same]
    exact inductionHypothesis (fun other listed => kept other (List.mem_cons_of_mem _ listed))

namespace Step

variable {step : Step}

/-- A render that begins in a call is begun on the session before the call. Rendering is begun by a call
of its own or on the way of showing a view; in both, the view that is described is that of the session as
the call finds it. -/
theorem exists_beginRender (begins : .begun pending ∈ step.events) :
    ∃ kind, (step.before.beginRender kind).1 = .ok pending := by
  obtain ⟨session, call⟩ := step
  cases call with
  | beginRender kind =>
    refine ⟨kind, ?_⟩
    cases outcome : (session.beginRender kind).1 with
    | error failure => simp [events, outcome] at begins
    | ok other => simpa [events, outcome, eq_comm] using begins
  | completeRender other output =>
    rcases outcome : (session.completeRender other output).1 with _ | (_ | _) <;>
      simp [events, outcome] at begins
  | showView kind =>
    refine ⟨kind, ?_⟩
    rcases here : session.beginRender kind with ⟨failure | other, begun⟩
    · simp [events, here] at begins
    · simp only [events, here, List.mem_cons] at begins
      rcases begins with same | later
      · exact congrArg Except.ok (Event.begun.inj same).symm
      · split at later
        · simp at later
        · split at later <;> simp at later
  | cancel kind => simp [events] at begins
  | reload _ | setOptions _ | filter _ | updateFilter _ _ | replaceRenderer _ => cases begins

/-- A call in which a render begins replaces no data. -/
theorem not_reloads_of_begun (begins : .begun pending ∈ step.events) : ¬ step.call.Reloads := by
  obtain ⟨session, call⟩ := step
  rintro ⟨data, rfl⟩
  cases begins

/-- A render that is applied in a call is the last that happens in it, and if anything happens
before, it is the beginning of this render. -/
theorem events_of_applied {shown : ShownView} (applies : .applied pending shown ∈ step.events) :
    ∃ first, step.events = first ++ [.applied pending shown] := by
  obtain ⟨session, call⟩ := step
  cases call with
  | beginRender kind =>
    cases outcome : (session.beginRender kind).1 <;> simp [events, outcome] at applies
  | completeRender other output =>
    rcases outcome : (session.completeRender other output).1 with _ | (_ | _) <;>
      simp [events, outcome] at applies
    obtain ⟨rfl, rfl⟩ := applies
    exact ⟨[], by simp [events, outcome]⟩
  | showView kind =>
    rcases here : session.beginRender kind with ⟨failure | other, begun⟩
    · simp [events, here] at applies
    · simp only [events, here, List.mem_cons, reduceCtorEq, false_or] at applies ⊢
      cases ran : runRenderer other.view begun.renderer with
      | error failure => simp [ran] at applies
      | ok output =>
        cases shows : (session.showView kind).1 with
        | error failure => simp [ran, shows] at applies
        | ok view =>
          simp only [ran, shows, List.mem_singleton] at applies ⊢
          exact ⟨[.begun other], by rw [applies]; rfl⟩
  | cancel kind => simp [events] at applies
  | reload _ | setOptions _ | filter _ | updateFilter _ _ | replaceRenderer _ => cases applies

/-- A render that is applied while a view is shown was begun for this. -/
theorem begun_of_showView {shown : ShownView} {kind : ViewKind} (called : step.call = .showView kind)
    (applies : .applied pending shown ∈ step.events) : .begun pending ∈ step.events := by
  obtain ⟨session, call⟩ := step
  obtain rfl : call = .showView kind := called
  rcases here : session.beginRender kind with ⟨failure | other, begun⟩
  · simp [events, here] at applies
  · simp only [events, here, List.mem_cons, reduceCtorEq, false_or] at applies ⊢
    split at applies
    · simp at applies
    · split at applies
      · exact Or.inl (congrArg Event.begun (Event.applied.inj (List.mem_singleton.mp applies)).1)
      · simp at applies

end Step

/-- An event of a run happens in one of its calls, after what happens in earlier calls and before
what happens in later ones. -/
theorem exists_step_of_event {before after : List Event} {event : Event}
    (split : eventsOf steps = before ++ event :: after) :
    ∃ front step back first last, steps = front ++ step :: back ∧
      step.events = first ++ event :: last ∧ after = last ++ eventsOf back := by
  induction steps generalizing before with
  | nil => cases before <;> cases split
  | cons head rest inductionHypothesis =>
    have later : ∀ {gap}, eventsOf rest = gap ++ event :: after →
        ∃ front step back first last, head :: rest = front ++ step :: back ∧
          step.events = first ++ event :: last ∧ after = last ++ eventsOf back := by
      intro gap here
      obtain ⟨front, step, back, first, last, rfl, happens, follows⟩ := inductionHypothesis here
      exact ⟨head :: front, step, back, first, last, rfl, happens, follows⟩
    rw [eventsOf, List.flatMap_cons, ← eventsOf] at split
    rcases List.append_eq_append_iff.mp split with ⟨gap, _, here⟩ | ⟨gap, happens, follows⟩
    · exact later here
    · cases gap with
      | nil => exact @later [] follows.symm
      | cons other gap =>
        obtain ⟨rfl, rfl⟩ := List.cons.inj follows
        exact ⟨[], head, rest, before, gap, rfl, happens, rfl⟩

/-- From a call that begins a render on, the data stay the same as long as no call replaces them. -/
theorem data_of_no_reload {earlier later front back : List Step} {step begun : Step}
    (run : Run (start data store renderer styles) (earlier ++ step :: later) session)
    (split : earlier ++ [step] = front ++ begun :: back) (began : .begun pending ∈ begun.events)
    (stands : begun.before.data = latestData data (front.map Step.call))
    (kept : ∀ other ∈ back, ¬ other.call.Reloads) : step.after.data = begun.before.data := by
  have calls : (earlier ++ [step]).map Step.call =
      front.map Step.call ++ begun.call :: back.map Step.call := by
    rw [split, List.map_append, List.map_cons]
  have unchanged : ∀ call ∈ begun.call :: back.map Step.call, ¬ call.Reloads := by
    rintro call listed
    rcases List.mem_cons.mp listed with rfl | listed
    · exact Step.not_reloads_of_begun began
    · obtain ⟨other, between, rfl⟩ := List.mem_map.mp listed
      exact kept other between
  rw [data_after_run run, calls, latestData_append, latestData_eq unchanged, stands]

/-- A render that is applied while a view is shown was begun with a view that is built from the present
data, which showing a view does not replace. -/
theorem builtFrom_of_showView {step : Step} {shown : ShownView} {kind : ViewKind}
    (run : Run (start data store renderer styles) steps step.before) (called : step.call = .showView kind)
    (applies : .applied pending shown ∈ step.events) :
    BuiltFrom styles step.after.data pending.view := by
  obtain ⟨_, begins⟩ := Step.exists_beginRender (Step.begun_of_showView called applies)
  have now := standsOn_of_run run
  have kept : step.after.data = step.before.data := by
    have performed := (now.perform step.call).sameData
    rw [called] at performed
    rw [now.sameData]
    exact (congrArg (fun call => (step.before.perform call).2.data) called).trans performed
  rw [kept, now.sameData]
  exact now.builtFrom_of_beginRender begins

/-- A render that a call of a run applies was begun in the run, as it is applied. The history of the run
says that the beginning is the last event of the view before the render is applied, and the call that
began it is the one in which this event happened. -/
theorem begunBefore_of_applied {earlier later : List Step} {step : Step} {shown : ShownView}
    (run : Run (start data store renderer styles) (earlier ++ step :: later) session)
    (applies : .applied pending shown ∈ step.events) :
    BegunBefore styles earlier step pending shown := by
  obtain ⟨first, ends⟩ := Step.events_of_applied applies
  have before : eventsOf (earlier ++ step :: later) =
      (eventsOf earlier ++ first) ++ .applied pending shown :: eventsOf later := by
    simp [eventsOf, ends]
  obtain ⟨sameView, past, since, split, others⟩ := (explains_of_run run).lawful _ _ _ before
  have whole : eventsOf (earlier ++ [step]) =
      past ++ .begun pending :: (since ++ [.applied pending shown]) := by
    rw [eventsOf, List.flatMap_append, List.flatMap_singleton, ends, ← eventsOf, ← List.append_assoc,
      split, List.append_assoc, List.cons_append]
  obtain ⟨front, begun, back, inner, outer, steps, begins, rest⟩ := exists_step_of_event whole
  have began : .begun pending ∈ begun.events := by simp [begins]
  have reached : Run (start data store renderer styles) front begun.before := by
    have again : earlier ++ step :: later = front ++ begun :: (back ++ later) := by
      rw [List.append_cons, steps, List.append_assoc, List.cons_append]
    rw [again] at run
    exact run.reaches_before
  obtain ⟨kind, begin⟩ := Step.exists_beginRender began
  have stands := standsOn_of_run reached
  have built : BuiltFrom styles begun.before.data shown.view := by
    rw [sameView, stands.sameData]
    exact stands.builtFrom_of_beginRender begin
  refine ⟨front, begun, back, steps, began, sameView, built, ?_, ?_, ?_⟩
  · intro event happens here
    have listed : event ∈ since ++ [.applied pending shown] :=
      rest ▸ List.mem_append_right outer happens
    rcases List.mem_append.mp listed with between | last
    · exact absurd here (others event between)
    · exact List.mem_singleton.mp last
  · intro kept
    rwa [data_of_no_reload run steps began stands.sameData kept]
  · intro kind called
    rw [sameView]
    exact builtFrom_of_showView run.reaches_before called applies

/-- A render that is applied in a run was begun in the run, and is shown as it was begun. Replacing the
data, however often, keeps every render awaited, with the same outcome when it is completed; so a render
to whose view nothing else happened is never dropped.

The three parts answer three questions about data that are replaced while a render is under way: from
which data a shown view was built, what a replacement does to renders that are still awaited, and
whether a render that nothing has superseded can be lost. -/
theorem applied_as_begun (run : Run (start data store renderer styles) steps session) :
    (∀ earlier step later pending shown, steps = earlier ++ step :: later →
      .applied pending shown ∈ step.events → BegunBefore styles earlier step pending shown) ∧
      (∀ replacements, KeepsRenders session (session.reloadAll replacements)) ∧
      ∀ pending, JustBegun pending (eventsOf steps) → ∀ replacements output,
        (session.reloadAll replacements).tracker.accepts pending.ticket = true ∧
          ((session.reloadAll replacements).completeRender pending output).1 ≠ .ok none := by
  refine ⟨?_, fun replacements => keepsRenders_of_desk (desk_reloadAll session replacements), ?_⟩
  · rintro earlier step later pending shown rfl applies
    exact begunBefore_of_applied run applies
  intro pending just replacements output
  have awaited : session.tracker.accepts pending.ticket = true := (explains_of_run run).kept pending just
  have accepted : (session.reloadAll replacements).tracker.accepts pending.ticket = true := by
    rw [(keepsRenders_of_desk (desk_reloadAll session replacements)).accepted]
    exact awaited
  exact ⟨accepted, completeRender_ne_dropped accepted output⟩

namespace Sample

/-- A client that refers to a server. -/
def linked : ViewData :=
  ⟨{ Reflection.empty with assemblies := .ofList [("Client", ⟨["Server"], []⟩)] }, []⟩

/-- A session on the client and the server, with a renderer that answers with an empty text. -/
def linkedSession : Session := start linked Store.empty (fun _ _ => .ok "") .plain

/-- A render of the references view is begun, the data are replaced by none, and the render is
completed: its view is shown, and the present data do not give this view. -/
def showsReplaced : Bool :=
  match linkedSession.beginRender .references with
  | (.ok pending, begun) =>
    match (begun.reload (executables [])).completeRender pending ⟨"", ""⟩ with
    | (.ok (some shown), _) =>
      match (prepare (executables []) shown.view.options).bind
        (assemble .plain · shown.view.filter shown.view.options) with
      | .ok view => view.diagramText? != shown.view.diagramText?
      | .error _ => true
    | _ => false
  | _ => false

/-- The calls of the sample on the sessions that they pass through. -/
theorem exists_replaced : ∃ pending begun shown after,
    linkedSession.beginRender .references = (.ok pending, begun) ∧
      (begun.reload (executables [])).completeRender pending ⟨"", ""⟩ = (.ok (some shown), after) ∧
      ¬ BuiltFrom .plain (executables []) shown.view := by
  have shows : showsReplaced = true := by decide +kernel
  unfold showsReplaced at shows
  split at shows <;> [skip; cases shows]
  split at shows <;> [skip; cases shows]
  refine ⟨_, _, _, _, ‹_›, ‹_›, ?_⟩
  rintro ⟨source, prepared, assembled⟩
  rw [prepared, Except.bind, assembled] at shows
  simp at shows

/-- The calls of the sample are a run. -/
theorem exists_replaced_run : ∃ pending begun shown after,
    Run linkedSession [⟨linkedSession, .beginRender .references⟩, ⟨begun, .reload (executables [])⟩,
      ⟨begun.reload (executables []), .completeRender pending ⟨"", ""⟩⟩] after ∧
    Step.events ⟨linkedSession, .beginRender .references⟩ = [.begun pending] ∧
    Step.events ⟨begun.reload (executables []), .completeRender pending ⟨"", ""⟩⟩ =
      [.applied pending shown] ∧
    ¬ BuiltFrom .plain after.data shown.view := by
  obtain ⟨pending, begun, shown, after, began, completed, replaced⟩ := exists_replaced
  have firstAnswer : linkedSession.perform (.beginRender .references) = (.begun pending, begun) := by
    rw [perform, began]
    rfl
  have lastAnswer : (begun.reload (executables [])).perform (.completeRender pending ⟨"", ""⟩) =
      (.shown shown, after) := by
    rw [perform, completed]
    rfl
  have none : Run linkedSession [] linkedSession := .start
  have one := none.next (.beginRender .references) (by rintro _ _ ⟨⟩)
  rw [firstAnswer] at one
  have two := one.next (.reload (executables [])) (by rintro _ _ ⟨⟩)
  have three := two.next (.completeRender pending ⟨"", ""⟩) (by
    rintro _ _ ⟨⟩
    exact ⟨⟨linkedSession, .beginRender .references⟩, by simp, congrArg Prod.fst firstAnswer⟩)
  change Run _ _ ((begun.reload (executables [])).perform _).2 at three
  rw [lastAnswer] at three
  have kept : after.data = executables [] := by
    have stood := (standsOn_of_run two).completeRender pending ⟨"", ""⟩
    change StandsOn _ _ _ ((begun.reload (executables [])).completeRender _ _).2 at stood
    rw [completed] at stood
    exact stood.sameData
  refine ⟨pending, begun, shown, after, three, ?_, ?_, kept ▸ replaced⟩
  · simp [Step.events, began]
  · simp [Step.events, completed]

/-- Of three calls of which the second does nothing to renders and the last one applies a render,
the first is the only one that can have begun it. -/
theorem begun_first {first second third step : Step} {front back : List Step} {shown : ShownView}
    (split : [first, second, third] = front ++ step :: back) (silent : second.events = [])
    (applies : third.events = [.applied pending shown]) (begins : .begun pending ∈ step.events) :
    step = first ∧ back = [second, third] := by
  rcases front with _ | ⟨one, _ | ⟨two, _ | ⟨three, rest⟩⟩⟩
  · obtain ⟨rfl, rfl⟩ := List.cons.inj split
    exact ⟨rfl, rfl⟩
  · obtain ⟨rfl, rfl⟩ := List.cons.inj (List.cons.inj split).2
    simp [silent] at begins
  · obtain ⟨rfl, rfl⟩ := List.cons.inj (List.cons.inj (List.cons.inj split).2).2
    simp [applies] at begins
  · simp at split

end Sample

/-- In the sample the view that is shown after the reload was built from the data before it. -/
theorem replaced_sample_as_begun : ∃ steps session, Run Sample.linkedSession steps session ∧
    ∃ pending shown, eventsOf steps = [.begun pending, .applied pending shown] ∧
      BuiltFrom .plain Sample.linked shown.view := by
  obtain ⟨pending, begun, shown, after, run, begins, applies, _⟩ := Sample.exists_replaced_run
  obtain ⟨front, first, back, split, began, same, built, _⟩ :=
    (applied_as_begun run).1 [_, _] _ [] pending shown rfl
      (by rw [applies]; exact List.mem_singleton_self _)
  obtain ⟨rfl, _⟩ := Sample.begun_first split rfl applies began
  refine ⟨_, after, run, pending, shown, ?_, built⟩
  rw [eventsOf, List.flatMap_cons, List.flatMap_cons, List.flatMap_cons, begins, applies]
  rfl

/-- Every render that is applied was begun after the latest reload. This would make every shown view one
of the present data. It is not how sessions behave. -/
def BegunSinceReload (steps : List Step) : Prop :=
  ∀ earlier step later pending shown, steps = earlier ++ step :: later →
    .applied pending shown ∈ step.events →
    ∃ front begun back, earlier ++ [step] = front ++ begun :: back ∧
      .begun pending ∈ begun.events ∧ ∀ other ∈ back, ¬ other.call.Reloads

/-- In the sample a render is applied that was begun before the latest reload, and the present data
do not give what is shown. -/
theorem reload_drops_no_render : ∃ steps session, Run Sample.linkedSession steps session ∧
    ¬ BegunSinceReload steps ∧
    ∃ pending shown, eventsOf steps = [.begun pending, .applied pending shown] ∧
      ¬ BuiltFrom .plain session.data shown.view := by
  obtain ⟨pending, begun, shown, after, run, begins, applies, replaced⟩ := Sample.exists_replaced_run
  refine ⟨_, after, run, ?_, pending, shown, ?_, replaced⟩
  · intro since
    obtain ⟨front, first, back, split, began, kept⟩ :=
      since [_, _] _ [] pending shown rfl (by rw [applies]; exact List.mem_singleton_self _)
    obtain ⟨_, rfl⟩ := Sample.begun_first split rfl applies began
    exact kept _ List.mem_cons_self ⟨_, rfl⟩
  · rw [eventsOf, List.flatMap_cons, List.flatMap_cons, List.flatMap_cons, begins, applies]
    rfl

end Session

end DependencyDiagram

import DependencyDiagram.Proofs.Session.Failures
import DependencyDiagram.Proofs.Session.History
import DependencyDiagram.Proofs.Session.Tickets

/-!
# Sessions show no outdated render

The history of a run explains what the session shows and which renders its tracker awaits. One event at a
time, the history stays lawful: a render that is begun gets a new generation, and a render that the
tracker accepts was begun last of all that happened to its view. So a run shows only renders that were
current when they were applied, in the order in which they were begun, and whatever is dropped or fails
leaves the shown views alone.

The session is looked at only through its tracker and its shown views. All other calls leave these two
alone, and so there are four events to consider in place of all calls with all their outcomes.
-/

namespace DependencyDiagram

namespace Session

namespace Step

/-- What happens to renders in a call. A render that is dropped is no event, since it changes nothing.
Showing a view at once is two events, for its render is begun and then applied, lost or cancelled. -/
def events (step : Step) : List Event :=
  match step.call with
  | .beginRender kind =>
    match (step.before.beginRender kind).1 with
    | .ok pending => [.begun pending]
    | .error _ => []
  | .completeRender pending output =>
    match (step.before.completeRender pending output).1 with
    | .ok (some shown) => [.applied pending shown]
    | .ok none => []
    | .error _ => [.lost pending]
  | .showView kind =>
    match step.before.beginRender kind with
    | (.error _, _) => []
    | (.ok pending, begun) => .begun pending ::
      match runRenderer pending.view begun.renderer with
      | .error _ => [.cancelled kind]
      | .ok _ =>
        match (step.before.showView kind).1 with
        | .ok shown => [.applied pending shown]
        | .error _ => [.lost pending]
  | .cancel kind => [.cancelled kind]
  | .reload _ | .setOptions _ | .filter _ | .updateFilter _ _ | .replaceRenderer _ => []

/-- A render that a call answers with was begun in the call. The answer of a call and its events are
computed side by side, and only the beginning of a render answers in this way. -/
theorem begun_mem_events {step : Step} {pending : PendingRender}
    (answered : step.answer = .begun pending) : .begun pending ∈ step.events := by
  obtain ⟨before, call⟩ := step
  cases call with
  | beginRender kind =>
    simp only [answer, perform, events, Prod.map_fst] at answered ⊢
    cases outcome : (before.beginRender kind).1 with
    | error failure =>
      rw [outcome] at answered
      cases answered
    | ok other =>
      rw [outcome] at answered
      obtain rfl := Answer.begun.inj answered
      exact List.mem_singleton_self _
  | filter kind =>
    simp only [answer, perform, Prod.map_fst] at answered
    cases outcome : (before.filter kind).1 <;> rw [outcome] at answered <;> cases answered
  | updateFilter kind filter =>
    simp only [answer, perform, Prod.map_fst] at answered
    cases outcome : (before.updateFilter kind filter).1 <;> rw [outcome] at answered <;> cases answered
  | completeRender other output =>
    simp only [answer, perform, Prod.map_fst] at answered
    rcases outcome : (before.completeRender other output).1 with _ | (_ | _) <;>
      rw [outcome] at answered <;> cases answered
  | showView kind =>
    simp only [answer, perform, Prod.map_fst] at answered
    cases outcome : (before.showView kind).1 <;> rw [outcome] at answered <;> cases answered
  | reload _ => cases answered
  | setOptions _ => cases answered
  | cancel _ => cases answered
  | replaceRenderer _ => cases answered

end Step

/-- What happens to renders in a run. -/
def eventsOf (steps : List Step) : List Event := steps.flatMap Step.events

namespace Desk

/-- The tracker and the shown views after an event. The ticket names the view, and the other views are
left as they are in each of the four cases. -/
def take (desk : Desk) : Event → Desk
  | .begun pending => { desk with tracker := (desk.tracker.begin pending.ticket.view).2 }
  | .applied pending shown => ⟨(desk.tracker.finish pending.ticket).2, fun other =>
      if other = pending.ticket.view then some shown else desk.shown other⟩
  | .lost pending => { desk with tracker := (desk.tracker.finish pending.ticket).2 }
  | .cancelled view => { desk with tracker := desk.tracker.cancel view }

/-- An event can happen: a render is begun with the ticket that the tracker gives, and is finished only
after it was begun and while it is awaited. For a cancellation there is no condition, for it may come at
any time, also for views without a render. -/
def Admits (history : List Event) (desk : Desk) : Event → Prop
  | .begun pending => pending.ticket = (desk.tracker.begin pending.ticket.view).1
  | .applied pending shown => .begun pending ∈ history ∧
      desk.tracker.accepts pending.ticket = true ∧ shown.view = pending.view
  | .lost pending => .begun pending ∈ history ∧ desk.tracker.accepts pending.ticket = true
  | .cancelled _ => True

/-- Events can happen one after the other, and lead from one desk to another. -/
def Leads (history : List Event) (desk : Desk) : List Event → Desk → Prop
  | [], last => last = desk
  | event :: rest, last => desk.Admits history event ∧ (desk.take event).Leads (history ++ [event]) rest last

end Desk

namespace Desk

variable {desk : Desk} {event : Event} {view : ViewKind}

/-- An event leaves the tracker's slots of other views alone. -/
theorem slot_take_of_ne (other : event.view ≠ view) :
    (desk.take event).tracker.slot view = desk.tracker.slot view := by
  cases event with
  | begun pending => exact if_neg (Ne.symm other)
  | applied pending shown => exact Tracker.slot_finish_of_ne other
  | lost pending => exact Tracker.slot_finish_of_ne other
  | cancelled cancelled => exact Tracker.slot_cancel_of_ne other

/-- What an event leaves in the slot of its view. A beginning fills it, what finishes a render takes only
the mark, and a cancellation finds a slot or leaves none. Generations never go down here, and only a
beginning sets the mark. -/
def slotAfter (desk : Desk) : Event → Option RenderSlot
  | .begun pending => some ⟨desk.tracker.generation pending.ticket.view + 1, true⟩
  | .applied pending _ | .lost pending =>
    some ⟨desk.tracker.generation pending.ticket.view, false⟩
  | .cancelled view => (desk.tracker.slot view).map (fun slot => ⟨slot.generation + 1, false⟩)

/-- Finishing the awaited render of a view keeps the generation, and nothing is awaited for the view
any more. -/
theorem slot_finish {tracker : Tracker} {ticket : Ticket} (accepted : tracker.accepts ticket = true) :
    (tracker.finish ticket).2.slot ticket.view = some ⟨tracker.generation ticket.view, false⟩ := by
  rw [Tracker.finish, if_pos accepted, Tracker.generation, Tracker.accepts_iff.mp accepted]
  exact if_pos rfl

/-- An event that can happen leaves its view with the slot that is said for it. -/
theorem slot_take_self {history : List Event} (admits : desk.Admits history event) :
    (desk.take event).tracker.slot event.view = desk.slotAfter event := by
  cases event with
  | begun pending => exact if_pos rfl
  | applied pending shown => exact slot_finish admits.2.1
  | lost pending => exact slot_finish admits.2
  | cancelled view => exact Tracker.slot_cancel desk.tracker view

/-- A render that is finished has a slot. -/
theorem isSome_slot_of_accepts {ticket : Ticket} (accepted : desk.tracker.accepts ticket = true) :
    (desk.tracker.slot ticket.view).isSome = true := by
  rw [Tracker.accepts_iff.mp accepted]
  rfl

/-- After an event a ticket of its view is accepted only if the event is the beginning of the
ticket's render. -/
theorem accepts_take_self {history : List Event} (admits : desk.Admits history event)
    {ticket : Ticket} (same : ticket.view = event.view) :
    (desk.take event).tracker.accepts ticket = true ↔
      ∃ pending, event = .begun pending ∧ pending.ticket = ticket := by
  rw [Tracker.accepts_iff, same, slot_take_self admits]
  cases event with
  | begun pending =>
    have issued : pending.ticket = (desk.tracker.begin pending.ticket.view).1 := admits
    simp only [slotAfter, Option.some.injEq, RenderSlot.mk.injEq, and_true, Event.begun.injEq,
      exists_eq_left']
    constructor
    · intro raised
      obtain ⟨view, generation⟩ := ticket
      obtain rfl : view = pending.ticket.view := same
      exact issued.trans (congrArg (Ticket.mk _) raised)
    · rintro rfl
      exact (congrArg Ticket.generation issued).symm
  | applied pending shown => simp [slotAfter]
  | lost pending => simp [slotAfter]
  | cancelled view => simp [slotAfter]

/-- An event gives its view a slot by beginning a render, and takes none away. -/
theorem isSome_slot_take {history : List Event} (admits : desk.Admits history event) :
    ((desk.take event).tracker.slot view).isSome = true ↔
      event.begins view = true ∨ (desk.tracker.slot view).isSome = true := by
  by_cases same : event.view = view
  · subst same
    rw [slot_take_self admits]
    cases event with
    | begun pending => simp [slotAfter, Event.begins, Event.view]
    | applied pending shown => simp [slotAfter, Event.view, isSome_slot_of_accepts admits.2.1]
    | lost pending => simp [slotAfter, Event.view, isSome_slot_of_accepts admits.2]
    | cancelled view => simp [slotAfter, Event.begins, Event.view]
  · rw [slot_take_of_ne same]
    cases event <;> simp_all [Event.begins, Event.view]

/-- An event raises the generation of its view by beginning a render, or by cancelling one where the
view has a slot. -/
theorem generation_take {history : List Event} (admits : desk.Admits history event) :
    (desk.take event).tracker.generation view = desk.tracker.generation view +
      if event.renews view ∧ (event.begins view ∨ (desk.tracker.slot view).isSome) then 1 else 0 := by
  by_cases same : event.view = view
  · subst same
    rw [Tracker.generation, slot_take_self admits]
    cases event with
    | begun pending => simp [slotAfter, Event.begins, Event.renews, Event.view]
    | applied pending shown => simp [slotAfter, Event.renews, Event.view]
    | lost pending => simp [slotAfter, Event.renews, Event.view]
    | cancelled view =>
      cases held : desk.tracker.slot view <;>
        simp [slotAfter, Event.begins, Event.renews, Event.view, Tracker.generation, held]
  · rw [Tracker.generation, slot_take_of_ne same, Tracker.generation]
    cases event <;> simp_all [Event.renews, Event.view]

/-- An event shows the view that it applies, and leaves all else shown as it was. -/
theorem shown_take :
    (desk.take event).shown view =
      ((event.applied? view).map Prod.snd).or (desk.shown view) := by
  cases event with
  | begun pending => rfl
  | applied pending shown =>
    simp only [take, Event.applied?]
    by_cases same : view = pending.ticket.view
    · rw [if_pos same, if_pos same.symm]
      rfl
    · rw [if_neg same, if_neg (Ne.symm same)]
      rfl
  | lost pending => rfl
  | cancelled view => rfl

end Desk

/-- A lawful history explains what is shown and what is awaited. This is the invariant of a run. The desk
is determined by the history: what is shown is what was applied last, the generation is the number of
renewals, and the mark is set exactly while the last event of the view is a beginning. An event that the
desk admits keeps the invariant, whichever of the four it is. -/
structure Explains (events : List Event) (desk : Desk) : Prop where
  lawful : Throughout Lawful events
  shown : ∀ view, desk.shown view = (appliedOf view events).getLast?.map Prod.snd
  /-- A view has a slot from its first render on. -/
  started : ∀ view, (desk.tracker.slot view).isSome = true ↔ begunOf view events ≠ []
  generation : ∀ view, desk.tracker.generation view = renewals view events
  /-- The ticket that is accepted for a view is that of the render begun last. -/
  awaited : ∀ ticket, desk.tracker.accepts ticket = true →
    ∃ pending, pending.ticket = ticket ∧ JustBegun pending events
  /-- A render is awaited until something else happens to its view. -/
  kept : ∀ pending, JustBegun pending events → desk.tracker.accepts pending.ticket = true

/-- Nothing has happened to a session at its beginning. -/
theorem explains_start (data : ViewData) (store : Store) (renderer : Renderer) (styles : Styles) :
    Explains [] (start data store renderer styles).desk where
  lawful := throughout_nil
  shown _ := rfl
  started _ := by simp [start, desk, Tracker.idle, begunOf]
  generation _ := rfl
  awaited _ impossible := nomatch impossible
  kept pending just := by
    obtain ⟨earlier, later, split, _⟩ := just
    cases earlier <;> cases split

namespace Explains

variable {history : List Event} {desk : Desk} {pending : PendingRender}

/-- The render that the tracker accepts was begun last of all that happened to its view. -/
theorem justBegun_of_accepts (explains : Explains history desk) (begun : .begun pending ∈ history)
    (accepted : desk.tracker.accepts pending.ticket = true) : JustBegun pending history := by
  obtain ⟨other, same, just⟩ := explains.awaited pending.ticket accepted
  have listed : .begun other ∈ history := by
    obtain ⟨earlier, later, rfl, _⟩ := just
    exact List.mem_append_right _ List.mem_cons_self
  rwa [← explains.lawful.begun_unique listed begun same]

/-- An event that can happen is lawful. -/
theorem lawful_of_admits (explains : Explains history desk) {event : Event}
    (admits : desk.Admits history event) : Lawful history event := by
  cases event with
  | begun pending =>
    have ticket : pending.ticket = (desk.tracker.begin pending.ticket.view).1 := admits
    have numbered := congrArg Ticket.generation ticket
    change pending.ticket.generation = renewals pending.ticket.view history + 1
    rw [← explains.generation pending.ticket.view]
    exact numbered
  | applied pending shown => exact ⟨admits.2.2, explains.justBegun_of_accepts admits.1 admits.2.1⟩
  | lost pending => exact explains.justBegun_of_accepts admits.1 admits.2
  | cancelled view => trivial

/-- An event leaves the tickets of other views accepted as they were. -/
theorem accepts_elsewhere {event : Event} {ticket : Ticket} (other : event.view ≠ ticket.view) :
    (desk.take event).tracker.accepts ticket = desk.tracker.accepts ticket :=
  Tracker.accepts_congr (Desk.slot_take_of_ne other)

/-- What a history explains, it explains after one more event that can happen. One field for each thing
that a history explains. Tickets of other views are untouched by an event, and of its own view an event
leaves at most the ticket of the render that it begins. -/
theorem concat (explains : Explains history desk) {event : Event}
    (admits : desk.Admits history event) : Explains (history ++ [event]) (desk.take event) where
  lawful := explains.lawful.concat (explains.lawful_of_admits admits)
  shown view := by
    rw [Desk.shown_take, appliedOf_append, explains.shown view]
    cases applied : event.applied? view with
    | none => simp [appliedOf, applied]
    | some entry => simp [appliedOf, applied]
  started view := by
    rw [Desk.isSome_slot_take admits, explains.started, begunOf_ne_nil_iff, begunOf_ne_nil_iff]
    simp [or_and_right, exists_or, or_comm]
  generation view := by
    rw [Desk.generation_take admits, explains.generation, renewals_concat]
    simp only [explains.started]
  awaited ticket accepted := by
    by_cases same : event.view = ticket.view
    · obtain ⟨pending, rfl, rfl⟩ := (Desk.accepts_take_self admits same.symm).mp accepted
      exact ⟨pending, rfl, justBegun_concat⟩
    · rw [accepts_elsewhere same] at accepted
      obtain ⟨pending, rfl, just⟩ := explains.awaited ticket accepted
      exact ⟨pending, rfl, just.concat same⟩
  kept pending just := by
    rcases justBegun_concat_iff.mp just with rfl | ⟨before, other⟩
    · exact (Desk.accepts_take_self admits rfl).mpr ⟨pending, rfl, rfl⟩
    · rw [accepts_elsewhere other]
      exact explains.kept pending before

/-- What a history explains, it explains after more events that can happen. -/
theorem append (explains : Explains history desk) {events : List Event} {last : Desk}
    (leads : desk.Leads history events last) : Explains (history ++ events) last := by
  induction events generalizing history desk with
  | nil =>
    obtain rfl : last = desk := leads
    rwa [List.append_nil]
  | cons event rest inductionHypothesis =>
    obtain ⟨admits, further⟩ := leads
    have after := inductionHypothesis (explains.concat admits) further
    rwa [List.append_assoc, List.singleton_append] at after

end Explains

variable {session after : Session} {kind : ViewKind} {pending : PendingRender} {failure : Failure}
  {output : RenderOutput} {history : List Event}

/-- A render that is begun has the ticket that the tracker gives for the view. -/
theorem begun_of_beginRender (history : List Event)
    (began : session.beginRender kind = (.ok pending, after)) :
    session.desk.Admits history (.begun pending) ∧ pending.ticket.view = kind ∧
      after.desk = session.desk.take (.begun pending) := by
  rcases desk_beginRender session kind with ⟨other, _, here, ticket, tracked⟩ | ⟨_, _, here, _⟩
  · obtain ⟨same, rfl⟩ := Prod.mk.inj (began.symm.trans here)
    obtain rfl := Except.ok.inj same
    have view : pending.ticket.view = kind := congrArg Ticket.view ticket
    refine ⟨?_, view, ?_⟩
    · change pending.ticket = (session.tracker.begin pending.ticket.view).1
      rw [view]
      exact ticket
    · rw [tracked, Desk.take, view]
      rfl
  · cases (Prod.mk.inj (began.symm.trans here)).1

/-- A render that cannot be begun leaves tracker and shown views alone. -/
theorem desk_of_beginRender_error (failed : session.beginRender kind = (.error failure, after)) :
    after.desk = session.desk := by
  rcases desk_beginRender session kind with ⟨_, _, here, _⟩ | ⟨_, _, here, same⟩
  · cases (Prod.mk.inj (failed.symm.trans here)).1
  · rwa [(Prod.mk.inj (failed.symm.trans here)).2]

/-- A render whose output cannot be read was awaited and is lost. -/
theorem lost_of_completeRender
    (failed : session.completeRender pending output = (.error failure, after)) :
    session.tracker.accepts pending.ticket = true ∧ after.desk = session.desk.take (.lost pending) := by
  rcases desk_completeRender session pending output with
    ⟨_, here⟩ | ⟨accepted, _, ⟨_, here, lost⟩ | ⟨_, here, _⟩⟩
  · cases (Prod.mk.inj (failed.symm.trans here)).1
  · rw [(Prod.mk.inj (failed.symm.trans here)).2]
    exact ⟨accepted, lost⟩
  · cases (Prod.mk.inj (failed.symm.trans here)).1

/-- A render that is completed was awaited and is applied. -/
theorem applied_of_completeRender {shown : ShownView}
    (completed : session.completeRender pending output = (.ok (some shown), after)) :
    session.tracker.accepts pending.ticket = true ∧ shown.view = pending.view ∧
      after.desk = session.desk.take (.applied pending shown) := by
  rcases desk_completeRender session pending output with
    ⟨_, here⟩ | ⟨accepted, _, ⟨_, here, _⟩ | ⟨_, here, same, applied⟩⟩
  · cases (Prod.mk.inj (completed.symm.trans here)).1
  · cases (Prod.mk.inj (completed.symm.trans here)).1
  · obtain ⟨found, rfl⟩ := Prod.mk.inj (completed.symm.trans here)
    obtain rfl := Option.some.inj (Except.ok.inj found)
    exact ⟨accepted, same, applied⟩

/-- A render that is dropped was not awaited, and nothing changes. -/
theorem dropped_of_completeRender
    (dropped : session.completeRender pending output = (.ok none, after)) : after = session := by
  rcases desk_completeRender session pending output with
    ⟨_, here⟩ | ⟨_, _, ⟨_, here, _⟩ | ⟨_, here, _⟩⟩
  · exact (Prod.mk.inj (dropped.symm.trans here)).2
  · cases (Prod.mk.inj (dropped.symm.trans here)).1
  · cases (Prod.mk.inj (dropped.symm.trans here)).1

/-- Showing a view begins a render, and then applies, loses or cancels it. All this happens within one
call, so the later event is admitted because the earlier one has just happened: the render that is
completed is the one that was begun. -/
theorem leads_showView (session : Session) (kind : ViewKind) (history : List Event) :
    session.desk.Leads history (Step.mk session (.showView kind)).events
      (session.showView kind).2.desk := by
  rcases showView_cases session kind with ⟨failure, after, here, shown⟩ |
    ⟨pending, begun, here, outcome⟩
  · simp only [Step.events, here, shown]
    exact desk_of_beginRender_error here
  · obtain ⟨admits, view, taken⟩ := begun_of_beginRender history here
    simp only [Step.events, here]
    refine ⟨admits, ?_⟩
    have listed : .begun pending ∈ history ++ [.begun pending] :=
      List.mem_append_right _ (List.mem_singleton_self _)
    rw [← taken]
    rcases outcome with ⟨failure, ran, shown⟩ | ⟨output, ran, ⟨failure, after, done, shown⟩ |
      ⟨view, after, done, shown⟩⟩
    · simp only [ran, shown]
      exact ⟨trivial, rfl⟩
    · simp only [ran, shown]
      obtain ⟨accepted, lost⟩ := lost_of_completeRender done
      exact ⟨⟨listed, accepted⟩, lost⟩
    · simp only [ran, shown]
      obtain ⟨accepted, same, applied⟩ := applied_of_completeRender done
      exact ⟨⟨listed, accepted, same⟩, applied⟩

/-- The events of a call can happen, and lead from the session before it to the session after it. The
calls that touch neither tracker nor shown views have no events. For the completion of a render it has to
be known that the render was begun, which is what makes a list of calls a run. -/
theorem Step.leads (step : Step) (history : List Event)
    (begun : ∀ pending output, step.call = .completeRender pending output →
      .begun pending ∈ history) :
    step.before.desk.Leads history step.events step.after.desk := by
  obtain ⟨session, call⟩ := step
  cases call with
  | reload data => rfl
  | setOptions options => rfl
  | filter kind => exact desk_filter session kind
  | updateFilter kind filter => exact desk_updateFilter session kind filter
  | replaceRenderer renderer => rfl
  | cancel kind => exact ⟨trivial, rfl⟩
  | showView kind => exact leads_showView session kind history
  | beginRender kind =>
    simp only [events, Step.after, perform, Prod.map_snd, id_eq]
    rcases here : session.beginRender kind with ⟨failure | pending, after⟩
    · exact desk_of_beginRender_error here
    · obtain ⟨admits, _, taken⟩ := begun_of_beginRender _ here
      exact ⟨admits, taken⟩
  | completeRender pending output =>
    have listed := begun pending output rfl
    simp only [events, Step.after, perform, Prod.map_snd, id_eq]
    rcases here : session.completeRender pending output with ⟨failure | (_ | shown), after⟩
    · obtain ⟨accepted, lost⟩ := lost_of_completeRender here
      exact ⟨⟨listed, accepted⟩, lost⟩
    · exact congrArg desk (dropped_of_completeRender here)
    · obtain ⟨accepted, same, applied⟩ := applied_of_completeRender here
      exact ⟨⟨listed, accepted, same⟩, applied⟩

/-- The history of a run explains what the session shows and awaits. -/
theorem explains_of_run {data : ViewData} {store : Store} {renderer : Renderer} {styles : Styles}
    {steps : List Step} (run : Run (start data store renderer styles) steps session) :
    Explains (eventsOf steps) session.desk := by
  induction run with
  | start => exact explains_start data store renderer styles
  | @next steps session call before begun inductionHypothesis =>
    have known : ∀ pending output, call = .completeRender pending output →
        .begun pending ∈ eventsOf steps := by
      intro pending output same
      obtain ⟨step, listed, answered⟩ := begun pending output same
      exact List.mem_flatMap.mpr ⟨step, listed, Step.begun_mem_events answered⟩
    have explained := inductionHypothesis.append
      (Step.leads ⟨session, call⟩ (eventsOf steps) known)
    rw [eventsOf, List.flatMap_append, List.flatMap_singleton]
    exact explained

/-- A call that is refused leaves the shown views alone. Only completing a render and showing a view can
change what is shown, and they do when they answer with it. -/
theorem shown_of_refusal {step : Step} (refused : step.answer.IsRefusal) :
    step.after.shown = step.before.shown := by
  obtain ⟨session, call⟩ := step
  simp only [Step.answer, Step.after] at refused ⊢
  cases call with
  | reload data => rfl
  | setOptions options => rfl
  | filter kind => exact congrArg Desk.shown (desk_filter session kind)
  | updateFilter kind filter => exact congrArg Desk.shown (desk_updateFilter session kind filter)
  | replaceRenderer renderer => rfl
  | cancel kind => rfl
  | beginRender kind =>
    simp only [perform, Prod.map_fst, Prod.map_snd, id_eq] at refused ⊢
    rcases here : session.beginRender kind with ⟨failure | pending, after⟩
    · exact congrArg Desk.shown (desk_of_beginRender_error here)
    · exact congrArg Desk.shown (begun_of_beginRender [] here).2.2
  | completeRender pending output =>
    simp only [perform, Prod.map_fst, Prod.map_snd, id_eq] at refused ⊢
    rcases here : session.completeRender pending output with ⟨failure | (_ | shown), after⟩
    · exact congrArg Desk.shown (lost_of_completeRender here).2
    · exact congrArg Session.shown (dropped_of_completeRender here)
    · rw [here] at refused
      exact refused.elim
  | showView kind =>
    simp only [perform, Prod.map_fst, Prod.map_snd, id_eq] at refused ⊢
    rcases showView_cases session kind with ⟨failure, after, here, shown⟩ |
      ⟨pending, begun, here, outcome⟩
    · rw [shown]
      exact congrArg Desk.shown (desk_of_beginRender_error here)
    · have began := congrArg Desk.shown (begun_of_beginRender [] here).2.2
      rcases outcome with ⟨failure, _, shown⟩ | ⟨_, _, ⟨failure, after, done, shown⟩ |
        ⟨view, after, _, shown⟩⟩
      · rw [shown]
        exact began
      · rw [shown]
        exact (congrArg Desk.shown (lost_of_completeRender done).2).trans began
      · rw [shown] at refused
        exact refused.elim

/-- A run passes through the sessions on which its calls are made. -/
theorem Run.reaches_before {start : Session} {earlier later : List Step} {step : Step}
    (run : Run start (earlier ++ step :: later) session) : Run start earlier step.before := by
  generalize whole : earlier ++ step :: later = steps at run
  induction run generalizing later with
  | start => cases earlier <;> cases whole
  | @next steps session call before begun inductionHypothesis =>
    rcases List.eq_nil_or_concat later with rfl | ⟨front, last, rfl⟩
    · obtain ⟨rfl, same⟩ := List.append_inj' whole rfl
      obtain rfl := List.singleton_inj.mp same
      exact before
    · rw [List.concat_eq_append, ← List.cons_append, ← List.append_assoc] at whole
      exact inductionHypothesis (List.append_inj' whole rfl).1

/-- A session never shows an outdated render. What counts as outdated is said by the events of the run,
in the order in which they happened, and not by the numbers that the tracker keeps. A render is outdated
once another render of its view was begun or the view was cancelled, and no generation is needed to say
so.

The last two parts are about the numbers after all. They say how generations come about, so that a bound
on the length of a run is one on the generations. -/
structure NeverOutdated (steps : List Step) (session : Session) : Prop where
  /-- A render is applied only while its beginning is the last thing that happened to its view, and
  not a second time. -/
  current : ∀ before pending shown after,
    eventsOf steps = before ++ .applied pending shown :: after →
      shown.view = pending.view ∧ JustBegun pending before ∧
        ∀ other earlier, .applied other earlier ∈ before → other.ticket ≠ pending.ticket
  /-- No two renders have one ticket. -/
  distinct : ∀ view, ((begunOf view (eventsOf steps)).map PendingRender.ticket).Nodup
  /-- Renders of a view are applied in the order in which they were begun. -/
  ordered : ∀ view,
    ((appliedOf view (eventsOf steps)).map Prod.fst).Sublist (begunOf view (eventsOf steps))
  /-- What is shown later was begun later. -/
  forward : ∀ earlier later, steps = earlier ++ later → ∀ view first last,
    (appliedOf view (eventsOf earlier)).getLast? = some first →
      (appliedOf view (eventsOf steps)).getLast? = some last →
        last = first ∨ [first.1, last.1].Sublist (begunOf view (eventsOf steps))
  /-- What is shown for a view is what was applied last. -/
  shown : ∀ view, session.shown view = (appliedOf view (eventsOf steps)).getLast?.map Prod.snd
  /-- It was so before every call. -/
  always : ∀ earlier step later, steps = earlier ++ step :: later → ∀ view,
    step.before.shown view = (appliedOf view (eventsOf earlier)).getLast?.map Prod.snd
  /-- A call of which nothing came leaves the shown views as they were. -/
  refusal : ∀ step ∈ steps, step.answer.IsRefusal → step.after.shown = step.before.shown
  /-- A render whose view cannot be built is not begun, so that an earlier one stays awaited. -/
  failure : ∀ step ∈ steps, ∀ kind failure, step.call = .beginRender kind →
    step.answer = .failed failure → step.after.tracker = step.before.tracker
  /-- A view that is shown at once is not superseded while this is done. -/
  synchronous : ∀ step ∈ steps, ∀ kind, step.call = .showView kind →
    step.answer ≠ .failed superseded
  /-- The generation of a view counts its renders and, from the first of them on, its
  cancellations. -/
  counted : ∀ view, session.tracker.generation view = renewals view (eventsOf steps)
  /-- So generations stay below any bound that the number of these steps of the tracker does. -/
  bounded : ∀ view, session.tracker.generation view ≤ (eventsOf steps).countP (Event.renews view)

/-- A call that begins a render and fails leaves the tracker alone. -/
theorem tracker_of_failure {step : Step} (called : step.call = .beginRender kind)
    (answered : step.answer = .failed failure) : step.after.tracker = step.before.tracker := by
  obtain ⟨session, call⟩ := step
  obtain rfl : call = .beginRender kind := called
  simp only [Step.answer, Step.after, perform, Prod.map_fst, Prod.map_snd, id_eq] at answered ⊢
  rcases here : session.beginRender kind with ⟨other | pending, after⟩
  · exact congrArg Desk.tracker (desk_of_beginRender_error here)
  · rw [here] at answered
    cases answered

/-- A call that shows a view never answers that its render was superseded. -/
theorem answer_ne_superseded {step : Step} (called : step.call = .showView kind) :
    step.answer ≠ .failed superseded := by
  obtain ⟨session, call⟩ := step
  obtain rfl : call = .showView kind := called
  have never := showView_ne_superseded session kind
  simp only [Step.answer, perform, Prod.map_fst]
  intro answered
  cases outcome : (session.showView kind).1 with
  | ok shown =>
    rw [outcome] at answered
    cases answered
  | error failure =>
    rw [outcome] at answered
    obtain rfl := Answer.failed.inj answered
    exact never outcome

/-- No run of a session shows an outdated render. A run may mix the views and complete renders in any
order, more than once, with any output, and under a renderer that changes between two calls.

The proof goes along the run by the invariant that the history explains the desk. What is said of renders
is then read off the history, where it is a fact about lists of events. -/
theorem run_never_outdated {data : ViewData} {store : Store} {renderer : Renderer}
    {styles : Styles} {steps : List Step} (run : Run (start data store renderer styles) steps session) :
    NeverOutdated steps session := by
  have explains := explains_of_run run
  exact {
    current := by
      intro before pending shown after split
      obtain ⟨same, just⟩ := explains.lawful before _ after split
      have earlier : Throughout Lawful before := Throughout.of_append (split ▸ explains.lawful)
      exact ⟨same, just, fun other view applied => earlier.not_applied_before just applied⟩
    distinct := by
      intro view
      refine List.pairwise_map.mpr (explains.lawful.generations_increase.imp ?_)
      exact fun increase same => absurd (congrArg Ticket.generation same) (Nat.ne_of_lt increase)
    ordered := fun view => explains.lawful.applied_sublist
    forward := by
      rintro earlier later rfl view first last before now
      have lawful := explains.lawful
      rw [eventsOf, List.flatMap_append] at lawful now ⊢
      exact lawful.last_applied before now
    shown := explains.shown
    always := by
      rintro earlier step later rfl view
      exact (explains_of_run run.reaches_before).shown view
    refusal := fun step _ => shown_of_refusal
    failure := fun step _ kind failure => tracker_of_failure
    synchronous := fun step _ kind => answer_ne_superseded
    counted := explains.generation
    bounded := fun view => Nat.le_trans (Nat.le_of_eq (explains.generation view)) renewals_le }

namespace Sample

/-- A session without any data, whose renderer answers with an empty text. -/
def emptySession : Session := start ⟨Reflection.empty, []⟩ .empty (fun _ _ => .ok "") .plain

/-- Two renders of one view are begun and completed in the same order; the first is dropped and the
second is shown. -/
def dropsFirst (session : Session) (kind : ViewKind) : Bool :=
  match session.beginRender kind with
  | (.ok first, once) =>
    match once.beginRender kind with
    | (.ok second, twice) =>
      match twice.completeRender first ⟨"", ""⟩ with
      | (.ok none, after) =>
        match after.completeRender second ⟨"", ""⟩ with
        | (.ok (some _), _) => true
        | _ => false
      | _ => false
    | _ => false
  | _ => false

/-- The four calls of such a sequence. -/
theorem exists_of_dropsFirst {kind : ViewKind} (drops : dropsFirst session kind = true) :
    ∃ first once second twice after shown last,
      session.beginRender kind = (.ok first, once) ∧ once.beginRender kind = (.ok second, twice) ∧
        twice.completeRender first ⟨"", ""⟩ = (.ok none, after) ∧
        after.completeRender second ⟨"", ""⟩ = (.ok (some shown), last) := by
  unfold dropsFirst at drops
  split at drops <;> [skip; cases drops]
  split at drops <;> [skip; cases drops]
  split at drops <;> [skip; cases drops]
  split at drops <;> [skip; cases drops]
  exact ⟨_, _, _, _, _, _, _, ‹_›, ‹_›, ‹_›, ‹_›⟩

end Sample

/-- In the sample the render that was begun first is completed when it is outdated and dropped, and
the render begun second is shown. -/
theorem outdated_sample_dropped :
    ∃ first second shown steps session, Run Sample.emptySession steps session ∧
      steps.map Step.call = [.beginRender .references, .beginRender .references,
        .completeRender first ⟨"", ""⟩, .completeRender second ⟨"", ""⟩] ∧
      steps.map Step.answer = [.begun first, .begun second, .dropped, .shown shown] ∧
      NeverOutdated steps session := by
  have drops : Sample.dropsFirst Sample.emptySession .references = true := by decide
  obtain ⟨first, once, second, twice, after, shown, last, began, beganAgain, dropped, completed⟩ :=
    Sample.exists_of_dropsFirst drops
  have firstAnswer : Sample.emptySession.perform (.beginRender .references) = (.begun first, once) := by
    rw [perform, began]
    rfl
  have secondAnswer : once.perform (.beginRender .references) = (.begun second, twice) := by
    rw [perform, beganAgain]
    rfl
  have thirdAnswer : twice.perform (.completeRender first ⟨"", ""⟩) = (.dropped, after) := by
    rw [perform, dropped]
    rfl
  have fourthAnswer : after.perform (.completeRender second ⟨"", ""⟩) = (.shown shown, last) := by
    rw [perform, completed]
    rfl
  have none : Run Sample.emptySession [] Sample.emptySession := .start
  have one := none.next (.beginRender .references) (fun _ _ same => nomatch same)
  rw [firstAnswer] at one
  have two := one.next (.beginRender .references) (fun _ _ same => nomatch same)
  rw [secondAnswer] at two
  have three := two.next (.completeRender first ⟨"", ""⟩) (by
    rintro _ _ ⟨⟩
    exact ⟨⟨Sample.emptySession, .beginRender .references⟩, by simp, congrArg Prod.fst firstAnswer⟩)
  rw [thirdAnswer] at three
  have four := three.next (.completeRender second ⟨"", ""⟩) (by
    rintro _ _ ⟨⟩
    exact ⟨⟨once, .beginRender .references⟩, by simp, congrArg Prod.fst secondAnswer⟩)
  rw [fourthAnswer] at four
  refine ⟨first, second, shown, _, last, four, rfl, ?_, run_never_outdated four⟩
  simp [Step.answer, firstAnswer, secondAnswer, thirdAnswer, fourthAnswer]

end Session

end DependencyDiagram

import DependencyDiagram.Session.Basic
import Mathlib.Data.List.Nodup
import Mathlib.Data.List.Induction
import Mathlib.Data.List.TakeWhile

/-!
# Histories of renders

A history tells what happened to renders, event by event: which were begun, which were applied, which
were finished although their output was lost, and for which views renders were cancelled. In a lawful
history every render has a generation of its own, and a render is applied only while its beginning is the
last thing that happened to its view. It follows that renders of a view are applied in the order in which
they were begun, each at most once.

The generation of a render counts what was begun and cancelled for its view. A cancellation counts only
after the first beginning of the view, since before that there is nothing to cancel.

Nothing here mentions a session or a tracker. The facts are about lists of events, by induction on the
history from its end, where the newest event is.
-/

namespace DependencyDiagram

namespace Session

/-- Something that happens to a render. A render that is finished when nobody awaits it leaves no trace,
so there is no event for it. -/
inductive Event where
  | begun (pending : PendingRender)
  | applied (pending : PendingRender) (shown : ShownView)
  /-- The render is finished, but its output cannot be read. -/
  | lost (pending : PendingRender)
  | cancelled (view : ViewKind)

namespace Event

/-- The view to which the event happens. -/
def view : Event → ViewKind
  | begun pending | applied pending _ | lost pending => pending.ticket.view
  | cancelled view => view

/-- The event begins a render of the view. -/
def begins (view : ViewKind) : Event → Bool
  | begun pending => pending.ticket.view = view
  | _ => false

/-- The event gives the view a new generation, if the view has one at all. A render that is applied or
lost stays in its generation. -/
def renews (view : ViewKind) : Event → Bool
  | begun pending => pending.ticket.view = view
  | cancelled other => other = view
  | _ => false

/-- The render of the view that is begun. -/
def begun? (view : ViewKind) : Event → Option PendingRender
  | begun pending => if pending.ticket.view = view then some pending else none
  | _ => none

/-- The render of the view that is applied, with what is shown from then on. -/
def applied? (view : ViewKind) : Event → Option (PendingRender × ShownView)
  | applied pending shown => if pending.ticket.view = view then some (pending, shown) else none
  | _ => none

end Event

/-- The renders of a view in the order in which they were begun. -/
def begunOf (view : ViewKind) (events : List Event) : List PendingRender :=
  events.filterMap (Event.begun? view)

/-- The renders of a view in the order in which they were applied. -/
def appliedOf (view : ViewKind) (events : List Event) : List (PendingRender × ShownView) :=
  events.filterMap (Event.applied? view)

/-- How many new generations the view was given: one by every render that was begun and one by every
cancellation, from the first render of the view on. What comes before the first beginning is cut off,
since a view without a render has nothing that a cancellation could outdate. -/
def renewals (view : ViewKind) (events : List Event) : Nat :=
  (events.dropWhile (fun event => !event.begins view)).countP (Event.renews view)

/-- The render's beginning is the last thing that happened to its view. Events of other views may follow;
events of the same view, also its own completion, may not. So at most one render of a view is in this
position. -/
def JustBegun (pending : PendingRender) (events : List Event) : Prop :=
  ∃ earlier later, events = earlier ++ .begun pending :: later ∧
    ∀ event ∈ later, event.view ≠ pending.ticket.view

/-- Something holds of every event and the events before it. The condition sees the past of an event and
nothing of its future, as a rule does that was checked when the event happened. -/
def Throughout (holds : List Event → Event → Prop) (events : List Event) : Prop :=
  ∀ before event after, events = before ++ event :: after → holds before event

/-- A render that is begun gets the next generation of its view, and one that is applied was begun last.
Cancellations are lawful at any time. From this rule alone it follows that tickets are distinct and that
renders are applied in order. -/
def Lawful (before : List Event) : Event → Prop
  | .begun pending => pending.ticket.generation = renewals pending.ticket.view before + 1
  | .applied pending shown => shown.view = pending.view ∧ JustBegun pending before
  | .lost pending => JustBegun pending before
  | .cancelled _ => True

variable {holds : List Event → Event → Prop} {events first second : List Event} {view : ViewKind}
  {pending : PendingRender}

/-- Nothing happened at the beginning. -/
theorem throughout_nil : Throughout holds [] := by
  intro before event after split
  cases before <;> cases split

/-- What holds of a whole history holds of its beginnings. -/
theorem Throughout.of_append (whole : Throughout holds (first ++ second)) : Throughout holds first := by
  intro before event after split
  exact whole before event (after ++ second) (by rw [split, List.append_assoc, List.cons_append])

/-- A history is continued by one event for which the same holds. -/
theorem Throughout.concat {event : Event} (until_now : Throughout holds events)
    (here : holds events event) : Throughout holds (events ++ [event]) := by
  intro before other after split
  rcases List.eq_nil_or_concat after with rfl | ⟨front, last, rfl⟩
  · obtain ⟨rfl, same⟩ := List.append_inj' split rfl
    obtain ⟨rfl, _⟩ := List.cons.inj same
    exact here
  · rw [List.concat_eq_append, ← List.cons_append, ← List.append_assoc] at split
    exact until_now before other front (List.append_inj' split rfl).1

/-- What holds throughout a history holds of its last event. -/
theorem Throughout.last {event : Event} (whole : Throughout holds (events ++ [event])) :
    holds events event := whole events event [] rfl

/-- The begun renders of two histories, one after the other. -/
theorem begunOf_append : begunOf view (first ++ second) = begunOf view first ++ begunOf view second :=
  List.filterMap_append

/-- The applied renders of two histories, one after the other. -/
theorem appliedOf_append :
    appliedOf view (first ++ second) = appliedOf view first ++ appliedOf view second :=
  List.filterMap_append

/-- A render is among those of a view exactly when it was begun for the view. -/
theorem mem_begunOf : pending ∈ begunOf view events ↔
    .begun pending ∈ events ∧ pending.ticket.view = view := by
  constructor
  · intro listed
    obtain ⟨event, present, here⟩ := List.mem_filterMap.mp listed
    cases event with
    | begun other =>
      rw [Event.begun?] at here
      split at here
      · obtain rfl := Option.some.inj here
        exact ⟨present, ‹_›⟩
      · cases here
    | applied _ _ => cases here
    | lost _ => cases here
    | cancelled _ => cases here
  · rintro ⟨present, same⟩
    exact List.mem_filterMap.mpr ⟨_, present, if_pos same⟩

/-- Renders of a view were begun exactly when some event began one. -/
theorem begunOf_ne_nil_iff : begunOf view events ≠ [] ↔ ∃ event ∈ events, event.begins view = true := by
  constructor
  · intro some
    obtain ⟨pending, listed⟩ := List.exists_mem_of_ne_nil _ some
    obtain ⟨present, rfl⟩ := mem_begunOf.mp listed
    exact ⟨_, present, decide_eq_true rfl⟩
  · rintro ⟨event, present, begins⟩
    cases event with
    | begun pending =>
      exact List.ne_nil_of_mem (mem_begunOf.mpr ⟨present, of_decide_eq_true begins⟩)
    | applied _ _ => cases begins
    | lost _ => cases begins
    | cancelled _ => cases begins

/-- One more event gives its view a new generation when it begins a render, or when it cancels one
and some render of the view was begun before. -/
theorem renewals_concat (event : Event) :
    renewals view (events ++ [event]) = renewals view events +
      if event.renews view ∧ (event.begins view ∨ begunOf view events ≠ []) then 1 else 0 := by
  have none_iff : events.dropWhile (fun event => !event.begins view) = [] ↔ begunOf view events = [] := by
    rw [List.dropWhile_eq_nil_iff, ← not_iff_not, ← ne_eq (begunOf view events), begunOf_ne_nil_iff]
    simp
  rw [renewals, renewals, List.dropWhile_append]
  by_cases begun : begunOf view events = []
  · cases begins : event.begins view <;>
      simp [none_iff.mpr begun, begun, begins, List.countP_singleton]
  · simp [none_iff, begun, List.countP_singleton]

/-- Generations count no more than the renders and cancellations of a history. -/
theorem renewals_le : renewals view events ≤ events.countP (Event.renews view) :=
  (List.dropWhile_sublist _).countP_le

/-- Events of other views apply no render of the view. -/
theorem appliedOf_eq_nil (others : ∀ event ∈ events, event.view ≠ view) : appliedOf view events = [] := by
  refine List.filterMap_eq_nil_iff.mpr (fun event listed => ?_)
  have other := others event listed
  cases event <;> first | rfl | exact if_neg other

/-- Events of other views begin no render of the view. -/
theorem begunOf_eq_nil (others : ∀ event ∈ events, event.view ≠ view) : begunOf view events = [] := by
  refine List.filterMap_eq_nil_iff.mpr (fun event listed => ?_)
  have other := others event listed
  cases event <;> first | rfl | exact if_neg other

/-- A render that has just begun stays so while other views are concerned. -/
theorem JustBegun.concat {event : Event} (just : JustBegun pending events)
    (other : event.view ≠ pending.ticket.view) : JustBegun pending (events ++ [event]) := by
  obtain ⟨earlier, later, rfl, others⟩ := just
  refine ⟨earlier, later ++ [event], by rw [List.append_assoc, List.cons_append], ?_⟩
  exact List.forall_mem_append.mpr ⟨others, List.forall_mem_singleton.mpr other⟩

/-- A render has just begun when nothing happened after its beginning. -/
theorem justBegun_concat : JustBegun pending (events ++ [.begun pending]) :=
  ⟨events, [], rfl, List.forall_mem_nil _⟩

/-- A render has just begun after one more event exactly when this is its beginning, or when it had
just begun before and the event happens to another view. -/
theorem justBegun_concat_iff {event : Event} :
    JustBegun pending (events ++ [event]) ↔
      event = .begun pending ∨ JustBegun pending events ∧ event.view ≠ pending.ticket.view := by
  constructor
  · rintro ⟨earlier, later, split, others⟩
    rcases List.eq_nil_or_concat later with rfl | ⟨front, last, rfl⟩
    · exact Or.inl (List.append_singleton_inj.mp split).2
    · rw [List.concat_eq_append, ← List.cons_append, ← List.append_assoc,
        List.append_singleton_inj] at split
      obtain ⟨rfl, rfl⟩ := split
      rw [List.concat_eq_append, List.forall_mem_append, List.forall_mem_singleton] at others
      exact Or.inr ⟨⟨earlier, front, rfl, others.1⟩, others.2⟩
  · rintro (rfl | ⟨just, other⟩)
    · exact justBegun_concat
    · exact just.concat other

namespace Throughout

/-- No render has a later generation than its view. -/
theorem generation_le (lawful : Throughout Lawful events) :
    ∀ pending ∈ begunOf view events, pending.ticket.generation ≤ renewals view events := by
  induction events using List.reverseRecOn with
  | nil => exact fun pending listed => nomatch listed
  | append_singleton events event inductionHypothesis =>
    intro pending listed
    rw [begunOf_append, List.mem_append] at listed
    rw [renewals_concat]
    rcases listed with before | now
    · have bounded := inductionHypothesis lawful.of_append pending before
      omega
    · obtain ⟨present, rfl⟩ := mem_begunOf.mp now
      obtain rfl := List.mem_singleton.mp present
      have numbered : pending.ticket.generation = renewals pending.ticket.view events + 1 :=
        lawful.last
      rw [if_pos ⟨decide_eq_true rfl, Or.inl (decide_eq_true rfl)⟩]
      exact Nat.le_of_eq numbered

/-- The generations of the renders of a view increase in the order in which they were begun. -/
theorem generations_increase (lawful : Throughout Lawful events) :
    (begunOf view events).Pairwise
      (fun earlier later => earlier.ticket.generation < later.ticket.generation) := by
  induction events using List.reverseRecOn with
  | nil => exact List.Pairwise.nil
  | append_singleton events event inductionHypothesis =>
    rw [begunOf_append, List.pairwise_append]
    refine ⟨inductionHypothesis lawful.of_append, ?_, ?_⟩
    · cases now : Event.begun? view event with
      | none => simp [begunOf, now]
      | some pending => simp [begunOf, now]
    · intro earlier before later now
      obtain ⟨present, rfl⟩ := mem_begunOf.mp now
      obtain rfl := List.mem_singleton.mp present
      have numbered : later.ticket.generation = renewals later.ticket.view events + 1 := lawful.last
      have bounded := lawful.of_append.generation_le earlier before
      omega

/-- No two renders have one ticket. -/
theorem begun_unique (lawful : Throughout Lawful events) {other : PendingRender}
    (left : .begun pending ∈ events) (right : .begun other ∈ events)
    (same : pending.ticket = other.ticket) : pending = other := by
  have distinct : ((begunOf pending.ticket.view events).map
      (fun render => render.ticket.generation)).Nodup :=
    List.pairwise_map.mpr (lawful.generations_increase.imp Nat.ne_of_lt)
  refine List.inj_on_of_nodup_map distinct (mem_begunOf.mpr ⟨left, rfl⟩) ?_ ?_
  · exact mem_begunOf.mpr ⟨right, by rw [same]⟩
  · rw [same]

/-- The renders of a view are applied in the order in which they were begun. Every applied render has its
beginning before it with nothing else of its view in between. So the history is taken apart at this
beginning, and the induction goes on with the part before it, which is why it is on the length. -/
theorem applied_sublist (lawful : Throughout Lawful events) :
    ((appliedOf view events).map Prod.fst).Sublist (begunOf view events) := by
  -- an applied render is compared with what was applied before its beginning, not just before it
  induction size : events.length using Nat.strongRecOn generalizing events with
  | _ length inductionHypothesis =>
    subst size
    rcases List.eq_nil_or_concat events with rfl | ⟨front, event, rfl⟩
    · exact List.Sublist.refl _
    rw [List.concat_eq_append] at lawful inductionHypothesis ⊢
    rw [appliedOf_append, begunOf_append, List.map_append]
    cases here : Event.applied? view event with
    | none =>
      have before := inductionHypothesis front.length (by simp) lawful.of_append rfl
      have nothing : appliedOf view [event] = [] := by simp [appliedOf, here]
      rw [nothing, List.map_nil, List.append_nil]
      exact before.trans (List.sublist_append_left _ _)
    | some entry =>
      obtain ⟨pending, shown, rfl, rfl, rfl⟩ : ∃ pending shown,
          event = .applied pending shown ∧ pending.ticket.view = view ∧ (pending, shown) = entry := by
        cases event with
        | applied pending shown =>
          rw [Event.applied?] at here
          split at here
          · exact ⟨pending, shown, rfl, ‹_›, Option.some.inj here⟩
          · cases here
        | begun _ => cases here
        | lost _ => cases here
        | cancelled _ => cases here
      obtain ⟨_, earlier, later, rfl, others⟩ := lawful.last
      have before := inductionHypothesis earlier.length (by simp)
        lawful.of_append.of_append rfl
      have begunNow : begunOf pending.ticket.view [.begun pending] = [pending] := by
        simp [begunOf, Event.begun?]
      have appliedNow : appliedOf pending.ticket.view [.applied pending shown] = [(pending, shown)] := by
        simp [appliedOf, Event.applied?]
      have notApplied : appliedOf pending.ticket.view [.begun pending] = [] := rfl
      have notBegun : begunOf pending.ticket.view [.applied pending shown] = [] := rfl
      rw [List.append_cons, appliedOf_append, appliedOf_append, begunOf_append, begunOf_append,
        appliedOf_eq_nil others, begunOf_eq_nil others, begunNow, appliedNow, notApplied, notBegun,
        List.append_nil, List.append_nil, List.append_nil, List.append_nil]
      exact before.append (List.Sublist.refl _)

/-- A render that has just begun was not applied before. -/
theorem not_applied_before (lawful : Throughout Lawful events) (just : JustBegun pending events)
    {other : PendingRender} {shown : ShownView} (applied : .applied other shown ∈ events) :
    other.ticket ≠ pending.ticket := by
  intro same
  obtain ⟨earlier, later, rfl, others⟩ := just
  rcases List.mem_append.mp applied with before | after
  · obtain ⟨front, back, rfl⟩ := List.append_of_mem before
    have numbered : pending.ticket.generation = renewals pending.ticket.view _ + 1 :=
      lawful _ _ _ rfl
    obtain ⟨_, first, second, rfl, _⟩ := lawful.of_append front _ back rfl
    have listed : other ∈ begunOf pending.ticket.view
        ((first ++ .begun other :: second) ++ .applied other shown :: back) :=
      mem_begunOf.mpr ⟨by simp, by rw [same]⟩
    have bounded := lawful.of_append.generation_le other listed
    rw [same] at bounded
    omega
  · rcases List.mem_cons.mp after with impossible | later
    · cases impossible
    · exact others _ later (congrArg Ticket.view same)

/-- Of two renders of a view that were applied at different times, the one applied later is the
same or was begun later. -/
theorem last_applied (lawful : Throughout Lawful (first ++ second))
    {earlier later : PendingRender × ShownView}
    (before : (appliedOf view first).getLast? = some earlier)
    (now : (appliedOf view (first ++ second)).getLast? = some later) :
    later = earlier ∨ [earlier.1, later.1].Sublist (begunOf view (first ++ second)) := by
  have ordered : ((appliedOf view (first ++ second)).map Prod.fst).Sublist
      (begunOf view (first ++ second)) := lawful.applied_sublist
  rw [appliedOf_append] at now ordered
  rcases List.eq_nil_or_concat (appliedOf view second) with none | ⟨front, last, concat⟩
  · rw [none, List.append_nil, before] at now
    exact Or.inl (Option.some.inj now).symm
  · rw [concat, List.concat_eq_append, ← List.append_assoc, List.getLast?_concat] at now
    obtain rfl := Option.some.inj now
    refine Or.inr (List.Sublist.trans ?_ ordered)
    have left : [earlier].Sublist (appliedOf view first) :=
      List.singleton_sublist.mpr (List.mem_of_getLast? before)
    have right : [last].Sublist (appliedOf view second) := by
      rw [concat, List.concat_eq_append]
      exact List.sublist_append_right _ _
    exact (left.append right).map Prod.fst

end Throughout

end Session

end DependencyDiagram

import DependencyDiagram.Session.Tracker
import Mathlib.Data.List.Induction

/-!
# Which tickets are accepted

A tracker sees calls in any order: renders are begun, finished and cancelled, for all views mixed,
and tickets come back late, repeatedly or not at all. Whether a ticket is accepted can be told from
the calls alone: its render is the one that was begun last for its view, nothing was cancelled for
the view since, and the ticket was not accepted before. The tracker keeps no more than a generation
and a mark for each view, and nothing at all for a view before its first render. Every render that
is begun raises the generation of its view, so a ticket never comes to be current again, and a run
of calls makes generations no larger than its length. A cancellation before the first render of a
view finds nothing to cancel and raises nothing; no ticket of the view was issued then, so that it
is of no consequence whether it is counted.
-/

namespace DependencyDiagram.Tracker

/-- A call on a tracker. Any ticket may be finished at any time, also one that was never issued. -/
inductive Call where
  | begin (view : ViewKind)
  | finish (ticket : Ticket)
  | cancel (view : ViewKind)
deriving DecidableEq

/-- What a call answers. -/
inductive Answer where
  | issued (ticket : Ticket)
  | finished (accepted : Bool)
  | done
deriving DecidableEq

/-- The view to which a call belongs. -/
def Call.view : Call → ViewKind
  | begin view | cancel view => view
  | finish ticket => ticket.view

/-- Make a call. -/
def perform (tracker : Tracker) : Call → Answer × Tracker
  | .begin view => (tracker.begin view).map .issued id
  | .finish ticket => (tracker.finish ticket).map .finished id
  | .cancel view => (.done, tracker.cancel view)

/-- The tracker after calls one after the other, on which none was made before. It starts from the
tracker of a new session, which has no slot for any view. -/
def afterAll (calls : List Call) : Tracker :=
  calls.foldl (fun tracker call => (tracker.perform call).2) idle

/-- One of the calls began the render of the ticket, between the earlier calls and the later ones. The
earlier calls are part of the statement because one ticket might be issued twice. It turns out that they
are determined by the ticket. -/
structure Issues (calls : List Call) (ticket : Ticket) (earlier later : List Call) : Prop where
  split : calls = earlier ++ .begin ticket.view :: later
  issued : ((afterAll earlier).perform (.begin ticket.view)).1 = .issued ticket

/-- One of the calls finished the render of the ticket, which was accepted. -/
def Finishes (calls : List Call) (ticket : Ticket) : Prop :=
  ∃ earlier later, calls = earlier ++ .finish ticket :: later ∧
    ((afterAll earlier).perform (.finish ticket)).1 = .finished true

/-- The ticket is that of the render begun last for its view, and the view was not cancelled since. Calls
on other views may follow, and so may calls that finish renders, of this view too. -/
def Standing (calls : List Call) (ticket : Ticket) : Prop :=
  ∃ earlier later, Issues calls ticket earlier later ∧
    .begin ticket.view ∉ later ∧ .cancel ticket.view ∉ later

/-- The ticket stands and was not accepted yet. This is the specification of acceptance. It refers to the
calls and their answers, and to nothing that the tracker keeps. -/
def Current (calls : List Call) (ticket : Ticket) : Prop :=
  Standing calls ticket ∧ ¬ Finishes calls ticket

variable {tracker other : Tracker} {calls : List Call} {call : Call} {ticket : Ticket}
  {view : ViewKind}

/-- The calls before the last one make the tracker on which the last one is made. -/
theorem afterAll_concat (calls : List Call) (call : Call) :
    afterAll (calls ++ [call]) = ((afterAll calls).perform call).2 := by
  rw [afterAll, List.foldl_append]
  rfl

/-- A ticket is accepted exactly when the slot of its view has its generation and is marked. -/
theorem accepts_iff :
    tracker.accepts ticket = true ↔ tracker.slot ticket.view = some ⟨ticket.generation, true⟩ := by
  rw [accepts]
  cases held : tracker.slot ticket.view with
  | none => simp
  | some slot =>
    obtain ⟨generation, pending⟩ := slot
    simp [and_comm]

/-- What is kept for a view decides which of its tickets is accepted. -/
theorem accepts_congr (same : tracker.slot ticket.view = other.slot ticket.view) :
    tracker.accepts ticket = other.accepts ticket := by
  rw [accepts, accepts, same]

/-- A cancellation raises the generation of a view that has a slot, and marks it as not awaited. -/
theorem slot_cancel (tracker : Tracker) (view : ViewKind) :
    (tracker.cancel view).slot view =
      (tracker.slot view).map (fun slot => ⟨slot.generation + 1, false⟩) := by
  rw [cancel]
  cases held : tracker.slot view with
  | none => exact held
  | some slot => exact if_pos rfl

/-- A cancellation raises the generation of a view with a slot, and of no other. -/
theorem generation_cancel (tracker : Tracker) (view : ViewKind) :
    (tracker.cancel view).generation view =
      if (tracker.slot view).isSome then tracker.generation view + 1 else tracker.generation view := by
  rw [generation, generation, slot_cancel]
  cases tracker.slot view <;> rfl

/-- A cancellation changes nothing about other views. -/
theorem slot_cancel_of_ne {own : ViewKind} (apart : own ≠ view) :
    (tracker.cancel own).slot view = tracker.slot view := by
  rw [cancel]
  split
  · rfl
  · exact if_neg (Ne.symm apart)

/-- Finishing a render changes nothing about other views. -/
theorem slot_finish_of_ne (apart : ticket.view ≠ view) :
    (tracker.finish ticket).2.slot view = tracker.slot view := by
  rw [finish]
  split
  · exact if_neg (Ne.symm apart)
  · rfl

/-- A call changes nothing about other views. -/
theorem slot_perform_of_ne (apart : call.view ≠ view) :
    (tracker.perform call).2.slot view = tracker.slot view := by
  cases call with
  | begin own => exact if_neg (Ne.symm apart)
  | cancel own => exact slot_cancel_of_ne apart
  | finish ticket => exact slot_finish_of_ne apart

/-- What a call answers, and what it leaves for its view, depends on what was kept for the view. -/
theorem perform_congr (same : tracker.slot call.view = other.slot call.view) :
    (tracker.perform call).1 = (other.perform call).1 ∧
      (tracker.perform call).2.slot call.view = (other.perform call).2.slot call.view := by
  cases call with
  | begin own =>
    have kept : tracker.slot own = other.slot own := same
    simp [perform, begin, generation, set, Call.view, kept]
  | cancel own =>
    have kept : tracker.slot own = other.slot own := same
    refine ⟨rfl, ?_⟩
    change (tracker.cancel own).slot own = (other.cancel own).slot own
    rw [slot_cancel, slot_cancel, kept]
  | finish ticket =>
    have kept : tracker.slot ticket.view = other.slot ticket.view := same
    have alike : tracker.accepts ticket = other.accepts ticket := accepts_congr kept
    simp only [perform, finish, alike, Call.view]
    split
    · exact ⟨rfl, by simp [set]⟩
    · exact ⟨rfl, kept⟩

/-- A render that is begun is the one that is awaited for its view. -/
theorem accepts_after_begin :
    (tracker.perform (.begin view)).2.accepts ticket = true ↔
      if ticket.view = view then (tracker.perform (.begin view)).1 = .issued ticket
      else tracker.accepts ticket = true := by
  split
  · rename_i own
    subst own
    obtain ⟨view, generation⟩ := ticket
    simp [perform, begin, accepts, set]
  · rename_i elsewhere
    rw [accepts_congr (slot_perform_of_ne (Ne.symm elsewhere))]

/-- A cancelled view awaits no render. -/
theorem accepts_after_cancel :
    (tracker.perform (.cancel view)).2.accepts ticket = true ↔
      ticket.view ≠ view ∧ tracker.accepts ticket = true := by
  by_cases own : ticket.view = view
  · subst own
    rw [accepts_iff, perform, slot_cancel]
    simp
  · rw [accepts_congr (slot_perform_of_ne (Ne.symm own))]
    simp [own]

/-- Two tickets of one view that are accepted at the same time are one. -/
theorem eq_of_accepts {first second : Ticket} (one : tracker.accepts first = true)
    (two : tracker.accepts second = true) (same : first.view = second.view) : first = second := by
  obtain ⟨view, generation⟩ := first
  obtain ⟨other, later⟩ := second
  cases same
  rw [accepts_iff] at one two
  have held := Option.some.inj (one.symm.trans two)
  exact congrArg (Ticket.mk view) (congrArg RenderSlot.generation held)

/-- A ticket that comes back is not accepted afterwards, and nothing changes for the others. -/
theorem accepts_after_finish {returned : Ticket} :
    (tracker.perform (.finish returned)).2.accepts ticket = true ↔
      ticket ≠ returned ∧ tracker.accepts ticket = true := by
  change (tracker.finish returned).2.accepts ticket = true ↔ _
  rw [finish]
  split
  · rename_i accepted
    by_cases own : ticket.view = returned.view
    · have refused :
          (tracker.set returned.view ⟨returned.generation, false⟩).accepts ticket = false := by
        simp [accepts, set, own]
      simp only [refused, Bool.false_eq_true, false_iff, not_and]
      exact fun apart awaited => apart (eq_of_accepts awaited accepted own)
    · have apart : ticket ≠ returned := fun same => own (congrArg Ticket.view same)
      simp [accepts, set, own, apart]
  · rename_i refused
    refine ⟨fun awaited => ⟨?_, awaited⟩, And.right⟩
    rintro rfl
    exact refused awaited

/-- A call raises the generation of a view by one at most, and lowers none. Only the beginning of a
render and its cancelling raise a generation. To finish a render takes its token away and leaves the
count alone. -/
theorem generation_perform (tracker : Tracker) (call : Call) (view : ViewKind) :
    tracker.generation view ≤ (tracker.perform call).2.generation view ∧
      (tracker.perform call).2.generation view ≤ tracker.generation view + 1 := by
  by_cases own : call.view = view
  · subst own
    cases call with
    | begin own => simp [perform, begin, generation, set, Call.view]
    | cancel own =>
      change tracker.generation own ≤ (tracker.cancel own).generation own ∧
        (tracker.cancel own).generation own ≤ tracker.generation own + 1
      rw [generation_cancel]
      split <;> omega
    | finish ticket =>
      change _ ≤ (tracker.finish ticket).2.generation ticket.view ∧
        (tracker.finish ticket).2.generation ticket.view ≤ _
      rw [finish]
      split
      · rename_i accepted
        simp [generation, set, Call.view, accepts_iff.mp accepted]
      · simp [Call.view]
  · simp [generation, slot_perform_of_ne own]

/-- Generations are no larger than the number of calls. -/
theorem generation_le_length (calls : List Call) (view : ViewKind) :
    (afterAll calls).generation view ≤ calls.length := by
  induction calls using List.reverseRecOn with
  | nil => exact Nat.le_refl 0
  | append_singleton calls call inductionHypothesis =>
    rw [afterAll_concat, List.length_append, List.length_singleton]
    exact Nat.le_trans (generation_perform _ call view).2 (Nat.succ_le_succ inductionHypothesis)

/-- Further calls lower no generation. -/
theorem generation_mono (earlier later : List Call) (view : ViewKind) :
    (afterAll earlier).generation view ≤
      (afterAll (earlier ++ later)).generation view := by
  induction later using List.reverseRecOn with
  | nil => exact Nat.le_of_eq (by rw [List.append_nil])
  | append_singleton later call inductionHypothesis =>
    rw [← List.append_assoc, afterAll_concat]
    exact Nat.le_trans inductionHypothesis (generation_perform _ call view).1

/-- The ticket of a render that is begun has the next generation of its view. -/
theorem issued_iff :
    (tracker.perform (.begin view)).1 = .issued ticket ↔
      ticket = ⟨view, tracker.generation view + 1⟩ := by
  simp [perform, begin, eq_comm]

/-- A ticket that comes back is accepted when it is the awaited one. -/
theorem finished_iff :
    (tracker.perform (.finish ticket)).1 = .finished true ↔ tracker.accepts ticket = true := by
  cases accepted : tracker.accepts ticket <;> simp [perform, finish, accepted]

/-- A place among calls is the last one or lies among the earlier calls. -/
theorem concat_eq_iff {last here : Call} {earlier later : List Call} :
    calls ++ [last] = earlier ++ here :: later ↔
      (later = [] ∧ calls = earlier ∧ last = here) ∨
        ∃ between, later = between ++ [last] ∧ calls = earlier ++ here :: between := by
  rcases List.eq_nil_or_concat later with rfl | ⟨between, final, rfl⟩
  · simp
  · rw [List.concat_eq_append, ← List.cons_append, ← List.append_assoc, List.append_singleton_inj]
    constructor
    · rintro ⟨rfl, rfl⟩
      exact Or.inr ⟨between, rfl, rfl⟩
    · rintro (⟨none, _⟩ | ⟨other, same, rfl⟩)
      · exact absurd none (List.concat_ne_nil _ _)
      · obtain ⟨rfl, rfl⟩ := List.append_singleton_inj.mp same
        exact ⟨rfl, rfl⟩

/-- A ticket stands after one more call if the call issued it, or if it stood before and the call
neither began nor cancelled a render of its view. -/
theorem standing_concat :
    Standing (calls ++ [call]) ticket ↔
      (call = .begin ticket.view ∧ ((afterAll calls).perform call).1 = .issued ticket) ∨
        (Standing calls ticket ∧ call ≠ .begin ticket.view ∧ call ≠ .cancel ticket.view) := by
  constructor
  · rintro ⟨earlier, later, ⟨split, issued⟩, notBegun, notCancelled⟩
    rcases concat_eq_iff.mp split with ⟨rfl, rfl, rfl⟩ | ⟨between, rfl, rfl⟩
    · exact Or.inl ⟨rfl, issued⟩
    · rw [List.mem_append, List.mem_singleton, not_or] at notBegun notCancelled
      exact Or.inr ⟨⟨earlier, between, ⟨rfl, issued⟩, notBegun.1, notCancelled.1⟩,
        Ne.symm notBegun.2, Ne.symm notCancelled.2⟩
  · rintro (⟨rfl, issued⟩ |
      ⟨⟨earlier, later, ⟨rfl, issued⟩, notBegun, notCancelled⟩, other, further⟩)
    · exact ⟨calls, [], ⟨rfl, issued⟩, List.not_mem_nil, List.not_mem_nil⟩
    · have split : (earlier ++ .begin ticket.view :: later) ++ [call] =
          earlier ++ .begin ticket.view :: (later ++ [call]) := by
        rw [List.append_assoc, List.cons_append]
      refine ⟨earlier, later ++ [call], ⟨split, issued⟩, ?_, ?_⟩
      · rw [List.mem_append, List.mem_singleton, not_or]
        exact ⟨notBegun, Ne.symm other⟩
      · rw [List.mem_append, List.mem_singleton, not_or]
        exact ⟨notCancelled, Ne.symm further⟩

/-- A ticket is accepted once after one more call if it was before, or if the call finished its
render while it was awaited. -/
theorem finishes_concat :
    Finishes (calls ++ [call]) ticket ↔
      Finishes calls ticket ∨ (call = .finish ticket ∧ (afterAll calls).accepts ticket = true) := by
  constructor
  · rintro ⟨earlier, later, split, accepted⟩
    rcases concat_eq_iff.mp split with ⟨rfl, rfl, rfl⟩ | ⟨between, rfl, rfl⟩
    · exact Or.inr ⟨rfl, finished_iff.mp accepted⟩
    · exact Or.inl ⟨earlier, between, rfl, accepted⟩
  · rintro (⟨earlier, later, rfl, accepted⟩ | ⟨rfl, awaited⟩)
    · exact ⟨earlier, later ++ [call], by rw [List.append_assoc, List.cons_append], accepted⟩
    · exact ⟨calls, [], rfl, finished_iff.mpr awaited⟩

/-- The generation of a ticket that was accepted was reached by its view. -/
theorem generation_le_of_finishes (finishes : Finishes calls ticket) :
    ticket.generation ≤ (afterAll calls).generation ticket.view := by
  obtain ⟨earlier, later, rfl, accepted⟩ := finishes
  have reached : (afterAll earlier).generation ticket.view = ticket.generation := by
    rw [generation, accepts_iff.mp (finished_iff.mp accepted)]
    rfl
  exact reached ▸ generation_mono earlier _ ticket.view

/-- A ticket that is issued was not accepted before. -/
theorem not_finishes_of_issued
    (issued : ((afterAll calls).perform (.begin view)).1 = .issued ticket) :
    ¬ Finishes calls ticket := by
  intro finishes
  have bounded := generation_le_of_finishes finishes
  rw [issued_iff.mp issued] at bounded
  exact absurd bounded (Nat.not_succ_le_self _)

/-- The tracker awaits exactly the current tickets. A render that is begun makes its ticket current,
which no call finished before since the generation is new; a cancellation leaves no ticket of the view
standing; and a ticket that comes back is accepted at most now. By induction on the calls from the last
one: each kind of call changes acceptance in the same way as it changes whether the ticket is current. -/
theorem accepts_iff_current (calls : List Call) (ticket : Ticket) :
    (afterAll calls).accepts ticket = true ↔ Current calls ticket := by
  induction calls using List.reverseRecOn with
  | nil =>
    have nothing : ¬ Standing [] ticket := by
      rintro ⟨earlier, later, ⟨split, _⟩, _⟩
      cases earlier <;> cases split
    simp [afterAll, idle, accepts, Current, nothing]
  | append_singleton calls call inductionHypothesis =>
    rw [afterAll_concat, Current, standing_concat, finishes_concat]
    cases call with
    | begin view =>
      rw [accepts_after_begin]
      by_cases own : ticket.view = view
      · subst own
        simp only [if_true, true_and, ne_eq, not_true_eq_false, false_and, and_false, or_false,
          reduceCtorEq]
        exact ⟨fun issued => ⟨issued, not_finishes_of_issued issued⟩, And.left⟩
      · simp [own, Ne.symm own, inductionHypothesis, Current]
    | cancel view =>
      rw [accepts_after_cancel, inductionHypothesis, Current]
      simp only [reduceCtorEq, false_and, false_or, or_false, ne_eq, not_false_eq_true, true_and,
        Call.cancel.injEq]
      constructor
      · rintro ⟨elsewhere, standing, notFinished⟩
        exact ⟨⟨standing, Ne.symm elsewhere⟩, notFinished⟩
      · rintro ⟨⟨standing, elsewhere⟩, notFinished⟩
        exact ⟨Ne.symm elsewhere, standing, notFinished⟩
    | finish returned =>
      rw [accepts_after_finish, inductionHypothesis, Current]
      simp only [reduceCtorEq, false_and, false_or, ne_eq, not_false_eq_true, and_true,
        Call.finish.injEq, not_or, not_and]
      constructor
      · rintro ⟨apart, standing, notFinished⟩
        exact ⟨standing, notFinished, fun same => absurd same.symm apart⟩
      · rintro ⟨standing, notFinished, refused⟩
        exact ⟨fun same => refused same.symm standing notFinished, standing, notFinished⟩

/-- A view awaits a render exactly when it has a current ticket. -/
theorem isPending_iff_current :
    (afterAll calls).isPending view = true ↔
      ∃ ticket, ticket.view = view ∧ Current calls ticket := by
  simp only [← accepts_iff_current]
  constructor
  · intro awaited
    obtain ⟨slot, held, pending⟩ := (Option.any_eq_true _ _).mp awaited
    refine ⟨⟨view, slot.generation⟩, rfl, accepts_iff.mpr ?_⟩
    rw [held, ← pending]
  · rintro ⟨ticket, rfl, accepted⟩
    rw [isPending, accepts_iff.mp accepted]
    rfl

/-- A ticket that was issued is not issued again. -/
theorem not_issued_again {earlier between : List Call}
    (issued : ((afterAll earlier).perform (.begin view)).1 = .issued ticket) :
    ((afterAll (earlier ++ .begin view :: between)).perform (.begin view)).1 ≠ .issued ticket := by
  intro again
  have raised : (afterAll (earlier ++ [.begin view])).generation view =
      (afterAll earlier).generation view + 1 := by
    rw [afterAll_concat]
    simp [perform, begin, generation, set]
  have later := generation_mono (earlier ++ [.begin view]) between view
  rw [List.append_assoc, List.singleton_append, raised] at later
  have same := (issued_iff.mp issued).symm.trans (issued_iff.mp again)
  rw [Ticket.mk.injEq, Nat.add_right_cancel_iff] at same
  exact absurd (same.2 ▸ later) (Nat.not_succ_le_self _)

/-- A ticket is issued by one call alone. -/
theorem issues_unique {earlier later others further : List Call}
    (first : Issues calls ticket earlier later) (second : Issues calls ticket others further) :
    earlier = others := by
  rcases List.append_eq_append_iff.mp (first.split.symm.trans second.split) with
    ⟨between, rfl, rest⟩ | ⟨between, rfl, rest⟩
  · cases between with
    | nil => rw [List.append_nil]
    | cons call between =>
      obtain ⟨rfl, _⟩ := List.cons.inj rest
      exact absurd second.issued (not_issued_again first.issued)
  · cases between with
    | nil => rw [List.append_nil]
    | cons call between =>
      obtain ⟨rfl, _⟩ := List.cons.inj rest
      exact absurd first.issued (not_issued_again second.issued)

/-- The calls that belong to a view. They stay in their order, so they can be made on a tracker of their
own. -/
def callsOn (view : ViewKind) (calls : List Call) : List Call :=
  calls.filter (fun call => call.view = view)

/-- What is kept for a view comes from its own calls. -/
theorem slot_callsOn (view : ViewKind) (calls : List Call) :
    (afterAll (callsOn view calls)).slot view = (afterAll calls).slot view := by
  induction calls using List.reverseRecOn with
  | nil => rfl
  | append_singleton calls call inductionHypothesis =>
    rw [afterAll_concat]
    by_cases own : call.view = view
    · subst own
      have kept : callsOn call.view (calls ++ [call]) = callsOn call.view calls ++ [call] := by
        simp [callsOn]
      rw [kept, afterAll_concat]
      exact (perform_congr inductionHypothesis).2
    · have left : callsOn view (calls ++ [call]) = callsOn view calls := by simp [callsOn, own]
      rw [left, inductionHypothesis, slot_perform_of_ne own]

/-- After any calls, a ticket that comes back is accepted exactly when it was issued by the call that
began the last render of its view, the view was not cancelled since, and the ticket was not accepted
before; a view awaits a render exactly when it has such a ticket. No two calls issue one ticket. What a
call answers, and whether a view awaits a render, depends on the calls of the same view alone. The
generations that are kept are no larger than the number of calls, so that numbers of 64 bits suffice for
fewer than 2 ^ 64 calls. The tickets that come back may be made up: a ticket that was never issued is
among those that the first part covers, and it is not accepted. -/
theorem tickets_accepted_exactly (calls : List Call) :
    (∀ ticket,
      ((afterAll calls).perform (.finish ticket)).1 = .finished true ↔ Current calls ticket) ∧
      (∀ view, (afterAll calls).isPending view = true ↔
        ∃ ticket, ticket.view = view ∧ Current calls ticket) ∧
      (∀ ticket earlier later others further, Issues calls ticket earlier later →
        Issues calls ticket others further → earlier = others) ∧
      (∀ call, ((afterAll calls).perform call).1 =
        ((afterAll (callsOn call.view calls)).perform call).1) ∧
      (∀ view, (afterAll calls).isPending view = (afterAll (callsOn view calls)).isPending view) ∧
      ∀ view, (afterAll calls).generation view ≤ calls.length := by
  refine ⟨fun ticket => finished_iff.trans (accepts_iff_current calls ticket),
    fun view => isPending_iff_current, fun _ _ _ _ _ => issues_unique, fun call => ?_,
    fun view => ?_, generation_le_length calls⟩
  · exact (perform_congr (slot_callsOn call.view calls).symm).1
  · rw [isPending, isPending, slot_callsOn]

end DependencyDiagram.Tracker

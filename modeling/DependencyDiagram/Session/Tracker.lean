import DependencyDiagram.ViewOptions

/-!
# Tracking renders

At most one render is awaited per view. Beginning a render supersedes the one begun before
for the same view; cancelling leaves none awaited. A render is finished by its ticket, which
is accepted only while it is the awaited one, and at most once. Views do not affect each
other.

A view has a slot from its first render on. Before that nothing is kept for it, and there is
nothing to cancel: a cancellation then leaves the tracker as it is and is not counted.
-/

namespace DependencyDiagram

/-- What is kept of the latest render of one view: its number among the renders and
cancellations of the view, and whether its result is still awaited. -/
structure RenderSlot where
  generation : Nat
  pending : Bool
deriving DecidableEq, Repr

/-- The handle of one render. It is valid as long as the view has the same generation.
Whoever renders hands it back together with the result. -/
structure Ticket where
  view : ViewKind
  generation : Nat
deriving DecidableEq, Repr

/-- The latest renders of all views. A view for which no render was ever begun has no slot.
The slots are independent, and a slot once filled is never emptied. -/
structure Tracker where
  slot : ViewKind → Option RenderSlot

namespace Tracker

/-- No render was ever begun. -/
def idle : Tracker := ⟨fun _ => none⟩

instance : Inhabited Tracker := ⟨idle⟩

/-- The generation of a view, which is zero before its first render. -/
def generation (tracker : Tracker) (view : ViewKind) : Nat :=
  (tracker.slot view).elim 0 RenderSlot.generation

/-- Fill the slot of one view. -/
def set (tracker : Tracker) (view : ViewKind) (slot : RenderSlot) : Tracker :=
  ⟨fun other => if other = view then some slot else tracker.slot other⟩

/-- Begin a render, which supersedes the one begun before. The first one of a view gives it its
slot. -/
def begin (tracker : Tracker) (view : ViewKind) : Ticket × Tracker :=
  let generation := tracker.generation view + 1
  (⟨view, generation⟩, tracker.set view ⟨generation, true⟩)

/-- The ticket is that of the awaited render. -/
def accepts (tracker : Tracker) (ticket : Ticket) : Bool :=
  (tracker.slot ticket.view).any (fun slot => slot.pending && slot.generation == ticket.generation)

/-- Finish a render. A ticket that is not accepted changes nothing. -/
def finish (tracker : Tracker) (ticket : Ticket) : Bool × Tracker :=
  if tracker.accepts ticket then (true, tracker.set ticket.view ⟨ticket.generation, false⟩)
  else (false, tracker)

/-- A render of the view is awaited. -/
def isPending (tracker : Tracker) (view : ViewKind) : Bool :=
  (tracker.slot view).any RenderSlot.pending

/-- Await no render of the view any more. There is none to await where none was begun. -/
def cancel (tracker : Tracker) (view : ViewKind) : Tracker :=
  match tracker.slot view with
  | none => tracker
  | some slot => tracker.set view ⟨slot.generation + 1, false⟩

end Tracker

end DependencyDiagram

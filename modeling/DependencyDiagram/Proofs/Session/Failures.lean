import DependencyDiagram.Proofs.Outcomes
import DependencyDiagram.Proofs.Session.Runs

/-!
# Failures of sessions

Every failure of a call on a session names the operation that claims it: the stage of a view, or the
reading of the store. The failure for a render that was superseded while it was shown synchronously names
none, and it does not occur, since the render that was begun last is the awaited one.

The operation is what a caller reports next to the message. A failure that named none could not be told
from one that was passed through by mistake.
-/

namespace DependencyDiagram

namespace Outcome

/-- A failure of the outcome names the operation that claims it. An outcome that is a value satisfies
this without more, and a chain of steps does when each of its steps does. -/
def Claimed {α : Type} (outcome : Except Failure α) : Prop :=
  ∀ failure, outcome = .error failure → failure.operation ≠ ""

variable {α β : Type}

/-- A value is no failure. -/
theorem claimed_ok (value : α) : Claimed (.ok value) := fun _ failed => nomatch failed

/-- A failure is claimed wherever it is passed on to. -/
theorem claimed_error {failure : Failure} (claimed : Claimed (.error failure : Except Failure α)) :
    Claimed (.error failure : Except Failure β) :=
  fun _ failed => claimed _ (congrArg _ (Except.error.inj failed))

/-- The failures of a chain are those of its steps. -/
theorem claimed_bind {outcome : Except Failure α} {next : α → Except Failure β}
    (first : Claimed outcome) (further : ∀ value, Claimed (next value)) :
    Claimed (outcome >>= next) := by
  intro failure failed
  rcases bind_eq_error_iff.mp failed with here | ⟨value, _, later⟩
  · exact first failure here
  · exact further value failure later

/-- What is claimed for an operation names it. -/
theorem claimed_mapError {outcome : Except Failure α} {claim : Failure → Failure}
    (names : ∀ failure, (claim failure).operation ≠ "") : Claimed (outcome.mapError claim) := by
  intro failure failed
  cases outcome with
  | ok value => cases failed
  | error inner =>
    obtain rfl := Except.error.inj failed
    exact names inner

/-- A stage claims its failures. -/
theorem claimed_inStage (stage : Stage) (kind : ViewKind) (outcome : Except Failure α) :
    Claimed (inStage stage kind outcome) := by
  refine claimed_mapError (fun failure => ?_)
  change stage.operation ≠ ""
  cases stage <;> decide

end Outcome

open Outcome

namespace Repository

variable {α : Type}

/-- Reading an entry claims its failures. -/
theorem claimed_loadEntry (store : Store) (table key : String) (read : Json → Option α) :
    Claimed (loadEntry store table key read) := by
  intro failure failed
  rw [loadEntry] at failed
  split at failed
  · cases failed
  · split at failed
    · cases failed
    · obtain rfl := Except.error.inj failed
      change "filters::load" ≠ ""
      decide

/-- Reading a set of identifiers claims its failures. -/
theorem claimed_loadSet (store : Store) (table key : String) :
    Claimed (loadSet store table key) := by
  refine claimed_bind (claimed_loadEntry store table key _) (fun found => ?_)
  cases found with
  | none => exact claimed_ok none
  | some list =>
    refine claimed_bind (claimed_bind ?_ (fun _ => claimed_ok _)) (fun _ => claimed_ok _)
    intro failure failed
    obtain ⟨text, _, here⟩ := exists_of_mapM_eq_error failed
    have names : ∀ inner : Failure, (inner.during "filter::load").operation ≠ "" :=
      fun _ => (by decide : "filter::load" ≠ "")
    exact claimed_mapError names failure here

/-- Loading a filter claims its failures. -/
theorem claimed_loadFilter (store : Store) (options : ViewOptions) :
    Claimed (loadFilter store options) :=
  claimed_bind (claimed_loadSet store _ _)
    (fun _ => claimed_bind (claimed_loadSet store _ _) (fun _ => claimed_ok _))

/-- Loading options claims its failures. -/
theorem claimed_loadOptions (store : Store) (kind : ViewKind) : Claimed (loadOptions store kind) :=
  claimed_bind (claimed_loadEntry store _ _ _) (fun _ => claimed_ok _)

end Repository

/-- Preparing a source claims its failures. -/
theorem claimed_prepare (data : ViewData) (options : ViewOptions) : Claimed (prepare data options) :=
  claimed_inStage _ _ _

/-- Assembling a view claims its failures. -/
theorem claimed_assemble (styles : Styles) (source : GraphSource) (filter : Filter)
    (options : ViewOptions) : Claimed (assemble styles source filter options) :=
  claimed_bind (claimed_inStage _ _ _)
    (fun _ => claimed_bind (claimed_inStage _ _ _) (fun _ => claimed_ok _))

/-- Running a renderer claims its failures. -/
theorem claimed_runRenderer (view : ViewDescription) (renderer : Renderer) :
    Claimed (runRenderer view renderer) := by
  unfold runRenderer
  split
  · exact claimed_ok none
  · exact claimed_bind (claimed_inStage _ _ _)
      (fun _ => claimed_bind (claimed_inStage _ _ _) (fun _ => claimed_ok _))

/-- Joining an output with the side table claims its failures. -/
theorem claimed_attachRender (view : ViewDescription) (output : RenderOutput) :
    Claimed (attachRender view output) := by
  unfold attachRender
  split
  · exact claimed_ok none
  · exact claimed_bind (claimed_inStage _ _ _) (fun _ => claimed_ok _)

namespace Session

/-- Finding a source claims its failures. -/
theorem claimed_source (session : Session) (options : ViewOptions) :
    Claimed (session.source options).1 := by
  have prepared := claimed_prepare session.data options
  unfold source
  split
  · exact claimed_ok _
  · split
    · rename_i same
      rwa [same] at prepared
    · exact claimed_ok _

/-- Finding a filter claims its failures. -/
theorem claimed_filterFor (session : Session) (options : ViewOptions) :
    Claimed (session.filterFor options).1 := by
  have loaded := Repository.claimed_loadFilter session.store options
  have sourced := claimed_source session options
  unfold filterFor
  split
  · rename_i same
    rw [same] at loaded
    exact claimed_error loaded
  · exact claimed_ok _
  · split
    · rename_i same
      rw [same] at sourced
      exact claimed_error sourced
    · exact claimed_ok _

/-- Describing a view claims its failures. -/
theorem claimed_describe (session : Session) (options : ViewOptions) :
    Claimed (session.describe options).1 := by
  have filtered := claimed_filterFor session options
  unfold describe
  split
  · rename_i same
    rw [same] at filtered
    exact claimed_error filtered
  · rename_i after _
    have sourced := claimed_source after options
    split
    · rename_i same
      rw [same] at sourced
      exact claimed_error sourced
    · exact claimed_assemble _ _ _ _

/-- Beginning a render claims its failures. -/
theorem claimed_beginRender (session : Session) (kind : ViewKind) :
    Claimed (session.beginRender kind).1 := by
  have loaded := Repository.claimed_loadOptions session.store kind
  unfold beginRender options
  split
  · rename_i same
    rw [same] at loaded
    exact claimed_error loaded
  · rename_i options _
    have described := claimed_describe session options
    split
    · rename_i same
      rw [same] at described
      exact claimed_error described
    · exact claimed_ok _

/-- Completing a render claims its failures. -/
theorem claimed_completeRender (session : Session) (pending : PendingRender)
    (output : RenderOutput) : Claimed (session.completeRender pending output).1 := by
  have attached := claimed_attachRender pending.view output
  unfold completeRender
  split
  · exact claimed_ok none
  · dsimp only
    split
    · rename_i same
      rw [same] at attached
      exact claimed_error attached
    · exact claimed_ok _

/-- Showing a view claims its failures, so none of them is that of a superseded render. -/
theorem claimed_showView (session : Session) (kind : ViewKind) :
    Claimed (session.showView kind).1 := by
  have began := claimed_beginRender session kind
  rcases showView_cases session kind with ⟨failure, after, here, shown⟩ |
    ⟨pending, begun, _, ⟨failure, here, shown⟩ | ⟨output, _, ⟨failure, after, here, shown⟩ |
      ⟨view, after, _, shown⟩⟩⟩
  · rw [here] at began
    rw [shown]
    exact claimed_error began
  · have ran := claimed_runRenderer pending.view begun.renderer
    rw [here] at ran
    rw [shown]
    exact claimed_error ran
  · have completed := claimed_completeRender begun pending (output.getD ⟨"", ""⟩)
    rw [here] at completed
    rw [shown]
    exact claimed_error completed
  · rw [shown]
    exact claimed_ok view

/-- Showing a view never fails as superseded. -/
theorem showView_ne_superseded (session : Session) (kind : ViewKind) :
    (session.showView kind).1 ≠ .error superseded := by
  intro failed
  exact claimed_showView session kind superseded failed rfl

end Session

end DependencyDiagram

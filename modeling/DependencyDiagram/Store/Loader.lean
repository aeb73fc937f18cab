import DependencyDiagram.Store.Basic
import DependencyDiagram.Document.Reflection

/-!
# Loading reflection documents through a store

A document is taken from the store if the store holds one of the present version under the
loader's key. Otherwise a backend derives it again, and the text that the backend produced
is kept for the next time. A stored text that cannot be read is reported and not replaced,
and whatever fails leaves the store as it was.

What the backend does besides answering is up to it: it may read a file, or count how often it
is called. So a load runs wherever its backend does.
-/

namespace DependencyDiagram.Loader

variable {m : Type → Type} [Monad m] (explain : String → String)

/-- The failure for a backend that produced a document of another version. -/
def foreignVersion (key : String) (found : UInt32) : Failure :=
  ((Failure.ofKind .deserializationFailed
    ("backend produced version " ++ toString found.toNat ++ ", expected " ++
      toString Reflection.presentVersion.toNat)).during "loader::load").noting "key" key

/-- Read what the backend produced. A backend has no excuse for another version, so this is
a failure here. -/
def accept (key text : String) : Except Failure Reflection := do
  match ← Reflection.parse explain text with
  | .current document => return document
  | .stale found => throw (foreignVersion key found)

/-- Keep what the backend produced, if that is a document. -/
def keep (store : Store) (key : String) (outcome : Except Failure String) :
    Except Failure Reflection × Store :=
  match outcome.mapError (fun failure => failure.during "loader::reflect") with
  | .error failure => (.error failure, store)
  | .ok text =>
    match accept explain key text with
    | .error failure => (.error failure, store)
    | .ok document => (.ok document, store.put reflectedTable key text)

/-- Call the backend and keep what it produced. -/
def derive (store : Store) (key : String) (backend : m (Except Failure String)) :
    m (Except Failure Reflection × Store) := do
  return keep explain store key (← backend)

/-- Load the document under a key, together with the store behind it. The backend is called
in one branch for a missing text and in one for an outdated text, and nowhere else. -/
def load (store : Store) (key : String) (backend : m (Except Failure String)) :
    m (Except Failure Reflection × Store) :=
  match store.get? reflectedTable key with
  | none => derive explain store key backend
  | some text =>
    match Reflection.parse explain text with
    | .error failure => return (.error failure, store)
    | .ok (.current document) => return (.ok document, store)
    | .ok (.stale _) => derive explain store key backend

end DependencyDiagram.Loader

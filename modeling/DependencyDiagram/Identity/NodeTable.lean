import DependencyDiagram.Identity.NodeCodec
import DependencyDiagram.Ordered.Table

/-!
# Tables keyed by node identifiers

A look-up that must succeed reports the identifier it missed, once as a message cites it
and once in its written form.
-/

namespace DependencyDiagram

/-- The failure for an identifier that is not listed. -/
def missingId (id : NodeId) : Failure :=
  ((Failure.notFound id.cited).during "collections::get_required").noting "id" id.encode

/-- The value under an identifier that must be listed. -/
def Table.require {ν : Type} (table : Table NodeId ν) (id : NodeId) : Except Failure ν :=
  match table.get? id with
  | some value => .ok value
  | none => .error (missingId id)

end DependencyDiagram

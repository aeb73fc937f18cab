import DependencyDiagram.Identity.EdgeId
import DependencyDiagram.Ordered.Table

/-!
# Edges gathered per pair

Edges go from a client to a server. An accumulator keeps one edge for each ordered pair,
in the order in which the pairs first came. A further edge of a known pair adds its labels
behind the earlier ones, repetitions included, and leaves everything else as it was.
-/

namespace DependencyDiagram

/-- A directed edge with the labels gathered for it. The labels are those of all
contributions to the pair, in the order in which they came. -/
structure Edge where
  id : EdgeId
  client : NodeId
  server : NodeId
  labels : List String
  /-- The server was a leaf when the pair first came. -/
  isServerLeaf : Bool
deriving DecidableEq

/-- One edge per ordered pair, in the order of the pairs' first edges. They are kept under
their identifiers, and so an edge can be looked up by its ends. -/
structure Edges where
  byId : Table EdgeId Edge
deriving DecidableEq

namespace Edges

/-- No edge at all. -/
def empty : Edges := ⟨Table.empty⟩

instance : Inhabited Edges := ⟨empty⟩

/-- The edges in order. -/
def values (edges : Edges) : List Edge := edges.byId.values

/-- The number of pairs. -/
def size (edges : Edges) : Nat := edges.byId.size

/-- No pair has an edge. -/
def isEmpty (edges : Edges) : Bool := edges.byId.isEmpty

/-- The edge with an identifier, compared as text. -/
def get? (edges : Edges) (id : EdgeId) : Option Edge := edges.byId.get? id

/-- Gather one more edge of a pair. -/
def gather (edges : Edges) (client server : NodeId) (labels : List String) (isServerLeaf : Bool) :
    Edges :=
  let id := EdgeId.ofEndpoints client server
  if edges.byId.contains id then
    ⟨edges.byId.adjust id (fun edge => { edge with labels := edge.labels ++ labels })⟩
  else
    ⟨edges.byId.put id ⟨id, client, server, labels, isServerLeaf⟩⟩

end Edges

end DependencyDiagram

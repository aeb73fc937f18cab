import DependencyDiagram.Identity.NodeCodec

/-!
# Identifiers of edges and of drawn elements

An edge is identified by its two endpoints in order, written with a separator that no name
may hold. An edge's identifier is kept as the text it was read from, so two texts that
differ in how a number is spelled stay apart although their endpoints are the same.

A drawn element is a node, an edge or the label of an edge. A label's text is the edge's
text with a suffix; since a name may end in that suffix too, labels are read by a reader of
their own.
-/

namespace DependencyDiagram

/-- The written form of an edge's two endpoints. -/
structure EdgeId where
  text : String
deriving DecidableEq, Repr

/-- The text has the form of an edge rather than that of a node. -/
def isEdgeText (text : String) : Bool := text.toList.contains endpointSeparator

namespace EdgeId

/-- What a label's identifier adds to the edge's. -/
def labelSuffix : String := "-label"

/-- Read both endpoints; the first separator divides them, and the client is read first. -/
def readEndpoints (text : String) : Except Failure (NodeId × NodeId) :=
  match Text.cutFirst? endpointSeparator text with
  | none => .error (Failure.invalidNodeId text "edge id lacks the edge separator")
  | some (client, server) => do
    return (← NodeId.decode client, ← NodeId.decode server)

/-- The identifier of the edge from a client to a server. -/
def ofEndpoints (client server : NodeId) : EdgeId := ⟨client.encode ++ "~" ++ server.encode⟩

/-- Accept a text as an edge's identifier, without changing it. -/
def parse (text : String) : Except Failure EdgeId := do
  let _ ← readEndpoints text
  return ⟨text⟩

/-- The client and the server. -/
def endpoints (edge : EdgeId) : Except Failure (NodeId × NodeId) := readEndpoints edge.text

/-- The identifier of the edge's label. -/
def labelId (edge : EdgeId) : String := edge.text ++ labelSuffix

end EdgeId

/-- What a drawn element stands for. A label has an identifier of its own, made from that of
its edge, so that it can be clicked apart from the edge. -/
inductive ElementId where
  | node (id : NodeId)
  | edge (id : EdgeId)
  | edgeLabel (id : EdgeId)
deriving DecidableEq

namespace ElementId

/-- Read the identifier of a node or an edge; the edge's separator decides which. -/
def decode (text : String) : Except Failure ElementId :=
  if isEdgeText text then edge <$> EdgeId.parse text else node <$> NodeId.decode text

/-- Read the identifier of an edge's label. -/
def decodeEdgeLabel (text : String) : Except Failure ElementId :=
  match Text.beforeTrailing? EdgeId.labelSuffix text with
  | none => .error (Failure.invalidNodeId text "edge label id lacks the label suffix")
  | some label => edgeLabel <$> EdgeId.parse label

end ElementId

end DependencyDiagram

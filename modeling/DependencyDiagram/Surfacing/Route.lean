import DependencyDiagram.Surfacing.Closure
import DependencyDiagram.Edges

/-!
# Routes of edges

An edge between two shown leaves is drawn between the places where its endpoints surface.
An edge that would lead from a place to itself is not drawn. Where the server is hidden in
a collapsed group, the edge is labelled with the part of the group that it enters;
otherwise it keeps its own labels.

Each edge is routed by itself. Routing fails when an endpoint is not in the tree, or when
an end surfaces on an expanded group although such ends are not allowed; the first edge
that fails decides. The surfaced edges and the nodes that take part are then gathered from
the routes in order.
-/

namespace DependencyDiagram

/-- An edge together with the positions between which it is drawn and its labels there. The
edge itself keeps its endpoints, which may lie far below the two positions. -/
structure Route where
  edge : Edge
  client : Nat
  server : Nat
  labels : List String
deriving DecidableEq

/-- What is drawn of the edges: one edge per pair of surfaces, and every node that takes
part, both as its edge names it and as it surfaces. An endpoint that is hidden in a
collapsed group takes part as well, although nothing is drawn of it. -/
structure Surfaced where
  edges : Edges
  participants : Collection NodeId
deriving DecidableEq

namespace Tree

/-- The position is a group that is expanded. -/
def isOpenGroup (tree : Tree) (filter : Filter) (position : Nat) : Bool :=
  (tree.node? position).any (fun node => !node.isLeaf && filter.expandsGroup node.id)

/-- The position holds a leaf. -/
def isLeafAt (tree : Tree) (position : Nat) : Bool := (tree.node? position).any TreeNode.isLeaf

/-- The identifiers at a position: one inside the tree, none outside. -/
def idsAt (tree : Tree) (position : Nat) : List NodeId :=
  ((tree.node? position).map TreeNode.id).toList

/-- Look up the end of an edge; a missing end is reported together with the edge. -/
def lookupEnd (tree : Tree) (edge : Edge) (id : NodeId) : Except Failure Nat :=
  (tree.lookup id).mapError (fun failure => failure.noting "edge" edge.id.text)

/-- The labels of an edge where it surfaces. -/
def surfacedLabels (tree : Tree) (filter : Filter) (edge : Edge) (server : Nat) : List String :=
  match tree.closure? filter server with
  | some closure => [tree.label closure.entry]
  | none => edge.labels

/-- The failure for an end on an expanded group. -/
def clusterEnd (client server cluster : NodeId) : Failure :=
  (Failure.unexpectedClusterEdge (EdgeId.ofEndpoints client server).text cluster.encode).during
    "visibility::remap_edges"

/-- Refuse ends on expanded groups unless the filter allows them. The client is examined
first. -/
def checkEnds (tree : Tree) (filter : Filter) (client server : Nat) : Except Failure Unit :=
  if filter.parentEdges then .ok ()
  else
    match tree.node? client, tree.node? server with
    | some first, some second =>
      if tree.isOpenGroup filter client then .error (clusterEnd first.id second.id first.id)
      else if tree.isOpenGroup filter server then .error (clusterEnd first.id second.id second.id)
      else .ok ()
    | _, _ => .ok ()

/-- Route one edge. An edge that is not drawn has no route. -/
def route (tree : Tree) (filter : Filter) (edge : Edge) : Except Failure (Option Route) :=
  if filter.showsLeaf edge.client && filter.showsLeaf edge.server then do
    let client ← tree.lookupEnd edge edge.client
    let server ← tree.lookupEnd edge edge.server
    let clientSurface := tree.surface filter client
    let serverSurface := tree.surface filter server
    if clientSurface = serverSurface then return none
    tree.checkEnds filter clientSurface serverSurface
    return some ⟨edge, clientSurface, serverSurface, tree.surfacedLabels filter edge server⟩
  else .ok none

/-- The routes of all edges in order. -/
def routes (tree : Tree) (edges : Edges) (filter : Filter) : Except Failure (List Route) := do
  return (← edges.values.mapM (tree.route filter)).filterMap id

/-- Gather a surfaced edge under the identifiers at its positions. -/
def gatherRoute (tree : Tree) (edges : Edges) (route : Route) : Edges :=
  match tree.node? route.client, tree.node? route.server with
  | some client, some server => edges.gather client.id server.id route.labels server.isLeaf
  | _, _ => edges

/-- The nodes that take part in a route. -/
def participantsOf (tree : Tree) (route : Route) : List NodeId :=
  [route.edge.client, route.edge.server] ++ tree.idsAt route.client ++ tree.idsAt route.server

/-- Gather surfaced edges and participants from routes. -/
def surfaced (tree : Tree) (routes : List Route) : Surfaced where
  edges := routes.foldl tree.gatherRoute Edges.empty
  participants := Collection.ofList (routes.flatMap tree.participantsOf)

end Tree

end DependencyDiagram

import DependencyDiagram.Surfacing.VisibleGraph
import DependencyDiagram.Proofs.Surfacing.Representative
import DependencyDiagram.Proofs.Edges.Merging
import DependencyDiagram.Proofs.Outcomes

/-!
# Routes and contributions

An edge that is shown is drawn between the representatives of its endpoints. What it
contributes to the drawing is stated here without closures, routes or failures: its pair of
representatives, and either its own labels or the label of the part of the collapsed group
that its server lies in. Routing finds exactly this contribution, and it fails exactly where
an endpoint is not in the tree or a representative is an expanded group although edges must
not end there.
-/

namespace DependencyDiagram

/-- Both endpoints of an edge are shown. The filter is asked about identifiers, also where an endpoint is
a group or is missing. -/
def Filter.showsEdge (filter : Filter) (edge : Edge) : Bool :=
  filter.showsLeaf edge.client && filter.showsLeaf edge.server

namespace Tree

/-- A shown edge has an endpoint that the tree does not have. An edge that is not shown may name
anything. -/
def Dangles (tree : Tree) (filter : Filter) (edge : Edge) : Prop :=
  filter.showsEdge edge = true ∧ ¬ (tree.Holds edge.client ∧ tree.Holds edge.server)

/-- A shown edge would be drawn to or from an expanded group. An edge whose ends coincide is not drawn
and therefore cannot fail in this way. -/
def EndsOnOpenGroup (tree : Tree) (filter : Filter) (edge : Edge) : Prop :=
  filter.showsEdge edge = true ∧
    ∃ client server, tree.find? edge.client = some client ∧ tree.find? edge.server = some server ∧
      tree.representative filter client ≠ tree.representative filter server ∧
      (tree.isOpenGroup filter (tree.representative filter client) = true ∨
        tree.isOpenGroup filter (tree.representative filter server) = true)

/-- The labels under which an edge with the given server is drawn: its own, or the label of the child
through which the path to the server enters its collapsed group. Labels tell what an edge leads to. Once
the server is hidden inside a box, its own labels would say too much, and the part of the box that it
lies in is named. -/
def drawnLabels (tree : Tree) (filter : Filter) (edge : Edge) (server : Nat) : List String :=
  if tree.representative filter server = server then edge.labels
  else [tree.label (tree.entryBelow (tree.representative filter server) server)]

/-- What an edge contributes to the drawing; nothing when it is not shown, when an endpoint is missing,
and when both endpoints have one representative. It is the specification of routing for one edge, given
all that the tree and the filter say. -/
def contribution? (tree : Tree) (filter : Filter) (edge : Edge) : Option Contribution :=
  if filter.showsEdge edge then do
    let client ← tree.find? edge.client
    let server ← tree.find? edge.server
    let drawnClient ← tree.node? (tree.representative filter client)
    let drawnServer ← tree.node? (tree.representative filter server)
    if tree.representative filter client = tree.representative filter server then none
    else some {
      client := drawnClient.id
      server := drawnServer.id
      labels := tree.drawnLabels filter edge server
      isServerLeaf := drawnServer.isLeaf }
  else none

/-- What a route contributes: the identifiers at its positions with its labels. -/
def routeContribution? (tree : Tree) (route : Route) : Option Contribution :=
  match tree.node? route.client, tree.node? route.server with
  | some client, some server => some ⟨client.id, server.id, route.labels, server.isLeaf⟩
  | _, _ => none

/-- A representative is a node of the tree where the represented node is one. -/
theorem exists_representative {tree : Tree} (filter : Filter) {position : Nat} {node : TreeNode}
    (present : tree.node? position = some node) :
    ∃ drawn, tree.node? (tree.representative filter position) = some drawn := by
  apply node?_of_lt
  have notAfter : tree.representative filter position ≤ position :=
    le_of_atOrAbove (tree.representative_atOrAbove filter position)
  exact Nat.lt_of_le_of_lt notAfter (lt_size_of_node? present)

/-- A node above the represented one is its representative when it is not the node itself. -/
theorem representative_eq_self_iff {tree : Tree} {filter : Filter} {position : Nat} :
    tree.representative filter position = position ↔
      tree.outermostCollapsed? filter position = none := by
  rw [representative]
  cases outer : tree.outermostCollapsed? filter position with
  | none => simp
  | some group =>
    have above : group < position := lt_of_above (outermostCollapsed?_eq_some outer).1
    simp only [Option.getD_some, reduceCtorEq, iff_false]
    exact Nat.ne_of_lt above

/-- The labels of a routed edge are those under which it is drawn. -/
theorem surfacedLabels_eq (tree : Tree) (filter : Filter) (edge : Edge) (server : Nat) :
    tree.surfacedLabels filter edge server = tree.drawnLabels filter edge server := by
  rw [surfacedLabels, closure?_eq, drawnLabels]
  cases outer : tree.outermostCollapsed? filter server with
  | none => simp [representative_eq_self_iff.mpr outer]
  | some group =>
    have moved : tree.representative filter server ≠ server := by
      rw [ne_eq, representative_eq_self_iff, outer]
      simp
    rw [if_neg moved, representative, outer]
    rfl

/-- Looking up an end has the position that was found as its value. -/
theorem lookupEnd_eq_ok_iff {tree : Tree} {edge : Edge} {id : NodeId} {position : Nat} :
    tree.lookupEnd edge id = .ok position ↔ tree.find? id = some position := by
  rw [lookupEnd, ← lookup_eq_ok_iff]
  cases tree.lookup id <;> simp [Except.mapError]

/-- Looking up an end fails for an identifier that the tree does not have. -/
theorem lookupEnd_fails_iff {tree : Tree} {edge : Edge} {id : NodeId} :
    (∃ failure, tree.lookupEnd edge id = .error failure) ↔ ¬ tree.Holds id := by
  rw [lookupEnd, ← lookup_fails_iff]
  cases tree.lookup id <;> simp [Except.mapError]

/-- The ends of a route are refused exactly when edges must not end on expanded groups and
one of the two is such a group. -/
theorem checkEnds_fails_iff {tree : Tree} {filter : Filter} {client server : Nat}
    {first second : TreeNode} (here : tree.node? client = some first)
    (there : tree.node? server = some second) :
    (∃ failure, tree.checkEnds filter client server = .error failure) ↔
      filter.parentEdges = false ∧
        (tree.isOpenGroup filter client = true ∨ tree.isOpenGroup filter server = true) := by
  rw [checkEnds, here, there]
  cases filter.parentEdges <;> cases tree.isOpenGroup filter client <;>
    cases tree.isOpenGroup filter server <;> simp

/-- An edge that is not shown has no route. -/
theorem route_hidden {tree : Tree} {filter : Filter} {edge : Edge}
    (hidden : ¬ filter.showsEdge edge = true) : tree.route filter edge = .ok none := by
  rw [route]
  exact if_neg hidden

/-- The route of a shown edge whose endpoints are in the tree. -/
theorem route_found {tree : Tree} {filter : Filter} {edge : Edge} {client server : Nat}
    (shown : filter.showsEdge edge = true) (first : tree.find? edge.client = some client)
    (second : tree.find? edge.server = some server) :
    tree.route filter edge =
      if tree.representative filter client = tree.representative filter server then .ok none
      else do
        tree.checkEnds filter (tree.representative filter client) (tree.representative filter server)
        return some ⟨edge, tree.representative filter client, tree.representative filter server,
          tree.drawnLabels filter edge server⟩ := by
  rw [route, ← Filter.showsEdge, if_pos shown, lookupEnd_eq_ok_iff.mpr first,
    lookupEnd_eq_ok_iff.mpr second]
  change (if tree.surface filter client = tree.surface filter server then _ else _) = _
  simp only [surface_eq, surfacedLabels_eq]
  rfl

/-- A shown edge with a missing endpoint has no route. -/
theorem route_dangling {tree : Tree} {filter : Filter} {edge : Edge}
    (dangles : tree.Dangles filter edge) : ∃ failure, tree.route filter edge = .error failure := by
  obtain ⟨shown, missing⟩ := dangles
  rw [route, ← Filter.showsEdge, if_pos shown]
  by_cases held : tree.Holds edge.client
  · obtain ⟨client, node, present, same⟩ := held
    have lost : ¬ tree.Holds edge.server := fun also => missing ⟨⟨client, node, present, same⟩, also⟩
    have found : tree.find? edge.client = some client := find?_eq_some_iff.mpr ⟨node, present, same⟩
    refine Outcome.bind_fails_iff.mpr (Or.inr ⟨client, lookupEnd_eq_ok_iff.mpr found, ?_⟩)
    exact Outcome.bind_fails_iff.mpr (Or.inl (lookupEnd_fails_iff.mpr lost))
  · exact Outcome.bind_fails_iff.mpr (Or.inl (lookupEnd_fails_iff.mpr held))

/-- Routing an edge fails exactly when the edge dangles, or when it would end on an expanded group and
must not. The tests come in this order: hidden edges are not routed, then both ends have to be found, and
edges that fold into one node are dropped before it is asked whether an end is an expanded group. -/
theorem route_fails_iff {tree : Tree} {filter : Filter} {edge : Edge} :
    (∃ failure, tree.route filter edge = .error failure) ↔
      tree.Dangles filter edge ∨ filter.parentEdges = false ∧ tree.EndsOnOpenGroup filter edge := by
  by_cases shown : filter.showsEdge edge = true
  · by_cases held : tree.Holds edge.client ∧ tree.Holds edge.server
    · obtain ⟨⟨client, first, here, firstId⟩, ⟨server, second, there, secondId⟩⟩ := held
      have foundClient : tree.find? edge.client = some client :=
        find?_eq_some_iff.mpr ⟨first, here, firstId⟩
      have foundServer : tree.find? edge.server = some server :=
        find?_eq_some_iff.mpr ⟨second, there, secondId⟩
      have notDangling : ¬ tree.Dangles filter edge := fun dangles =>
        dangles.2 ⟨⟨client, first, here, firstId⟩, ⟨server, second, there, secondId⟩⟩
      obtain ⟨drawnClient, clientNode⟩ := exists_representative filter here
      obtain ⟨drawnServer, serverNode⟩ := exists_representative filter there
      rw [route_found shown foundClient foundServer, EndsOnOpenGroup, foundClient, foundServer]
      simp only [notDangling, false_or, shown, true_and, Option.some.injEq]
      by_cases folded : tree.representative filter client = tree.representative filter server
      · simp [folded]
      · rw [if_neg folded, Outcome.bind_fails_iff, checkEnds_fails_iff clientNode serverNode]
        simp [folded, pure, Except.pure]
    · have dangles : tree.Dangles filter edge := ⟨shown, held⟩
      exact iff_of_true (route_dangling dangles) (Or.inl dangles)
  · rw [route_hidden shown]
    simp [Dangles, EndsOnOpenGroup, shown]

/-- Where routing a shown edge does not fail, both of its endpoints are in the tree. -/
theorem exists_ends_of_route {tree : Tree} {filter : Filter} {edge : Edge} {found : Option Route}
    (shown : filter.showsEdge edge = true) (routed : tree.route filter edge = .ok found) :
    ∃ client server, tree.find? edge.client = some client ∧
      tree.find? edge.server = some server := by
  have held : tree.Holds edge.client ∧ tree.Holds edge.server := by
    by_contra missing
    obtain ⟨failure, failed⟩ := route_dangling ⟨shown, missing⟩
    rw [failed] at routed
    cases routed
  obtain ⟨⟨client, first, here, firstId⟩, ⟨server, second, there, secondId⟩⟩ := held
  exact ⟨client, server, find?_eq_some_iff.mpr ⟨first, here, firstId⟩,
    find?_eq_some_iff.mpr ⟨second, there, secondId⟩⟩

/-- A route contributes what its edge does. Routes are how the edges of a graph are computed, with
failures on the way; contributions say without failures what comes of an edge. Where routing succeeds,
the two give the same. -/
theorem routeContribution?_of_route {tree : Tree} {filter : Filter} {edge : Edge}
    {found : Option Route} (routed : tree.route filter edge = .ok found) :
    found.bind tree.routeContribution? = tree.contribution? filter edge := by
  by_cases shown : filter.showsEdge edge = true
  · obtain ⟨client, server, foundClient, foundServer⟩ := exists_ends_of_route shown routed
    obtain ⟨first, here, _⟩ := find?_eq_some_iff.mp foundClient
    obtain ⟨second, there, _⟩ := find?_eq_some_iff.mp foundServer
    obtain ⟨drawnClient, clientNode⟩ := exists_representative filter here
    obtain ⟨drawnServer, serverNode⟩ := exists_representative filter there
    rw [route_found shown foundClient foundServer] at routed
    rw [contribution?, if_pos shown, foundClient, foundServer]
    by_cases folded : tree.representative filter client = tree.representative filter server
    · rw [if_pos folded, Except.ok.injEq] at routed
      subst routed
      simp [folded, serverNode]
    · rw [if_neg folded] at routed
      obtain ⟨_, _, returned⟩ := Outcome.bind_eq_ok_iff.mp routed
      have same := Except.ok.inj returned
      subst same
      simp [routeContribution?, clientNode, serverNode, folded]
  · rw [route_hidden shown, Except.ok.injEq] at routed
    subst routed
    rw [contribution?, if_neg shown]
    rfl

/-- Routing all edges fails exactly when routing one of them does. -/
theorem routes_fails_iff {tree : Tree} {edges : Edges} {filter : Filter} :
    (∃ failure, tree.routes edges filter = .error failure) ↔
      (∃ edge ∈ edges.values, tree.Dangles filter edge) ∨
        filter.parentEdges = false ∧ ∃ edge ∈ edges.values, tree.EndsOnOpenGroup filter edge := by
  have collected : (∃ failure, tree.routes edges filter = .error failure) ↔
      ∃ failure, edges.values.mapM (tree.route filter) = .error failure := by
    rw [routes, Outcome.bind_fails_iff]
    simp [pure, Except.pure]
  rw [collected, Outcome.mapM_fails_iff]
  simp only [route_fails_iff]
  constructor
  · rintro ⟨edge, listed, dangles | ⟨refused, ends⟩⟩
    · exact Or.inl ⟨edge, listed, dangles⟩
    · exact Or.inr ⟨refused, edge, listed, ends⟩
  · rintro (⟨edge, listed, dangles⟩ | ⟨refused, edge, listed, ends⟩)
    · exact ⟨edge, listed, Or.inl dangles⟩
    · exact ⟨edge, listed, Or.inr ⟨refused, ends⟩⟩

/-- The routes of all edges contribute what the edges do, in order. -/
theorem contributions_of_routes {tree : Tree} {edges : Edges} {filter : Filter}
    {found : List Route} (routed : tree.routes edges filter = .ok found) :
    found.filterMap tree.routeContribution? = edges.values.filterMap (tree.contribution? filter) := by
  obtain ⟨results, each, collected⟩ := Outcome.bind_eq_ok_iff.mp routed
  have same := Except.ok.inj collected
  subst same
  rw [List.filterMap_filterMap]
  symm
  exact Outcome.filterMap_congr_of_forall₂ (Outcome.mapM_eq_ok_iff.mp each)
    (fun edge result here => (routeContribution?_of_route here).symm)

/-- The edges gathered from routes are the merged contributions of the routes. -/
theorem surfaced_edges (tree : Tree) (found : List Route) :
    (tree.surfaced found).edges = Edges.empty.gatherAll (found.filterMap tree.routeContribution?) := by
  rw [Edges.gatherAll, List.foldl_filterMap]
  change found.foldl tree.gatherRoute Edges.empty = _
  congr 1
  funext edges route
  rw [gatherRoute, routeContribution?]
  cases tree.node? route.client <;> cases tree.node? route.server <;> rfl

end Tree

end DependencyDiagram

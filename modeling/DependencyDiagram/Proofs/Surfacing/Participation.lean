import DependencyDiagram.Proofs.Surfacing.Filtering

/-!
# Who takes part

A node takes part in a drawing when it is an endpoint of a routed edge, or when an endpoint
is drawn there. The first kind may lie deep inside a collapsed group; what matters of it is
that an edge ends at its representative. Conversely, where an edge ends, nothing above is
collapsed, and a leaf there is its own endpoint, hence shown.
-/

namespace DependencyDiagram

/-- A route leads between the representatives of the shown endpoints of its edge. A route remembers its
edge, so that the endpoints can still be asked for after both ends have moved. -/
structure Tree.Leads (tree : Tree) (filter : Filter) (route : Route) : Prop where
  shown : filter.showsEdge route.edge = true
  client : ∃ position, tree.find? route.edge.client = some position ∧
    route.client = tree.representative filter position
  server : ∃ position, tree.find? route.edge.server = some position ∧
    route.server = tree.representative filter position

/-- An edge is drawn from or to the identifier. -/
def VisibleGraph.IsEnd (graph : VisibleGraph) (id : NodeId) : Prop :=
  ∃ edge ∈ graph.edges.values, edge.client = id ∨ edge.server = id

/-- An edge is drawn from or to the node at the position. -/
def VisibleGraph.EndsAt (graph : VisibleGraph) (position : Nat) : Prop :=
  ∃ node, graph.tree.node? position = some node ∧ graph.IsEnd node.id

/-- The node at the position takes part. Being an end is one way of taking part. The other is to be an
endpoint of an edge that is drawn elsewhere. -/
def VisibleGraph.TakesPartAt (graph : VisibleGraph) (position : Nat) : Prop :=
  ∃ node, graph.tree.node? position = some node ∧ node.id ∈ graph.surfaced.participants.members

namespace Tree

variable {tree : Tree} {edges : Edges} {filter : Filter} {found : List Route}

/-- A route that was found leads between representatives. -/
theorem leads_of_route {edge : Edge} {route : Route}
    (routed : tree.route filter edge = .ok (some route)) : tree.Leads filter route := by
  by_cases shown : filter.showsEdge edge = true
  · obtain ⟨client, server, foundClient, foundServer⟩ := exists_ends_of_route shown routed
    rw [route_found shown foundClient foundServer] at routed
    by_cases folded : tree.representative filter client = tree.representative filter server
    · rw [if_pos folded] at routed
      cases routed
    · rw [if_neg folded] at routed
      obtain ⟨_, _, returned⟩ := Outcome.bind_eq_ok_iff.mp routed
      obtain rfl := Option.some.inj (Except.ok.inj returned)
      exact ⟨shown, ⟨client, foundClient, rfl⟩, ⟨server, foundServer, rfl⟩⟩
  · rw [route_hidden shown] at routed
    cases routed

/-- All routes lead between representatives. -/
theorem leads_of_routes (routed : tree.routes edges filter = .ok found) :
    ∀ route ∈ found, tree.Leads filter route := by
  intro route listed
  obtain ⟨results, each, collected⟩ := Outcome.bind_eq_ok_iff.mp routed
  obtain rfl := Except.ok.inj collected
  obtain ⟨result, present, here⟩ := List.mem_filterMap.mp listed
  obtain rfl : result = some route := here
  obtain ⟨edge, _, single⟩ := Outcome.exists_of_mem_right (Outcome.mapM_eq_ok_iff.mp each) present
  exact leads_of_route single

/-- A contribution to the merged edges is at one of their ends, and nothing else is. -/
theorem mem_ends_merged {contributions : List Contribution} {id : NodeId} :
    (∃ edge ∈ Contribution.merged contributions, edge.client = id ∨ edge.server = id) ↔
      ∃ contribution ∈ contributions, contribution.client = id ∨ contribution.server = id := by
  simp [Contribution.merged, Contribution.edgeOf, Contribution.ends, List.mem_eraseDups]

/-- The identifiers at a position are those that are found there. -/
theorem mem_idsAt {id : NodeId} {position : Nat} :
    id ∈ tree.idsAt position ↔ tree.find? id = some position := by
  rw [idsAt, Option.mem_toList, Option.map_eq_some_iff, find?_eq_some_iff]

/-- Both ends of a route are nodes of the tree. -/
theorem exists_nodes_of_leads {route : Route} (leads : tree.Leads filter route) :
    ∃ client server, tree.node? route.client = some client ∧
      tree.node? route.server = some server := by
  obtain ⟨client, foundClient, clientSurface⟩ := leads.client
  obtain ⟨server, foundServer, serverSurface⟩ := leads.server
  obtain ⟨first, here, _⟩ := find?_eq_some_iff.mp foundClient
  obtain ⟨second, there, _⟩ := find?_eq_some_iff.mp foundServer
  obtain ⟨drawnClient, clientNode⟩ := exists_representative filter here
  obtain ⟨drawnServer, serverNode⟩ := exists_representative filter there
  exact ⟨drawnClient, drawnServer, clientSurface ▸ clientNode, serverSurface ▸ serverNode⟩

/-- The surfaced edges end where the routes do. -/
theorem isEnd_iff (routed : tree.routes edges filter = .ok found) {id : NodeId} :
    (VisibleGraph.ofSurfaced tree filter (tree.surfaced found)).IsEnd id ↔
      ∃ route ∈ found, tree.find? id = some route.client ∨ tree.find? id = some route.server := by
  change (∃ edge ∈ (tree.surfaced found).edges.values, _) ↔ _
  rw [surfaced_edges, Edges.values_gatherAll, mem_ends_merged]
  simp only [List.mem_filterMap, ← mem_idsAt]
  constructor
  · rintro ⟨contribution, ⟨route, listed, made⟩, ends⟩
    obtain ⟨client, server, here, there⟩ := exists_nodes_of_leads (leads_of_routes routed route listed)
    rw [routeContribution?, here, there] at made
    obtain rfl := Option.some.inj made
    refine ⟨route, listed, ?_⟩
    simpa [idsAt, here, there, eq_comm] using ends
  · rintro ⟨route, listed, ends⟩
    obtain ⟨client, server, here, there⟩ := exists_nodes_of_leads (leads_of_routes routed route listed)
    refine ⟨⟨client.id, server.id, route.labels, server.isLeaf⟩, ⟨route, listed, ?_⟩, ?_⟩
    · rw [routeContribution?, here, there]
    · simpa [idsAt, here, there, eq_comm] using ends

/-- The surfaced edges end at a position when a route does. -/
theorem endsAt_iff (routed : tree.routes edges filter = .ok found) {position : Nat} :
    (VisibleGraph.ofSurfaced tree filter (tree.surfaced found)).EndsAt position ↔
      ∃ route ∈ found, route.client = position ∨ route.server = position := by
  constructor
  · rintro ⟨node, present, ends⟩
    obtain ⟨route, listed, here⟩ := (isEnd_iff routed).mp ends
    have own : tree.find? node.id = some position := find?_id present
    rw [own, Option.some.injEq, Option.some.injEq] at here
    exact ⟨route, listed, here.imp Eq.symm Eq.symm⟩
  · rintro ⟨route, listed, here⟩
    obtain ⟨client, server, clientNode, serverNode⟩ :=
      exists_nodes_of_leads (leads_of_routes routed route listed)
    rcases here with rfl | rfl
    · exact ⟨client, clientNode, (isEnd_iff routed).mpr ⟨route, listed, Or.inl (find?_id clientNode)⟩⟩
    · exact ⟨server, serverNode, (isEnd_iff routed).mpr ⟨route, listed, Or.inr (find?_id serverNode)⟩⟩

/-- Who takes part is an endpoint of a routed edge or is drawn in place of one. -/
theorem takesPartAt_iff {position : Nat} :
    (VisibleGraph.ofSurfaced tree filter (tree.surfaced found)).TakesPartAt position ↔
      ∃ route ∈ found, ∃ id ∈ tree.participantsOf route, tree.find? id = some position := by
  simp only [VisibleGraph.TakesPartAt, VisibleGraph.ofSurfaced, surfaced, Collection.mem_ofList,
    List.mem_flatMap, find?_eq_some_iff]
  constructor
  · rintro ⟨node, present, route, listed, among⟩
    exact ⟨route, listed, node.id, among, node, present, rfl⟩
  · rintro ⟨route, listed, id, among, node, present, rfl⟩
    exact ⟨node, present, route, listed, among⟩

end Tree

namespace VisibleGraph

variable {tree : Tree} {edges : Edges} {filter : Filter} {graph : VisibleGraph}

open DependencyDiagram.Tree

/-- A filtered graph keeps the tree. -/
theorem tree_of_applyFilter (applied : applyFilter tree edges filter = .ok graph) :
    graph.tree = tree := by
  obtain ⟨found, _, rfl⟩ := exists_routes_of_applyFilter applied
  rfl

/-- A filtered graph keeps the filter. -/
theorem filter_of_applyFilter (applied : applyFilter tree edges filter = .ok graph) :
    graph.filter = filter := by
  obtain ⟨found, _, rfl⟩ := exists_routes_of_applyFilter applied
  rfl

/-- The ends of the drawn edges are in the tree. -/
theorem exists_position_of_isEnd (applied : applyFilter tree edges filter = .ok graph) {id : NodeId}
    (ends : graph.IsEnd id) : ∃ position, graph.tree.find? id = some position := by
  obtain ⟨found, routed, rfl⟩ := exists_routes_of_applyFilter applied
  obtain ⟨route, _, here⟩ := (isEnd_iff routed).mp ends
  exact here.elim (fun client => ⟨route.client, client⟩) (fun server => ⟨route.server, server⟩)

/-- Where an edge ends, a node takes part. -/
theorem takesPartAt_of_endsAt (applied : applyFilter tree edges filter = .ok graph) {position : Nat}
    (ends : graph.EndsAt position) : graph.TakesPartAt position := by
  obtain ⟨found, routed, rfl⟩ := exists_routes_of_applyFilter applied
  obtain ⟨node, present, ended⟩ := ends
  obtain ⟨route, listed, here⟩ := (isEnd_iff routed).mp ended
  refine takesPartAt_iff.mpr ⟨route, listed, node.id, ?_, find?_id present⟩
  rw [participantsOf, List.mem_append, List.mem_append, mem_idsAt, mem_idsAt]
  exact here.elim (fun client => Or.inl (Or.inr client)) Or.inr

/-- Every end of an edge represents a shown node of the tree. -/
theorem exists_represented (applied : applyFilter tree edges filter = .ok graph) {position : Nat}
    (ends : graph.EndsAt position) :
    ∃ lower node, tree.node? lower = some node ∧ filter.showsLeaf node.id = true ∧
      tree.representative filter lower = position := by
  obtain ⟨found, routed, rfl⟩ := exists_routes_of_applyFilter applied
  obtain ⟨route, listed, here⟩ := (endsAt_iff routed).mp ends
  have leads := leads_of_routes routed route listed
  have shown := Bool.and_eq_true_iff.mp leads.shown
  obtain ⟨client, foundClient, clientSurface⟩ := leads.client
  obtain ⟨server, foundServer, serverSurface⟩ := leads.server
  rcases here with rfl | rfl
  · obtain ⟨node, present, named⟩ := find?_eq_some_iff.mp foundClient
    exact ⟨client, node, present, named ▸ shown.1, clientSurface.symm⟩
  · obtain ⟨node, present, named⟩ := find?_eq_some_iff.mp foundServer
    exact ⟨server, node, present, named ▸ shown.2, serverSurface.symm⟩

/-- Nothing above the end of an edge is collapsed. -/
theorem outermostCollapsed?_of_endsAt (applied : applyFilter tree edges filter = .ok graph)
    {position : Nat} (ends : graph.EndsAt position) :
    tree.outermostCollapsed? filter position = none := by
  obtain ⟨lower, _, _, _, rfl⟩ := exists_represented applied ends
  exact tree.outermostCollapsed?_representative filter lower

/-- An edge ends at the representative of every node that takes part. A node takes part as an end of a
shown edge or as the surface of such an end. Surfaces represent themselves, so in either case the
representative is where the edge ends. -/
theorem endsAt_of_takesPartAt (applied : applyFilter tree edges filter = .ok graph)
    {position : Nat} (takesPart : graph.TakesPartAt position) :
    graph.EndsAt (tree.representative filter position) := by
  obtain ⟨found, routed, rfl⟩ := exists_routes_of_applyFilter applied
  obtain ⟨route, listed, id, among, here⟩ := takesPartAt_iff.mp takesPart
  have leads := leads_of_routes routed route listed
  obtain ⟨client, foundClient, clientSurface⟩ := leads.client
  obtain ⟨server, foundServer, serverSurface⟩ := leads.server
  have settled (lower : Nat) : tree.representative filter (tree.representative filter lower) =
      tree.representative filter lower :=
    representative_eq_self_iff.mpr (tree.outermostCollapsed?_representative filter lower)
  rw [participantsOf, List.mem_append, List.mem_append, mem_idsAt, mem_idsAt, List.mem_pair,
    here] at among
  refine (endsAt_iff routed).mpr ⟨route, listed, ?_⟩
  rcases among with ((rfl | rfl) | client) | server
  · rw [here, Option.some.injEq] at foundClient
    exact Or.inl (foundClient ▸ clientSurface)
  · rw [here, Option.some.injEq] at foundServer
    exact Or.inr (foundServer ▸ serverSurface)
  · obtain rfl := Option.some.inj client
    exact Or.inl (by rw [clientSurface, settled])
  · obtain rfl := Option.some.inj server
    exact Or.inr (by rw [serverSurface, settled])

end VisibleGraph

end DependencyDiagram

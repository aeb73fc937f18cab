import DependencyDiagram.Proofs.Surfacing.Participation

/-!
# Which nodes are joined

The pairs of nodes between which edges are drawn follow from the input edges alone: every shown edge
joins the representatives of its endpoints, unless these are one node, and no other pair is joined.
Labels and repetitions play no part in this.

It is the coarsest view of a drawing, as a relation between nodes, and it suffices where only the shape
matters.
-/

namespace DependencyDiagram

/-- An edge is drawn from the first identifier to the second. The relation has a direction, and no node
is joined to itself. -/
def VisibleGraph.Joins (graph : VisibleGraph) (client server : NodeId) : Prop :=
  ∃ edge ∈ graph.edges.values, edge.client = client ∧ edge.server = server

instance (graph : VisibleGraph) (client server : NodeId) : Decidable (graph.Joins client server) :=
  inferInstanceAs (Decidable (∃ edge ∈ graph.edges.values, edge.client = client ∧ edge.server = server))

namespace Tree

variable {tree : Tree} {edges : Edges} {filter : Filter} {graph : VisibleGraph}

/-- A shown edge with both endpoints in the tree leads from one representative to another. The positions
are those at which the edge would be drawn, and not those of its endpoints. -/
structure LeadsBetween (tree : Tree) (filter : Filter) (edge : Edge) (first second : Nat) : Prop where
  shown : filter.showsEdge edge = true
  client : ∃ position, tree.find? edge.client = some position ∧
    tree.representative filter position = first
  server : ∃ position, tree.find? edge.server = some position ∧
    tree.representative filter position = second
  apart : first ≠ second

/-- The merged contributions join the pairs that are contributed. -/
theorem exists_merged_iff {contributions : List Contribution} {client server : NodeId} :
    (∃ edge ∈ Contribution.merged contributions, edge.client = client ∧ edge.server = server) ↔
      ∃ contribution ∈ contributions,
        contribution.client = client ∧ contribution.server = server := by
  simp [Contribution.merged, Contribution.edgeOf, Contribution.ends, List.mem_eraseDups]

/-- An edge contributes to a pair exactly when it leads between the nodes of the pair. The computation
asks in turn whether the edge is shown, whether both ends are found, where they surface and whether they
surface apart. Leading between two positions states the same four things of the positions. -/
theorem contributes_iff {edge : Edge} {client server : NodeId} :
    (∃ contribution, tree.contribution? filter edge = some contribution ∧
        contribution.client = client ∧ contribution.server = server) ↔
      ∃ first second, tree.LeadsBetween filter edge first second ∧
        tree.find? client = some first ∧ tree.find? server = some second := by
  constructor
  · rintro ⟨contribution, made, rfl, rfl⟩
    rw [contribution?] at made
    split at made
    · next shown =>
      obtain ⟨start, foundStart, next⟩ := Option.bind_eq_some_iff.mp made
      obtain ⟨goal, foundGoal, further⟩ := Option.bind_eq_some_iff.mp next
      obtain ⟨drawnStart, here, rest⟩ := Option.bind_eq_some_iff.mp further
      obtain ⟨drawnGoal, there, last⟩ := Option.bind_eq_some_iff.mp rest
      split at last
      · cases last
      · next apart =>
        obtain rfl := Option.some.inj last
        exact ⟨_, _, ⟨shown, ⟨start, foundStart, rfl⟩, ⟨goal, foundGoal, rfl⟩, apart⟩,
          find?_id here, find?_id there⟩
    · cases made
  · rintro ⟨_, _, ⟨shown, ⟨start, foundStart, rfl⟩, ⟨goal, foundGoal, rfl⟩, apart⟩, first, second⟩
    obtain ⟨drawnStart, here, rfl⟩ := find?_eq_some_iff.mp first
    obtain ⟨drawnGoal, there, rfl⟩ := find?_eq_some_iff.mp second
    refine ⟨⟨drawnStart.id, drawnGoal.id, tree.drawnLabels filter edge goal, drawnGoal.isLeaf⟩, ?_, rfl, rfl⟩
    rw [contribution?, if_pos shown, foundStart, foundGoal]
    simp [here, there, apart]

/-- The nodes between which an edge leads have identifiers. -/
theorem exists_ids_of_leadsBetween {edge : Edge} {first second : Nat}
    (leads : tree.LeadsBetween filter edge first second) :
    ∃ client server, tree.find? client = some first ∧ tree.find? server = some second := by
  obtain ⟨_, ⟨start, foundStart, rfl⟩, ⟨goal, foundGoal, rfl⟩, _⟩ := leads
  obtain ⟨startNode, here, _⟩ := find?_eq_some_iff.mp foundStart
  obtain ⟨goalNode, there, _⟩ := find?_eq_some_iff.mp foundGoal
  obtain ⟨client, clientNode⟩ := exists_representative filter here
  obtain ⟨server, serverNode⟩ := exists_representative filter there
  exact ⟨client.id, server.id, find?_id clientNode, find?_id serverNode⟩

/-- Two nodes are joined exactly when a shown edge leads between them. -/
theorem joins_iff (applied : applyFilter tree edges filter = .ok graph) {client server : NodeId} :
    graph.Joins client server ↔ ∃ edge ∈ edges.values, ∃ first second,
      tree.LeadsBetween filter edge first second ∧
        tree.find? client = some first ∧ tree.find? server = some second := by
  rw [VisibleGraph.Joins, values_of_applyFilter applied, exists_merged_iff]
  simp only [← contributes_iff, List.mem_filterMap]
  constructor
  · rintro ⟨contribution, ⟨edge, listed, made⟩, ends⟩
    exact ⟨edge, listed, contribution, made, ends⟩
  · rintro ⟨edge, listed, contribution, made, ends⟩
    exact ⟨contribution, ⟨edge, listed, made⟩, ends⟩

/-- An edge ends on an expanded group when it leads from or to one. -/
theorem endsOnOpenGroup_iff {edge : Edge} :
    tree.EndsOnOpenGroup filter edge ↔ ∃ first second, tree.LeadsBetween filter edge first second ∧
      (tree.isOpenGroup filter first = true ∨ tree.isOpenGroup filter second = true) := by
  constructor
  · rintro ⟨shown, start, goal, foundStart, foundGoal, apart, open_⟩
    exact ⟨_, _, ⟨shown, ⟨start, foundStart, rfl⟩, ⟨goal, foundGoal, rfl⟩, apart⟩, open_⟩
  · rintro ⟨_, _, ⟨shown, ⟨start, foundStart, rfl⟩, ⟨goal, foundGoal, rfl⟩, apart⟩, open_⟩
    exact ⟨shown, start, goal, foundStart, foundGoal, apart, open_⟩

/-- Edges end on a node exactly when a shown edge leads from or to it. -/
theorem endsAt_iff_leadsBetween (applied : applyFilter tree edges filter = .ok graph)
    {position : Nat} :
    graph.EndsAt position ↔ ∃ edge ∈ edges.values, ∃ first second,
      tree.LeadsBetween filter edge first second ∧ (first = position ∨ second = position) := by
  constructor
  · rintro ⟨node, present, drawn, listed, ends⟩
    rw [VisibleGraph.tree_of_applyFilter applied] at present
    obtain ⟨edge, given, first, second, leads, client, server⟩ :=
      (joins_iff applied).mp ⟨drawn, listed, rfl, rfl⟩
    refine ⟨edge, given, first, second, leads, ends.imp (fun same => ?_) (fun same => ?_)⟩
    · exact Option.some.inj (client.symm.trans (same ▸ find?_id present))
    · exact Option.some.inj (server.symm.trans (same ▸ find?_id present))
  · rintro ⟨edge, given, first, second, leads, ends⟩
    obtain ⟨client, server, foundClient, foundServer⟩ := exists_ids_of_leadsBetween leads
    obtain ⟨drawn, listed, rfl, rfl⟩ :=
      (joins_iff applied).mpr ⟨edge, given, first, second, leads, foundClient, foundServer⟩
    rw [VisibleGraph.EndsAt, VisibleGraph.tree_of_applyFilter applied]
    rcases ends with rfl | rfl
    · obtain ⟨node, present, named⟩ := find?_eq_some_iff.mp foundClient
      exact ⟨node, present, drawn, listed, Or.inl named.symm⟩
    · obtain ⟨node, present, named⟩ := find?_eq_some_iff.mp foundServer
      exact ⟨node, present, drawn, listed, Or.inr named.symm⟩

/-- Where edges must not end on expanded groups, none does. -/
theorem isOpenGroup_of_endsAt (applied : applyFilter tree edges filter = .ok graph)
    (refused : filter.parentEdges = false) {position : Nat} (ends : graph.EndsAt position) :
    tree.isOpenGroup filter position = false := by
  obtain ⟨edge, listed, first, second, leads, here⟩ := (endsAt_iff_leadsBetween applied).mp ends
  rw [Bool.eq_false_iff]
  intro open_
  refine Outcome.fails_iff_no_value.mp (applyFilter_fails_iff.mpr ?_) ⟨graph, applied⟩
  refine Or.inr ⟨refused, edge, listed, endsOnOpenGroup_iff.mpr ⟨first, second, leads, ?_⟩⟩
  rcases here with rfl | rfl
  · exact Or.inl open_
  · exact Or.inr open_

end Tree

end DependencyDiagram

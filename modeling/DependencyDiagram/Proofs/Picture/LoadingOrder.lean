import DependencyDiagram.Proofs.Edges.Reordering
import DependencyDiagram.Proofs.Picture.ClickThrough
import DependencyDiagram.Proofs.Picture.Success
import Mathlib.Data.List.Sort
import Mathlib.Data.String.Basic

/-!
# The order of loading

A picture does not depend on the order in which edges were loaded. Matching edges are routed alike,
so the same nodes take part, the same nodes show, and what is drawn of the nodes is the same. The
surfaced edges match again, and of an edge's labels only the ascending list of the distinct ones is
drawn. So the drawn edges are the same as well, in another order; and where there is no picture, the
message or the failure is the same.
-/

namespace DependencyDiagram

open DependencyDiagram.Tree

/-- Two routes lead between the same places for edges of the same pair, with the same labels. Labels are
compared as sets, since they may come in another order and more than once. -/
structure Route.Alike (first second : Route) : Prop where
  edgeClient : first.edge.client = second.edge.client
  edgeServer : first.edge.server = second.edge.server
  client : first.client = second.client
  server : first.server = second.server
  labels : ∀ label, label ∈ first.labels ↔ label ∈ second.labels

/-- Two graphs show the same of one tree under one filter, and their edges match. Everything that drawing
nodes asks of a graph is the same in both; only the order of edges and the order of labels may differ. -/
structure VisibleGraph.Alike (first second : VisibleGraph) : Prop where
  tree : first.tree = second.tree
  filter : first.filter = second.filter
  showing : first.showing = second.showing
  edges : Matched Edge.Alike first.edges.values second.edges.values

/-- Two outcomes of projecting agree: they are the same failure, the same message in place of a picture,
or images with the same nodes whose edges differ in their order at most. The side tables may be
different, since a row replaces an earlier one with its key and the order of the edges decides which
comes later. -/
inductive Projection.Agree : Except Failure Projection → Except Failure Projection → Prop
  | failed (failure : Failure) : Agree (.error failure) (.error failure)
  | tooLarge (message : String) : Agree (.ok (.tooLarge message)) (.ok (.tooLarge message))
  | drawn {first second : Image} {side otherSide : SideTable} (nodes : first.nodes = second.nodes)
      (edges : first.edges.Perm second.edges) (details : first.edgeDetails = second.edgeDetails)
      (parentEdges : first.hasParentEdges = second.hasParentEdges) :
      Agree (.ok (.image first side)) (.ok (.image second otherSide))

/-- The text of labels depends on the set of the labels alone. -/
theorem joinedLabels_congr {left right : List String}
    (same : ∀ label, label ∈ left ↔ label ∈ right) : joinedLabels left = joinedLabels right := by
  have ascending (labels : List String) : (ascendingMembers labels).Pairwise (· < ·) :=
    (ascendingMembers_ascending labels).imp compare_lt_iff_lt.mp
  have members : ascendingMembers left = ascendingMembers right :=
    (ascending left).eq_of_mem_iff (ascending right)
      (fun label => by rw [mem_ascendingMembers, mem_ascendingMembers, same label])
  rw [joinedLabels, joinedLabels, members]

namespace Tree

variable {tree : Tree} {filter : Filter} {first second : Edges} {edge other : Edge}
  {few many : List Route}

/-- Alike edges are drawn with the same labels. -/
theorem mem_drawnLabels_congr (alike : edge.Alike other) (server : Nat) (label : String) :
    label ∈ tree.drawnLabels filter edge server ↔ label ∈ tree.drawnLabels filter other server := by
  rw [drawnLabels, drawnLabels]
  split
  · exact alike.labels label
  · exact Iff.rfl

/-- Alike edges are routed alike. The ends of an edge decide alone whether it is shown, which positions
it is routed to and whether that is allowed. Labels are only carried along, so they may come in another
order. -/
theorem route_alike (alike : edge.Alike other) {result : Option Route}
    (routed : tree.route filter edge = .ok result) :
    ∃ also, tree.route filter other = .ok also ∧
      ∀ route, result = some route → ∃ further, also = some further ∧ route.Alike further := by
  have same : filter.showsEdge edge = filter.showsEdge other := by
    rw [Filter.showsEdge, Filter.showsEdge, alike.client, alike.server]
  by_cases shown : filter.showsEdge edge = true
  · obtain ⟨client, server, foundClient, foundServer⟩ := exists_ends_of_route shown routed
    rw [route_found shown foundClient foundServer] at routed
    rw [route_found (same ▸ shown) (alike.client ▸ foundClient) (alike.server ▸ foundServer)]
    by_cases folded : tree.representative filter client = tree.representative filter server
    · rw [if_pos folded] at routed ⊢
      obtain rfl := Except.ok.inj routed
      exact ⟨none, rfl, fun _ impossible => by cases impossible⟩
    · rw [if_neg folded] at routed ⊢
      obtain ⟨_, allowed, returned⟩ := Outcome.bind_eq_ok_iff.mp routed
      obtain rfl := Except.ok.inj returned
      refine ⟨_, Outcome.bind_eq_ok_iff.mpr ⟨_, allowed, rfl⟩, fun route here => ⟨_, rfl, ?_⟩⟩
      obtain rfl := Option.some.inj here
      exact ⟨alike.client, alike.server, rfl, rfl, mem_drawnLabels_congr alike server⟩
  · rw [route_hidden shown] at routed
    obtain rfl := Except.ok.inj routed
    exact ⟨none, route_hidden (same ▸ shown), fun _ impossible => by cases impossible⟩

/-- Routes of covered edges are covered. -/
theorem routes_covered (covers : Covers Edge.Alike first.values second.values)
    (routed : tree.routes first filter = .ok few) (also : tree.routes second filter = .ok many) :
    Covers Route.Alike few many := by
  obtain ⟨results, each, collected⟩ := Outcome.bind_eq_ok_iff.mp routed
  obtain ⟨others, eachOther, collectedOther⟩ := Outcome.bind_eq_ok_iff.mp also
  obtain rfl := Except.ok.inj collected
  obtain rfl := Except.ok.inj collectedOther
  have paired : Covers (fun result further => ∀ route, result = some route →
      ∃ follower, further = some follower ∧ Route.Alike route follower) results others := by
    refine covers.results (Outcome.mapM_eq_ok_iff.mp each) (Outcome.mapM_eq_ok_iff.mp eachOther) ?_
    intro edge other result further alike here there
    obtain ⟨found, routedOther, follows⟩ := route_alike alike here
    obtain rfl := Except.ok.inj (routedOther.symm.trans there)
    exact follows
  exact paired.filterMap (fun _ _ follows => follows)

/-- Where edges are routed, so are matching ones, and the routes match. -/
theorem exists_routes_of_matched (matched : Matched Edge.Alike first.values second.values)
    (routed : tree.routes first filter = .ok few) :
    ∃ many, tree.routes second filter = .ok many ∧ Matched Route.Alike few many := by
  obtain ⟨_, each, _⟩ := Outcome.bind_eq_ok_iff.mp routed
  obtain ⟨results, ran⟩ : ∃ results, second.values.mapM (tree.route filter) = .ok results := by
    refine Outcome.mapM_succeeds (fun other listed => ?_)
    obtain ⟨edge, member, alike⟩ := matched.back other listed
    obtain ⟨_, _, here⟩ := Outcome.exists_of_mem_left (Outcome.mapM_eq_ok_iff.mp each) member
    obtain ⟨result, routedOther, _⟩ := route_alike alike.symm here
    exact ⟨result, routedOther⟩
  have also : tree.routes second filter = .ok (results.filterMap id) :=
    Outcome.bind_eq_ok_iff.mpr ⟨results, ran, rfl⟩
  exact ⟨_, also, routes_covered matched.forth routed also, routes_covered matched.back also routed⟩

/-- In alike routes the same nodes take part. -/
theorem participantsOf_alike {route further : Route} (alike : route.Alike further) :
    tree.participantsOf route = tree.participantsOf further := by
  rw [participantsOf, participantsOf, alike.edgeClient, alike.edgeServer, alike.client, alike.server]

/-- The same nodes take part in matching routes. -/
theorem mem_participants_congr (matched : Matched Route.Alike few many) (id : NodeId) :
    id ∈ (tree.surfaced few).participants.members ↔
      id ∈ (tree.surfaced many).participants.members := by
  have taken {first second : List Route} (covers : Covers Route.Alike first second)
      (listed : id ∈ first.flatMap tree.participantsOf) :
      id ∈ second.flatMap tree.participantsOf := by
    obtain ⟨route, member, here⟩ := List.mem_flatMap.mp listed
    obtain ⟨further, present, alike⟩ := covers route member
    exact List.mem_flatMap.mpr ⟨further, present, participantsOf_alike alike ▸ here⟩
  change id ∈ (Collection.ofList _).members ↔ id ∈ (Collection.ofList _).members
  rw [Collection.mem_ofList, Collection.mem_ofList]
  exact ⟨taken matched.forth, taken matched.back⟩

/-- Alike routes contribute alike. -/
theorem routeContribution?_alike {route further : Route} (alike : route.Alike further)
    (contribution : Contribution) (made : tree.routeContribution? route = some contribution) :
    ∃ result, tree.routeContribution? further = some result ∧ contribution.Alike result := by
  rw [routeContribution?] at made ⊢
  rw [← alike.client, ← alike.server]
  split at made
  · obtain rfl := Option.some.inj made
    exact ⟨_, rfl, rfl, alike.labels⟩
  · cases made

/-- Matching routes surface as matching edges. -/
theorem edges_matched (matched : Matched Route.Alike few many) :
    Matched Edge.Alike (tree.surfaced few).edges.values (tree.surfaced many).edges.values := by
  rw [surfaced_edges, surfaced_edges, Edges.values_gatherAll, Edges.values_gatherAll]
  apply Contribution.merged_matched
  exact ⟨matched.forth.filterMap (fun _ _ => routeContribution?_alike),
    matched.back.filterMap (fun _ _ => routeContribution?_alike)⟩

/-- What shows depends on the set of those that take part alone. -/
theorem showing_congr {left right : Collection NodeId}
    (same : ∀ id, id ∈ left.members ↔ id ∈ right.members) :
    tree.showing filter left = tree.showing filter right := by
  have contained (id : NodeId) : left.contains id = right.contains id := by
    rw [Bool.eq_iff_iff, Collection.contains_iff, Collection.contains_iff, same id]
  have shows_ : tree.showsWith filter left = tree.showsWith filter right := by
    funext position below
    simp only [showsWith, contained]
  rw [showing, showing, shows_]

end Tree

namespace VisibleGraph

variable {tree : Tree} {filter : Filter} {first second : Edges} {graph other : VisibleGraph}
  {options : ViewOptions} {styles : Styles}

/-- Where a filter can be applied to edges it can be applied to matching ones, and the graphs are
alike. -/
theorem exists_alike (matched : Matched Edge.Alike first.values second.values)
    (applied : applyFilter tree first filter = .ok graph) :
    ∃ other, applyFilter tree second filter = .ok other ∧ graph.Alike other := by
  obtain ⟨few, routed, rfl⟩ := exists_routes_of_applyFilter applied
  obtain ⟨many, also, routes⟩ := exists_routes_of_matched matched routed
  refine ⟨.ofSurfaced tree filter (tree.surfaced many), ?_, rfl, rfl, ?_, edges_matched routes⟩
  · rw [applyFilter_eq, also]
    rfl
  · exact showing_congr (mem_participants_congr routes)

/-- Nothing but the edges tells alike graphs apart. -/
theorem Alike.exists_surfaced (alike : graph.Alike other) :
    ∃ surfaced same, other = ⟨graph.tree, graph.filter, surfaced, graph.showing, same⟩ := by
  obtain ⟨tree, filter, surfaced, showing, same⟩ := other
  obtain ⟨rfl, rfl, rfl, _⟩ := alike
  exact ⟨surfaced, same, rfl⟩

/-- Alike graphs have the same number of visible nodes. -/
theorem Alike.visibleCount (alike : graph.Alike other) : graph.visibleCount = other.visibleCount := by
  obtain ⟨_, _, rfl⟩ := alike.exists_surfaced
  rfl

/-- The nodes of alike graphs are drawn in the same way. -/
theorem Alike.drawNodes (alike : graph.Alike other) :
    drawNodes graph options styles = drawNodes other options styles := by
  obtain ⟨_, _, rfl⟩ := alike.exists_surfaced
  rfl

/-- Alike edges of alike graphs are drawn in the same way. -/
theorem Alike.drawEdge (alike : graph.Alike other) {edge further : Edge} (same : edge.Alike further) :
    drawEdge graph options edge = drawEdge other options further := by
  obtain ⟨_, _, rfl⟩ := alike.exists_surfaced
  have joined := joinedLabels_congr same.labels
  simp only [DependencyDiagram.drawEdge, edgeBetween, same.id, same.client, same.server, joined]
  rfl

/-- No two edges of a filtered graph have one identifier. -/
theorem ids_edges_nodup (applied : applyFilter tree first filter = .ok graph) :
    (graph.edges.values.map Edge.id).Nodup := by
  rw [values_of_applyFilter applied]
  exact Edges.ids_merged_nodup _

/-- Alike graphs have the same number of edges. -/
theorem Alike.size_edges (alike : graph.Alike other)
    (applied : applyFilter tree first filter = .ok graph)
    (also : applyFilter tree second filter = .ok other) : graph.edges.size = other.edges.size := by
  have same := (Edge.ids_perm alike.edges (ids_edges_nodup applied) (ids_edges_nodup also)).length_eq
  simpa only [Edges.size, Table.size, Edges.values, Table.values, List.length_map] using same

/-- The drawn edges of alike graphs are the same in some order. -/
theorem Alike.lines_perm (alike : graph.Alike other)
    (applied : applyFilter tree first filter = .ok graph)
    (also : applyFilter tree second filter = .ok other) {lines others : List ImageEdge}
    (each : List.Forall₂ (fun edge line => DependencyDiagram.drawEdge graph options edge = .ok line)
      graph.edges.values lines)
    (eachOther : List.Forall₂
      (fun edge line => DependencyDiagram.drawEdge other options edge = .ok line)
      other.edges.values others) : lines.Perm others := by
  have once := (identified_of_drawn applied each).2
  have onceOther := (identified_of_drawn also eachOther).2
  -- both lists are drawn by the same step
  have step : DependencyDiagram.drawEdge other options = DependencyDiagram.drawEdge graph options :=
    funext (fun edge => (alike.drawEdge ⟨rfl, rfl, rfl, fun _ => Iff.rfl⟩).symm)
  rw [step] at eachOther
  have same {edge further : Edge} {line result : ImageEdge} (kin : edge.Alike further)
      (here : DependencyDiagram.drawEdge graph options edge = .ok line)
      (there : DependencyDiagram.drawEdge graph options further = .ok result) : line = result := by
    rw [alike.drawEdge kin, step] at here
    exact Except.ok.inj (here.symm.trans there)
  exact Matched.perm ⟨alike.edges.forth.results each eachOther (fun _ _ _ _ => same),
    alike.edges.back.results eachOther each (fun _ _ _ _ => same)⟩ once.of_map onceOther.of_map

/-- All edges of a filtered graph are drawn. -/
theorem exists_lines (applied : applyFilter tree first filter = .ok graph) (options : ViewOptions) :
    ∃ lines, graph.edges.values.mapM (DependencyDiagram.drawEdge graph options) = .ok lines :=
  Outcome.mapM_succeeds (fun _ listed => drawEdge_succeeds applied listed)

/-- Alike graphs are too large for the same options. -/
theorem Alike.isTooLarge (alike : graph.Alike other)
    (applied : applyFilter tree first filter = .ok graph)
    (also : applyFilter tree second filter = .ok other) :
    isTooLarge graph options = isTooLarge other options := by
  rw [DependencyDiagram.isTooLarge, DependencyDiagram.isTooLarge, alike.visibleCount,
    alike.size_edges applied also]

/-- Alike graphs are projected to outcomes that agree. -/
theorem Alike.project (alike : graph.Alike other)
    (applied : applyFilter tree first filter = .ok graph)
    (also : applyFilter tree second filter = .ok other) :
    Projection.Agree (project graph options styles) (project other options styles) := by
  rw [DependencyDiagram.project, DependencyDiagram.project, ← alike.isTooLarge applied also,
    ← alike.visibleCount, ← alike.size_edges applied also, ← alike.drawNodes]
  split
  · exact .tooLarge _
  · cases drew : DependencyDiagram.drawNodes graph options styles with
    | error failure => exact .failed failure
    | ok drawn =>
      obtain ⟨lines, ran⟩ := exists_lines applied options
      obtain ⟨others, ranOther⟩ := exists_lines also options
      rw [Outcome.bind_of_ok rfl, Outcome.bind_of_ok rfl, Outcome.bind_of_ok ran,
        Outcome.bind_of_ok ranOther]
      refine .drawn rfl ?_ rfl (congrArg Filter.parentEdges alike.filter)
      exact alike.lines_perm applied also (Outcome.mapM_eq_ok_iff.mp ran)
        (Outcome.mapM_eq_ok_iff.mp ranOther)

end VisibleGraph

/-- Whatever the order in which the same edges are loaded, a filter can be applied to them or not, and
the graphs are projected alike: to the same message, to the same failure, or to images with the same
nodes and the same edges, which differ in the order of the edges at most. Calls may repeat a pair, with
other labels or the same ones, and any reordering is allowed, also one that changes which call for a pair
comes first.

Permuted calls lead to matching edges, matching edges to matching routes, and matching routes to graphs
that are alike. Each of these steps is a lemma about one stage of the way from the calls to the image. -/
theorem loading_order_irrelevant {calls reordered : List Contribution}
    (permuted : calls.Perm reordered) (tree : Tree) (filter : Filter) (options : ViewOptions)
    (styles : Styles) :
    ((∃ graph, applyFilter tree (Edges.empty.gatherAll calls) filter = .ok graph) ↔
      ∃ graph, applyFilter tree (Edges.empty.gatherAll reordered) filter = .ok graph) ∧
    ∀ graph other, applyFilter tree (Edges.empty.gatherAll calls) filter = .ok graph →
      applyFilter tree (Edges.empty.gatherAll reordered) filter = .ok other →
      Projection.Agree (project graph options styles) (project other options styles) := by
  have matched : Matched Edge.Alike (Edges.empty.gatherAll calls).values
      (Edges.empty.gatherAll reordered).values := by
    rw [Edges.values_gatherAll, Edges.values_gatherAll]
    exact Contribution.merged_matched (Matched.of_perm (fun _ => ⟨rfl, fun _ => Iff.rfl⟩) permuted)
  refine ⟨⟨?forth, ?back⟩, ?agree⟩
  case forth =>
    rintro ⟨graph, applied⟩
    obtain ⟨other, also, _⟩ := VisibleGraph.exists_alike matched applied
    exact ⟨other, also⟩
  case back =>
    rintro ⟨graph, applied⟩
    obtain ⟨other, also, _⟩ := VisibleGraph.exists_alike ⟨matched.back, matched.forth⟩ applied
    exact ⟨other, also⟩
  case agree =>
    intro graph other applied also
    obtain ⟨further, same, alike⟩ := VisibleGraph.exists_alike matched applied
    obtain rfl := Except.ok.inj (same.symm.trans also)
    exact alike.project applied also

namespace Sample

/-- The calls by which the edges of the sample are loaded, and a second one that brings labels to a
pair again. -/
def calls : List Contribution := [
  ⟨caller, deep, ["run"], true⟩,
  ⟨flat, caller, ["stop"], true⟩,
  ⟨caller, flat, ["stop"], false⟩,
  ⟨flat, caller, ["back", "stop"], true⟩]

end Sample

/-- The sample is loaded in the reverse order. The edges are drawn in another order, with the labels
that were loaded in another order in the same text. -/
theorem loading_order_of_sample :
    ∃ graph other image otherImage side otherSide,
      applyFilter Sample.tree (Edges.empty.gatherAll Sample.calls) Sample.filter = .ok graph ∧
      applyFilter Sample.tree (Edges.empty.gatherAll Sample.calls.reverse) Sample.filter = .ok other ∧
      project graph Sample.labelled .plain = .ok (.image image side) ∧
      project other Sample.labelled .plain = .ok (.image otherImage otherSide) ∧
      image.nodes = otherImage.nodes ∧ image.edges.Perm otherImage.edges ∧
      image.edges.map ImageEdge.label = [some "Flat\nInner", some "back\nstop"] ∧
      otherImage.edges.map ImageEdge.label = [some "back\nstop", some "Flat\nInner"] := by
  have first : (picture? Sample.tree (Edges.empty.gatherAll Sample.calls) Sample.filter
      Sample.labelled .plain).map (fun picture => picture.1.edges.map ImageEdge.label) =
        some [some "Flat\nInner", some "back\nstop"] := by decide +kernel
  have second : (picture? Sample.tree (Edges.empty.gatherAll Sample.calls.reverse) Sample.filter
      Sample.labelled .plain).map (fun picture => picture.1.edges.map ImageEdge.label) =
        some [some "back\nstop", some "Flat\nInner"] := by decide +kernel
  obtain ⟨⟨image, side⟩, found, labels⟩ := Option.map_eq_some_iff.mp first
  obtain ⟨⟨otherImage, otherSide⟩, foundOther, otherLabels⟩ := Option.map_eq_some_iff.mp second
  obtain ⟨graph, applied, projected⟩ := exists_graph_of_picture? found
  obtain ⟨other, also, projectedOther⟩ := exists_graph_of_picture? foundOther
  have agree := (loading_order_irrelevant (List.reverse_perm Sample.calls).symm Sample.tree
    Sample.filter Sample.labelled .plain).2 graph other applied also
  rw [projected, projectedOther] at agree
  cases agree with
  | drawn nodes edges details parentEdges =>
    exact ⟨graph, other, image, otherImage, side, otherSide, applied, also, projected, projectedOther,
      nodes, edges, labels, otherLabels⟩

end DependencyDiagram

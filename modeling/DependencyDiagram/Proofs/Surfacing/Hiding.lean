import DependencyDiagram.Proofs.Surfacing.DrawnEdges
import DependencyDiagram.Proofs.Surfacing.Visibility
import Mathlib.Data.List.Flatten

/-!
# Hiding only removes

A filter that shows fewer leaves and says the same of groups routes fewer edges, and it routes each of
them in the same way. All that is gathered from routes grows with them: the pairs that are joined, the
labels of a pair, the nodes that take part, and so the nodes that show. Hiding therefore removes from a
drawing and adds nothing to it.

Groups must be treated alike by both filters. A filter that also collapses a group moves the ends of
edges, and then new pairs can be joined although fewer leaves are shown.
-/

namespace DependencyDiagram

open DependencyDiagram.Tree

/-- The first filter shows only what the second shows, and both say the same of groups. The sets are
compared by what they answer; the order of their members does not matter. -/
structure Filter.Narrows (narrow wide : Filter) : Prop where
  leaves : ∀ id, narrow.showsLeaf id = true → wide.showsLeaf id = true
  groups : ∀ id, narrow.expandsGroup id = wide.expandsGroup id
  parentEdges : narrow.parentEdges = wide.parentEdges

/-- All that the first graph draws is drawn in the second. A pair that is joined in the first has its
labels there in the same order among its labels in the second. A pair may lose some of its labels and
stay joined. If it loses all of its edges it is gone, and nodes that were visible for its sake alone are
hidden. -/
structure VisibleGraph.Within (fewer more : VisibleGraph) : Prop where
  edges : ∀ edge ∈ fewer.edges.values, ∃ other ∈ more.edges.values,
    other.client = edge.client ∧ other.server = edge.server ∧ edge.labels.Sublist other.labels
  visible : ∀ position, fewer.isVisible position = true → more.isVisible position = true
  count : fewer.visibleCount ≤ more.visibleCount

/-- Hiding one leaf narrows a filter. -/
theorem Filter.narrows_setLeafVisible (filter : Filter) (id : NodeId) :
    (filter.setLeafVisible id false).Narrows filter where
  leaves other shown := by
    rw [showsLeaf, Collection.contains_iff, setLeafVisible] at shown
    simp only [Bool.false_eq_true, if_false, Collection.mem_remove] at shown
    exact Collection.contains_iff.mpr shown.1
  groups _ := rfl
  parentEdges := rfl

/-- Fewer contributions join fewer pairs, and each with fewer labels in the same order. -/
theorem Contribution.merged_sublist {few many : List Contribution} (fewer : few.Sublist many) :
    ∀ edge ∈ merged few, ∃ other ∈ merged many,
      other.client = edge.client ∧ other.server = edge.server ∧ edge.labels.Sublist other.labels := by
  intro edge listed
  obtain ⟨pair, present, rfl⟩ := List.mem_map.mp listed
  have known : pair ∈ many.map ends :=
    (fewer.map ends).subset (List.mem_eraseDups.mp present)
  refine ⟨edgeOf many pair, List.mem_map_of_mem (List.mem_eraseDups.mpr known), rfl, rfl, ?_⟩
  exact (fewer.filter _).flatMap labels

variable {tree : Tree} {edges : Edges} {narrow wide : Filter} {few many : List Route}

namespace Filter.Narrows

variable (narrows : narrow.Narrows wide)
include narrows

/-- A narrower filter shows fewer edges. -/
theorem showsEdge {edge : Edge} (shown : narrow.showsEdge edge = true) :
    wide.showsEdge edge = true := by
  rw [Filter.showsEdge, Bool.and_eq_true] at shown ⊢
  exact ⟨narrows.leaves _ shown.1, narrows.leaves _ shown.2⟩

/-- The same groups are expanded. -/
theorem isExpandedAt_eq : tree.isExpandedAt narrow = tree.isExpandedAt wide := by
  funext position
  simp only [isExpandedAt, narrows.groups]

/-- The same groups close over a node. -/
theorem closure?_eq : tree.closure? narrow = tree.closure? wide := by
  funext position
  rw [closure?, closure?, narrows.isExpandedAt_eq]

/-- A node surfaces at the same place. -/
theorem surface_eq : tree.surface narrow = tree.surface wide := by
  funext position
  rw [surface, surface, narrows.closure?_eq]

/-- An edge surfaces with the same labels. -/
theorem surfacedLabels_eq : tree.surfacedLabels narrow = tree.surfacedLabels wide := by
  funext edge server
  rw [surfacedLabels, surfacedLabels, narrows.closure?_eq]

/-- The same groups are drawn as frames. -/
theorem isOpenGroup_eq : tree.isOpenGroup narrow = tree.isOpenGroup wide := by
  funext position
  simp only [isOpenGroup, narrows.groups]

/-- The same ends are refused. -/
theorem checkEnds_eq : tree.checkEnds narrow = tree.checkEnds wide := by
  funext client server
  rw [checkEnds, checkEnds, narrows.isOpenGroup_eq, narrows.parentEdges]

/-- What a narrower filter shows is routed in the same way. -/
theorem route_eq {edge : Edge} (shown : narrow.showsEdge edge = true) :
    tree.route narrow edge = tree.route wide edge := by
  have also := narrows.showsEdge shown
  rw [Filter.showsEdge] at shown also
  rw [route, if_pos shown, route, if_pos also, narrows.surface_eq, narrows.checkEnds_eq,
    narrows.surfacedLabels_eq]

/-- Each edge is routed under a narrower filter as before, or not at all where it is no longer
shown. -/
theorem exists_each {items : List Edge} {results : List (Option Route)}
    (each : List.Forall₂ (fun edge result => tree.route wide edge = .ok result) items results) :
    ∃ kept, List.Forall₂ (fun edge result => tree.route narrow edge = .ok result) items kept ∧
      (kept.filterMap id).Sublist (results.filterMap id) := by
  induction each with
  | nil => exact ⟨[], List.Forall₂.nil, List.Sublist.refl []⟩
  | @cons edge result items results here _ inductionHypothesis =>
    obtain ⟨kept, others, part⟩ := inductionHypothesis
    by_cases shown : narrow.showsEdge edge = true
    · refine ⟨result :: kept, List.Forall₂.cons ((narrows.route_eq shown).trans here) others, ?_⟩
      cases result with
      | none => exact part
      | some route => exact part.cons_cons route
    · refine ⟨none :: kept, List.Forall₂.cons (route_hidden shown) others, ?_⟩
      cases result with
      | none => exact part
      | some route => exact part.cons route

/-- Where edges are routed under a filter they are routed under a narrower one, and the routes are
some of the former. -/
theorem exists_routes (routed : tree.routes edges wide = .ok many) :
    ∃ few, tree.routes edges narrow = .ok few ∧ few.Sublist many := by
  obtain ⟨results, ran, collected⟩ := Outcome.bind_eq_ok_iff.mp routed
  obtain rfl := Except.ok.inj collected
  obtain ⟨kept, each, part⟩ := narrows.exists_each (Outcome.mapM_eq_ok_iff.mp ran)
  exact ⟨kept.filterMap id,
    Outcome.bind_eq_ok_iff.mpr ⟨kept, Outcome.mapM_eq_ok_iff.mpr each, rfl⟩, part⟩

end Filter.Narrows

namespace VisibleGraph

/-- The graph of routes under a filter. All the rest is computed from the routes, which is where the two
filters differ. -/
def ofRoutes (tree : Tree) (filter : Filter) (found : List Route) : VisibleGraph :=
  ofSurfaced tree filter (tree.surfaced found)

section Narrowed

variable (narrows : narrow.Narrows wide) (part : few.Sublist many)
include part

/-- Fewer routes surface as fewer edges. -/
theorem edges_narrowed :
    ∀ edge ∈ (ofRoutes tree narrow few).edges.values,
      ∃ other ∈ (ofRoutes tree wide many).edges.values,
        other.client = edge.client ∧ other.server = edge.server ∧
          edge.labels.Sublist other.labels := by
  change ∀ edge ∈ (tree.surfaced few).edges.values, ∃ other ∈ (tree.surfaced many).edges.values, _
  rw [surfaced_edges, surfaced_edges, Edges.values_gatherAll, Edges.values_gatherAll]
  exact Contribution.merged_sublist (part.filterMap _)

include narrows

/-- What shows by itself with fewer routes does so with more. -/
theorem showsItselfAt_narrowed {position : Nat}
    (itself : (ofRoutes tree narrow few).ShowsItselfAt position) :
    (ofRoutes tree wide many).ShowsItselfAt position := by
  obtain ⟨node, present, takesPart, shown⟩ := itself
  refine ⟨node, present, ?_, fun leaf => narrows.leaves _ (shown leaf)⟩
  have among := Collection.mem_ofList.mp takesPart
  exact Collection.mem_ofList.mpr ((part.flatMap tree.participantsOf).subset among)

/-- What is visible with fewer routes is visible with more: something at or below it shows by
itself. -/
theorem isVisible_narrowed {position : Nat}
    (visible : (ofRoutes tree narrow few).isVisible position = true) :
    (ofRoutes tree wide many).isVisible position = true := by
  rcases (isVisible_iff _).mp visible with top | shows_
  · exact (isVisible_iff _).mpr (Or.inl top)
  · obtain ⟨lower, below, itself⟩ := (showsFrom_iff _ position).mp shows_
    have also := showsItselfAt_narrowed narrows part itself
    exact (isVisible_iff _).mpr (Or.inr ((showsFrom_iff _ position).mpr ⟨lower, below, also⟩))

/-- No more positions are drawn with fewer routes. -/
theorem visibleCount_narrowed :
    (ofRoutes tree narrow few).visibleCount ≤ (ofRoutes tree wide many).visibleCount := by
  apply List.Sublist.length_le
  apply List.monotone_filter_right
  intro position drawn
  simp only [Bool.and_eq_true] at drawn ⊢
  obtain ⟨⟨below, visible⟩, exposed⟩ := drawn
  refine ⟨⟨below, isVisible_narrowed narrows part visible⟩, ?_⟩
  change (tree.closure? wide position).isNone = true
  rw [← narrows.closure?_eq]
  exact exposed

end Narrowed

end VisibleGraph

/-- Where a filter can be applied, so can every narrower one, and what it leaves is within what the wider
one leaves: its pairs with their labels, its visible nodes, and their number. That the narrower filter
can be applied is part of the statement. It routes no edge that the wider one does not route, and so it
meets no failure that the wider one does not meet. -/
theorem hiding_removes {more : VisibleGraph} (narrows : narrow.Narrows wide)
    (applied : applyFilter tree edges wide = .ok more) :
    ∃ fewer, applyFilter tree edges narrow = .ok fewer ∧ fewer.Within more := by
  obtain ⟨many, routed, rfl⟩ := exists_routes_of_applyFilter applied
  obtain ⟨few, still, part⟩ := narrows.exists_routes routed
  refine ⟨.ofRoutes tree narrow few, ?_, ?_⟩
  · rw [applyFilter_eq, still]
    rfl
  · exact {
      edges := VisibleGraph.edges_narrowed part
      visible := fun _ => VisibleGraph.isVisible_narrowed narrows part
      count := VisibleGraph.visibleCount_narrowed narrows part }

/-- In the sample the caller has edges to two leaves of the outer group. With one of these hidden its
edge into the group keeps the other's label, and the edge back from the hidden leaf is gone. -/
theorem hiding_removes_sample :
    ∃ more fewer, applyFilter Sample.tree Sample.edges Sample.filter = .ok more ∧
      applyFilter Sample.tree Sample.edges (Sample.filter.setLeafVisible Sample.flat false) =
        .ok fewer ∧
      fewer.Within more ∧
      more.edges.values.map Edge.labels = [["Inner", "Flat"], ["Inner"], ["back"]] ∧
      fewer.edges.values.map Edge.labels = [["Inner"], ["Inner"]] := by
  have succeeds : (applyFilter Sample.tree Sample.edges Sample.filter).toOption.isSome := by decide
  obtain ⟨more, found⟩ := Option.isSome_iff_exists.mp succeeds
  have applied := Outcome.toOption_eq_some_iff.mp found
  obtain ⟨fewer, still, within⟩ :=
    hiding_removes (Sample.filter.narrows_setLeafVisible Sample.flat) applied
  refine ⟨more, fewer, applied, still, within, ?_, ?_⟩
  · rw [values_of_applyFilter applied]
    decide
  · rw [values_of_applyFilter still]
    decide

end DependencyDiagram

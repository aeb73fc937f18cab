import DependencyDiagram.Edges
import DependencyDiagram.Proofs.Identity.Codec
import DependencyDiagram.Proofs.Ordered.Contents

/-!
# What gathering amounts to

Gathering contributions one after the other has a description without a table: there is one
edge for each pair of ends, pairs in the order in which they first occur, and an edge
carries the labels of all contributions to its pair in their order. The table is keyed by
the text of the edges; since that text determines the ends, keys and pairs correspond.
-/

namespace DependencyDiagram

/-- What one call adds to the edge of a pair. A call and a reference are contributions, and so is what an
edge adds where it is drawn. -/
structure Contribution where
  client : NodeId
  server : NodeId
  labels : List String
  isServerLeaf : Bool
deriving DecidableEq

namespace Contribution

/-- The ordered pair of ends. -/
def ends (contribution : Contribution) : NodeId × NodeId :=
  (contribution.client, contribution.server)

/-- The edge of a pair: its labels are those of all contributions to the pair in order, and the first of
them tells whether the server is a leaf. Labels are kept with their repetitions. It is left to drawing to
show each of them once. -/
def edgeOf (contributions : List Contribution) (ends : NodeId × NodeId) : Edge where
  id := EdgeId.ofEndpoints ends.1 ends.2
  client := ends.1
  server := ends.2
  labels := (contributions.filter (fun contribution => contribution.ends = ends)).flatMap labels
  isServerLeaf := (contributions.find? (fun contribution => contribution.ends = ends)).any isServerLeaf

/-- One edge for each pair of ends, in the order in which the pairs first occur. This is the description
without a table to which gathering is compared. -/
def merged (contributions : List Contribution) : List Edge :=
  (contributions.map ends).eraseDups.map (edgeOf contributions)

end Contribution

namespace Edges

open Contribution

/-- Gather contributions one after the other. -/
def gatherAll (edges : Edges) (contributions : List Contribution) : Edges :=
  contributions.foldl (fun gathered contribution =>
    gathered.gather contribution.client contribution.server contribution.labels
      contribution.isServerLeaf) edges

/-- A pair to which something was contributed has a first contribution. -/
theorem exists_first {contributions : List Contribution} {pair : NodeId × NodeId}
    (known : pair ∈ contributions.map ends) :
    ∃ first, contributions.find? (fun contribution => contribution.ends = pair) = some first := by
  obtain ⟨contribution, listed, rfl⟩ := List.mem_map.mp known
  rw [← Option.isSome_iff_exists, List.find?_isSome]
  exact ⟨contribution, listed, decide_eq_true rfl⟩

/-- A contribution to a further pair does not change the edge of a pair. -/
theorem edgeOf_concat_of_ne (contributions : List Contribution) (last : Contribution)
    (ends : NodeId × NodeId) (other : last.ends ≠ ends) :
    edgeOf (contributions ++ [last]) ends = edgeOf contributions ends := by
  simp [edgeOf, List.filter_append, List.find?_append, other]

/-- A further contribution to a known pair adds its labels behind the earlier ones. -/
theorem edgeOf_concat_of_mem (contributions : List Contribution) (last : Contribution)
    (known : last.ends ∈ contributions.map ends) :
    edgeOf (contributions ++ [last]) last.ends =
      { edgeOf contributions last.ends with
        labels := (edgeOf contributions last.ends).labels ++ last.labels } := by
  obtain ⟨first, found⟩ := exists_first known
  simp [edgeOf, List.filter_append, List.find?_append, found]

/-- The first contribution to a pair makes its edge. -/
theorem edgeOf_concat_of_not_mem (contributions : List Contribution) (last : Contribution)
    (fresh : last.ends ∉ contributions.map ends) :
    edgeOf (contributions ++ [last]) last.ends =
      ⟨EdgeId.ofEndpoints last.client last.server, last.client, last.server, last.labels,
        last.isServerLeaf⟩ := by
  have others : ∀ contribution ∈ contributions, contribution.ends ≠ last.ends :=
    fun contribution listed same => fresh (List.mem_map.mpr ⟨contribution, listed, same⟩)
  have none : contributions.filter (fun c => c.ends = last.ends) = [] := by
    simpa [List.filter_eq_nil_iff] using others
  have missing : contributions.find? (fun c => c.ends = last.ends) = Option.none := by
    simpa [List.find?_eq_none] using others
  simp only [edgeOf, List.filter_append, List.find?_append, none, missing]
  simp [ends]

/-- One more contribution extends the edge of its pair in place, or adds one at the end. This is the step
from the description of the merged edges as one list, pair by pair in the order of first contributions,
to the table that grows with one contribution after the other. -/
theorem merged_concat (contributions : List Contribution) (last : Contribution) :
    merged (contributions ++ [last]) =
      if last.ends ∈ contributions.map ends then
        (merged contributions).map (fun edge =>
          if (edge.client, edge.server) = last.ends then
            { edge with labels := edge.labels ++ last.labels }
          else edge)
      else
        merged contributions ++
          [⟨EdgeId.ofEndpoints last.client last.server, last.client, last.server, last.labels,
            last.isServerLeaf⟩] := by
  rw [merged, List.map_append, List.eraseDups_append]
  split
  · next known =>
    have nothingNew : ([last].map ends).removeAll (contributions.map ends) = [] := by
      simpa [List.removeAll] using known
    rw [nothingNew, List.eraseDups_nil, List.append_nil, merged, List.map_map]
    apply List.map_congr_left
    intro pair _
    by_cases own : pair = last.ends
    · subst own
      rw [edgeOf_concat_of_mem contributions last known]
      simp [edgeOf]
    · rw [edgeOf_concat_of_ne contributions last pair (Ne.symm own)]
      simp [edgeOf, own]
  · next fresh =>
    have oneNew : ([last].map ends).removeAll (contributions.map ends) = [last.ends] := by
      simpa [List.removeAll] using fresh
    have single : [last.ends].eraseDups = [last.ends] := by simp [List.eraseDups_cons]
    rw [oneNew, single, List.map_append, List.map_singleton,
      edgeOf_concat_of_not_mem contributions last fresh, merged]
    congr 1
    apply List.map_congr_left
    intro pair listed
    have other : last.ends ≠ pair := by
      rintro rfl
      exact fresh (List.mem_eraseDups.mp listed)
    exact edgeOf_concat_of_ne contributions last pair other

/-- The identifier of an edge belongs to a pair exactly when its ends are that pair. -/
theorem id_edgeOf_eq_iff (contributions : List Contribution) (pair : NodeId × NodeId)
    (last : Contribution) :
    (edgeOf contributions pair).id = EdgeId.ofEndpoints last.client last.server ↔
      pair = last.ends := by
  constructor
  · intro same
    obtain ⟨client, server⟩ := EdgeId.ofEndpoints_injective same
    exact Prod.ext client server
  · rintro rfl
    rfl

/-- The table of gathered edges lists the merged edges under their identifiers. Each step
either extends the entry of its pair or appends one, as merging does. -/
theorem entries_gatherAll (contributions : List Contribution) :
    (empty.gatherAll contributions).byId.entries =
      (merged contributions).map (fun edge => (edge.id, edge)) := by
  induction contributions using List.reverseRecOn with
  | nil => rfl
  | append_singleton contributions last inductionHypothesis =>
    have step : empty.gatherAll (contributions ++ [last]) =
        (empty.gatherAll contributions).gather last.client last.server last.labels
          last.isServerLeaf := by
      simp [gatherAll, List.foldl_append]
    -- The table knows the pair by its text, and no other pair has this text.
    have listed : (empty.gatherAll contributions).byId.contains
        (EdgeId.ofEndpoints last.client last.server) = true ↔
          last.ends ∈ contributions.map ends := by
      rw [Table.contains_iff, Table.keys, inductionHypothesis, List.map_map, merged, List.map_map,
        List.mem_map]
      simp only [Function.comp_apply, id_edgeOf_eq_iff, exists_eq_right, List.mem_eraseDups]
    rw [step, gather, merged_concat]
    by_cases known : last.ends ∈ contributions.map ends
    · simp only [listed.mpr known, if_true, if_pos known, Table.adjust, inductionHypothesis,
        List.map_map, merged]
      apply List.map_congr_left
      intro pair _
      by_cases own : pair = last.ends
      · subst own
        simp [edgeOf, Contribution.ends]
      · have different := mt (id_edgeOf_eq_iff contributions pair last).mp own
        simp only [Function.comp_apply, different, if_false]
        simp [edgeOf, own]
    · have absent : ¬ (empty.gatherAll contributions).byId.contains
          (EdgeId.ofEndpoints last.client last.server) = true := mt listed.mp known
      rw [if_neg absent, if_neg known]
      simp only [Table.put]
      rw [putEntry_of_not_mem (mt (Table.contains_iff _ _).mpr absent), inductionHypothesis,
        List.map_append, List.map_singleton]

/-- The gathered edges are the merged ones. -/
theorem values_gatherAll (contributions : List Contribution) :
    (empty.gatherAll contributions).values = merged contributions := by
  rw [values, Table.values, entries_gatherAll, List.map_map]
  exact List.map_id _

/-- No two merged edges have the same identifier. -/
theorem ids_merged_nodup (contributions : List Contribution) :
    ((merged contributions).map Edge.id).Nodup := by
  have distinct := (empty.gatherAll contributions).byId.distinct
  rw [entries_gatherAll, List.map_map] at distinct
  exact distinct

/-- The merged edges are those of the pairs to which something was contributed. -/
theorem mem_merged {contributions : List Contribution} {edge : Edge} :
    edge ∈ merged contributions ↔ ∃ pair ∈ contributions.map ends, edge = edgeOf contributions pair := by
  simp only [merged, List.mem_map, List.mem_eraseDups, eq_comm]

/-- A merged edge is identified by its ends. -/
theorem id_of_mem_merged {contributions : List Contribution} {edge : Edge}
    (listed : edge ∈ merged contributions) : edge.id = EdgeId.ofEndpoints edge.client edge.server := by
  obtain ⟨pair, _, rfl⟩ := List.mem_map.mp listed
  rfl

/-- No two merged edges have the same ends. -/
theorem ends_merged_nodup (contributions : List Contribution) :
    ((merged contributions).map (fun edge => (edge.client, edge.server))).Nodup := by
  have fromEnds : (merged contributions).map Edge.id = ((merged contributions).map
      (fun edge => (edge.client, edge.server))).map (fun ends => EdgeId.ofEndpoints ends.1 ends.2) := by
    rw [List.map_map]
    exact List.map_congr_left (fun edge listed => id_of_mem_merged listed)
  have distinct := ids_merged_nodup contributions
  rw [fromEnds] at distinct
  exact distinct.of_map

/-- Among gathered edges an identifier finds the edge of the pair to which it belongs, if something
was contributed to the pair. -/
theorem get?_gatherAll (contributions : List Contribution) (id : EdgeId) (found : Edge) :
    (empty.gatherAll contributions).get? id = some found ↔
      ∃ pair ∈ contributions.map ends,
        id = EdgeId.ofEndpoints pair.1 pair.2 ∧ found = edgeOf contributions pair := by
  rw [get?, Table.get?_eq_some_iff, entries_gatherAll, merged, List.map_map, List.mem_map]
  simp only [List.mem_eraseDups, Function.comp_apply, Prod.mk.injEq]
  constructor
  · rintro ⟨pair, listed, rfl, rfl⟩
    exact ⟨pair, listed, rfl, rfl⟩
  · rintro ⟨pair, listed, rfl, rfl⟩
    exact ⟨pair, listed, rfl, rfl⟩

/-- Repetitions are dropped alike before and after a condition is imposed. -/
theorem eraseDups_filter {α : Type} [BEq α] [LawfulBEq α] (items : List α) (condition : α → Bool) :
    (items.filter condition).eraseDups = items.eraseDups.filter condition := by
  induction items using List.reverseRecOn with
  | nil => rfl
  | append_singleton items last inductionHypothesis =>
    rw [List.filter_append, List.eraseDups_append, List.eraseDups_append, List.filter_append,
      inductionHypothesis]
    congr 1
    cases kept : condition last with
    | false =>
      by_cases known : last ∈ items <;> simp [List.removeAll, List.eraseDups_cons, known, kept]
    | true =>
      by_cases known : last ∈ items <;> simp [List.removeAll, List.eraseDups_cons, known, kept]

/-- Contributions to pairs that meet a condition make the edges of those pairs. -/
theorem merged_filter (contributions : List Contribution) (condition : NodeId × NodeId → Bool) :
    merged (contributions.filter (fun contribution => condition contribution.ends)) =
      (merged contributions).filter (fun edge => condition (edge.client, edge.server)) := by
  have pairs : (contributions.filter (fun contribution => condition contribution.ends)).map ends =
      (contributions.map ends).filter condition := by
    rw [List.filter_map]
    rfl
  rw [merged, merged, pairs, eraseDups_filter, List.filter_map]
  apply List.map_congr_left
  intro pair listed
  have meets : condition pair = true := (List.mem_filter.mp listed).2
  have own : (contributions.filter (fun contribution => condition contribution.ends)).filter
      (fun contribution => contribution.ends = pair) =
        contributions.filter (fun contribution => contribution.ends = pair) := by
    rw [List.filter_filter]
    apply List.filter_congr
    intro contribution _
    by_cases same : contribution.ends = pair <;> simp [same, meets]
  rw [edgeOf, edgeOf, own, ← List.head?_filter, ← List.head?_filter, own]

/-- The edge of a pair whose contributions all end on a leaf does so. -/
theorem isServerLeaf_edgeOf {contributions : List Contribution} {pair : NodeId × NodeId}
    (listed : pair ∈ contributions.map ends)
    (leaf : ∀ contribution ∈ contributions, contribution.isServerLeaf = true) :
    (edgeOf contributions pair).isServerLeaf = true := by
  obtain ⟨first, found⟩ := exists_first listed
  rw [edgeOf, found]
  exact leaf first (List.mem_of_find?_eq_some found)

/-- Gathering leaves one edge for each pair of ends, in the order in which the pairs first came. The edge
of a pair is identified by the pair, carries the labels of all contributions to the pair in their order,
repetitions included, and ends on a leaf if the first of them says so. It is found by the identifier of
the pair, and nothing is found for a pair without a contribution. The induction is on the contributions
from the last one on: one more contribution either adds an edge at the end or extends the edge that its
pair has. -/
theorem gathered_per_pair (contributions : List Contribution) :
    (empty.gatherAll contributions).values.map (fun edge => (edge.client, edge.server)) =
        (contributions.map ends).eraseDups ∧
      (∀ edge ∈ (empty.gatherAll contributions).values,
        edge.id = EdgeId.ofEndpoints edge.client edge.server ∧
        edge.labels = (contributions.filter (fun contribution =>
          contribution.ends = (edge.client, edge.server))).flatMap labels ∧
        ∃ first, contributions.find? (fun contribution =>
            contribution.ends = (edge.client, edge.server)) = some first ∧
          edge.isServerLeaf = first.isServerLeaf) ∧
      ∀ client server,
        (∀ edge, (empty.gatherAll contributions).get? (.ofEndpoints client server) = some edge ↔
          edge ∈ (empty.gatherAll contributions).values ∧
            edge.client = client ∧ edge.server = server) ∧
        ((empty.gatherAll contributions).get? (.ofEndpoints client server) = none ↔
          (client, server) ∉ contributions.map ends) := by
  rw [values_gatherAll]
  refine ⟨?_, fun edge listed => ?_, fun client server => ⟨fun edge => ?_, ?_⟩⟩
  · rw [merged, List.map_map]
    exact List.map_id _
  · obtain ⟨pair, known, rfl⟩ := List.mem_map.mp listed
    obtain ⟨first, found⟩ := exists_first (List.mem_eraseDups.mp known)
    refine ⟨rfl, rfl, first, found, ?_⟩
    rw [edgeOf, found]
    rfl
  · rw [get?_gatherAll, mem_merged]
    constructor
    · rintro ⟨pair, known, same, rfl⟩
      obtain ⟨rfl, rfl⟩ := EdgeId.ofEndpoints_injective same
      exact ⟨⟨pair, known, rfl⟩, rfl, rfl⟩
    · rintro ⟨⟨pair, known, rfl⟩, rfl, rfl⟩
      exact ⟨pair, known, rfl, rfl⟩
  · rw [Option.eq_none_iff_forall_ne_some]
    constructor
    · intro missing known
      exact missing _ ((get?_gatherAll contributions _ _).mpr ⟨(client, server), known, rfl, rfl⟩)
    · intro unknown edge found
      obtain ⟨pair, known, same, rfl⟩ := (get?_gatherAll contributions _ _).mp found
      obtain ⟨rfl, rfl⟩ := EdgeId.ofEndpoints_injective same
      exact unknown known

end Edges

end DependencyDiagram

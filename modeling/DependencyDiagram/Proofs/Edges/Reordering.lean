import DependencyDiagram.Proofs.Edges.Merging
import DependencyDiagram.Proofs.Outcomes
import Mathlib.Data.List.Perm.Basic

/-!
# Edges in another order

Contributions that are gathered in another order make edges in another order, with their labels in
another order as well. Which pairs are joined and which labels a pair has does not depend on the
order. Lists match when every member of either has a counterpart in the other; where contributions
match, the merged edges do, and matching is all that is asked of edges later on.
-/

namespace DependencyDiagram

universe u

/-- Every member of the first list is related to a member of the second. Several members of the first
list may have one counterpart. -/
def Covers {α : Type u} (related : α → α → Prop) (left right : List α) : Prop :=
  ∀ item ∈ left, ∃ other ∈ right, related item other

/-- Every member of either list is related to a member of the other. Nothing is said of how often a
member occurs or of where it stands. -/
structure Matched {α : Type u} (related : α → α → Prop) (left right : List α) : Prop where
  forth : Covers related left right
  back : Covers related right left

section

variable {α β : Type u} {related : α → α → Prop} {further : β → β → Prop}
  {left right : List α}

/-- What is made of the members of a covered list is covered where related members make related
results. -/
theorem Covers.filterMap {make : α → Option β} (covers : Covers related left right)
    (agree : ∀ item other, related item other → ∀ value, make item = some value →
      ∃ result, make other = some result ∧ further value result) :
    Covers further (left.filterMap make) (right.filterMap make) := by
  intro value listed
  obtain ⟨item, member, made⟩ := List.mem_filterMap.mp listed
  obtain ⟨other, present, alike⟩ := covers item member
  obtain ⟨result, also, same⟩ := agree item other alike value made
  exact ⟨result, List.mem_filterMap.mpr ⟨other, present, also⟩, same⟩

/-- The results of a step over a covered list are covered where related members have related
results. -/
theorem Covers.results {step : α → β → Prop} {made makes : List β}
    (covers : Covers related left right) (each : List.Forall₂ step left made)
    (also : List.Forall₂ step right makes)
    (agree : ∀ item other value result, related item other → step item value →
      step other result → further value result) : Covers further made makes := by
  intro value listed
  obtain ⟨item, member, here⟩ := Outcome.exists_of_mem_right each listed
  obtain ⟨other, present, alike⟩ := covers item member
  obtain ⟨result, among, there⟩ := Outcome.exists_of_mem_left also present
  exact ⟨result, among, agree item other value result alike here there⟩

/-- A list matches every order of it. -/
theorem Matched.of_perm (self : ∀ item, related item item) (permuted : left.Perm right) :
    Matched related left right where
  forth item listed := ⟨item, permuted.mem_iff.mp listed, self item⟩
  back item listed := ⟨item, permuted.mem_iff.mpr listed, self item⟩

/-- Lists without repetitions that have the same members are orders of one another. -/
theorem Matched.perm (matched : Matched Eq left right) (once : left.Nodup) (also : right.Nodup) :
    left.Perm right := by
  have within {first second : List α} (covers : Covers Eq first second) (item : α)
      (listed : item ∈ first) : item ∈ second := by
    obtain ⟨other, present, rfl⟩ := covers item listed
    exact present
  exact (List.perm_ext_iff_of_nodup once also).mpr
    (fun item => ⟨within matched.forth item, within matched.back item⟩)

end

/-- Two contributions go to the same pair and bring the same labels in some order. -/
structure Contribution.Alike (first second : Contribution) : Prop where
  ends : first.ends = second.ends
  labels : ∀ label, label ∈ first.labels ↔ label ∈ second.labels

/-- Two edges join the same pair and have the same labels in some order. Whether the server is a leaf is
left out, as it depends on which contribution to the pair came first. -/
structure Edge.Alike (first second : Edge) : Prop where
  id : first.id = second.id
  client : first.client = second.client
  server : first.server = second.server
  labels : ∀ label, label ∈ first.labels ↔ label ∈ second.labels

/-- Being alike goes both ways. -/
theorem Edge.Alike.symm {first second : Edge} (alike : first.Alike second) : second.Alike first :=
  ⟨alike.id.symm, alike.client.symm, alike.server.symm, fun label => (alike.labels label).symm⟩

namespace Contribution

variable {left right : List Contribution}

/-- The labels of a pair are those that are brought to it. -/
theorem mem_labels_edgeOf {contributions : List Contribution} {pair : NodeId × NodeId}
    {label : String} : label ∈ (edgeOf contributions pair).labels ↔
      ∃ contribution ∈ contributions, contribution.ends = pair ∧ label ∈ contribution.labels := by
  simp only [edgeOf, List.mem_flatMap, List.mem_filter, decide_eq_true_eq, and_assoc]

/-- Labels that are brought to a pair are brought to it by what covers the contributions. -/
theorem labels_covered (covers : Covers Alike left right) (pair : NodeId × NodeId) (label : String)
    (listed : label ∈ (edgeOf left pair).labels) : label ∈ (edgeOf right pair).labels := by
  obtain ⟨contribution, member, rfl, brought⟩ := mem_labels_edgeOf.mp listed
  obtain ⟨other, present, alike⟩ := covers contribution member
  exact mem_labels_edgeOf.mpr ⟨other, present, alike.ends.symm, (alike.labels label).mp brought⟩

/-- Matching contributions make alike edges of every pair. -/
theorem edgeOf_alike (matched : Matched Alike left right) (pair : NodeId × NodeId) :
    (edgeOf left pair).Alike (edgeOf right pair) where
  id := rfl
  client := rfl
  server := rfl
  labels label := ⟨labels_covered matched.forth pair label, labels_covered matched.back pair label⟩

/-- Matching contributions make matching edges. -/
theorem merged_matched (matched : Matched Alike left right) :
    Matched Edge.Alike (merged left) (merged right) := by
  have covered {first second : List Contribution} (matched : Matched Alike first second) :
      Covers Edge.Alike (merged first) (merged second) := by
    intro edge listed
    obtain ⟨pair, joined, rfl⟩ := List.mem_map.mp listed
    obtain ⟨contribution, member, rfl⟩ := List.mem_map.mp (List.mem_eraseDups.mp joined)
    obtain ⟨other, present, alike⟩ := matched.forth contribution member
    refine ⟨_, List.mem_map_of_mem (List.mem_eraseDups.mpr ?_), edgeOf_alike matched _⟩
    exact alike.ends ▸ List.mem_map_of_mem present
  exact ⟨covered matched, covered ⟨matched.back, matched.forth⟩⟩

end Contribution

/-- Matching edges without repeated identifiers have the same identifiers in some order. -/
theorem Edge.ids_perm {left right : List Edge} (matched : Matched Alike left right)
    (once : (left.map Edge.id).Nodup) (also : (right.map Edge.id).Nodup) :
    (left.map Edge.id).Perm (right.map Edge.id) := by
  have covered {first second : List Edge} (covers : Covers Alike first second) :
      Covers Eq (first.map Edge.id) (second.map Edge.id) := by
    intro id listed
    obtain ⟨edge, member, rfl⟩ := List.mem_map.mp listed
    obtain ⟨other, present, alike⟩ := covers edge member
    exact ⟨other.id, List.mem_map_of_mem present, alike.id⟩
  exact Matched.perm ⟨covered matched.forth, covered matched.back⟩ once also

end DependencyDiagram

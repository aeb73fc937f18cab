import DependencyDiagram.Proofs.Surfacing.Joining
import DependencyDiagram.Proofs.Surfacing.DrawnEdges

/-!
# Collapsing contracts

Collapsing one group moves every node strictly below it to the group and leaves all other nodes where
they are. The representatives follow: what represents a node while the group is collapsed is the
contraction of what represents it while the group is expanded, whatever groups above or below are
collapsed as well. So the drawn pairs are contracted too, and collapsing cannot make filtering fail.

Only one group changes at a time. A change of several is a sequence of such steps, and contractions can
be composed.
-/

namespace DependencyDiagram

open DependencyDiagram.Tree

/-- Expanding or collapsing one group decides about that group alone. -/
theorem Filter.expandsGroup_setGroupExpanded (filter : Filter) (id other : NodeId) (expanded : Bool) :
    (filter.setGroupExpanded id expanded).expandsGroup other =
      if other = id then expanded else filter.expandsGroup other :=
  filter.groupExpanded.contains_switch id other expanded

namespace Tree

variable {tree : Tree} {filter : Filter} {group position : Nat} {node : TreeNode}

/-- The representative of a node is the node or a collapsed group above it, with nothing
collapsed further up; no other node is. -/
theorem representative_eq {upper : Nat} (above : tree.AtOrAbove upper position)
    (exposed : tree.outermostCollapsed? filter upper = none)
    (own : upper = position ∨ tree.isCollapsedAt filter upper = true) :
    tree.representative filter position = upper := by
  have highest := tree.outermostCollapsed?_representative filter position
  rcases atOrAbove_or_atOrAbove above (tree.representative_atOrAbove filter position) with
    lower | higher
  · rcases Relation.reflTransGen_iff_eq_or_transGen.mp lower with same | strictly
    · exact same
    · -- the group would be collapsed above the representative
      have open_ := outermostCollapsed?_eq_none_iff.mp highest upper strictly
      rcases own with rfl | collapsed
      · exact absurd (lt_of_above strictly)
          (Nat.not_lt.mpr (le_of_atOrAbove (tree.representative_atOrAbove filter upper)))
      · exact absurd (open_.symm.trans collapsed) Bool.false_ne_true
  · rcases Relation.reflTransGen_iff_eq_or_transGen.mp higher with same | strictly
    · exact same.symm
    · have open_ := outermostCollapsed?_eq_none_iff.mp exposed _ strictly
      cases outer : tree.outermostCollapsed? filter position with
      | none =>
        rw [representative_eq_self_iff.mpr outer] at strictly
        exact absurd (lt_of_above strictly) (Nat.not_lt.mpr (le_of_atOrAbove above))
      | some found =>
        rw [representative, outer, Option.getD_some] at open_
        exact absurd (open_.symm.trans (outermostCollapsed?_eq_some outer).2.1) Bool.false_ne_true

/-- Contract a group: everything strictly below it moves to the group. The group itself stays, and so
does everything that is not below it. -/
def contract (tree : Tree) (group position : Nat) : Nat :=
  if group ∈ tree.ancestors position then group else position

/-- The identifier that a node has once a group is contracted. An identifier that the tree does not have
is left alone. None is ever an end of a drawn edge. -/
def contractId (tree : Tree) (group : Nat) (id : NodeId) : NodeId :=
  match tree.find? id, tree.node? group with
  | some position, some node => if group ∈ tree.ancestors position then node.id else id
  | _, _ => id

/-- Contracting identifiers is contracting positions. -/
theorem find?_contractId {id : NodeId} (present : tree.node? group = some node)
    (found : tree.find? id = some position) :
    tree.find? (tree.contractId group id) = some (tree.contract group position) := by
  rw [contractId, found, present, contract]
  by_cases below : group ∈ tree.ancestors position
  · simp only [below, if_true, find?_id present]
  · simp only [below, if_false, found]

section Collapsing

variable (present : tree.node? group = some node) (below : group ≠ root)
include present below

/-- Expanding or collapsing a group decides about the position of the group alone. -/
theorem isCollapsedAt_setGroupExpanded (expanded : Bool) (position : Nat) :
    tree.isCollapsedAt (filter.setGroupExpanded node.id expanded) position =
      if position = group then !expanded else tree.isCollapsedAt filter position := by
  by_cases same : position = group
  · subst same
    simp [isCollapsedAt, isExpandedAt, present, below, Filter.expandsGroup_setGroupExpanded]
  · rw [if_neg same, isCollapsedAt, isCollapsedAt, isExpandedAt, isExpandedAt]
    cases here : tree.node? position with
    | none => rfl
    | some other =>
      have different : other.id ≠ node.id := fun equal => same (position_unique here present equal)
      simp [Filter.expandsGroup_setGroupExpanded, different]

/-- Apart from the group itself, collapsing it changes nothing. -/
theorem isCollapsedAt_collapsed {position : Nat} (other : position ≠ group) :
    tree.isCollapsedAt (filter.setGroupExpanded node.id false) position =
      tree.isCollapsedAt (filter.setGroupExpanded node.id true) position := by
  rw [isCollapsedAt_setGroupExpanded present below, isCollapsedAt_setGroupExpanded present below,
    if_neg other, if_neg other]

/-- What represents a node while a group is collapsed is the contraction of what represents it while the
group is expanded. Below the group nothing further up can be collapsed, so the group itself becomes the
representative; everywhere else the conditions are the same. If the group lies above the representative
it closes over the node now, as the outermost collapsed one; if it does not, it changes nothing on the
path. -/
theorem representative_collapsed (position : Nat) :
    tree.representative (filter.setGroupExpanded node.id false) position =
      tree.contract group
        (tree.representative (filter.setGroupExpanded node.id true) position) := by
  have reached := tree.representative_atOrAbove (filter.setGroupExpanded node.id true) position
  have exposed := outermostCollapsed?_eq_none_iff.mp
    (tree.outermostCollapsed?_representative (filter.setGroupExpanded node.id true) position)
  rw [contract]
  split
  · next listed =>
    have above := mem_ancestors.mp listed
    refine representative_eq (above.to_reflTransGen.trans reached) ?_ (Or.inr ?_)
    · refine outermostCollapsed?_eq_none_iff.mpr (fun upper higher => ?_)
      rw [isCollapsedAt_collapsed present below (Nat.ne_of_lt (lt_of_above higher))]
      exact exposed upper (higher.trans above)
    · rw [isCollapsedAt_setGroupExpanded present below, if_pos rfl]
      rfl
  · next outside =>
    refine representative_eq reached ?_ ?_
    · refine outermostCollapsed?_eq_none_iff.mpr (fun upper higher => ?_)
      have other : upper ≠ group := fun same => outside (mem_ancestors.mpr (same ▸ higher))
      rw [isCollapsedAt_collapsed present below other]
      exact exposed upper higher
    · cases outer : tree.outermostCollapsed? (filter.setGroupExpanded node.id true) position with
      | none => exact Or.inl (representative_eq_self_iff.mpr outer)
      | some found =>
        have collapsed := (outermostCollapsed?_eq_some outer).2.1
        have other : found ≠ group := by
          rintro rfl
          rw [isCollapsedAt_setGroupExpanded present below, if_pos rfl] at collapsed
          cases collapsed
        rw [representative, outer, Option.getD_some, isCollapsedAt_collapsed present below other]
        exact Or.inr collapsed

/-- What is an expanded group while a group is collapsed is one while the group is expanded, and
it is not the group itself. -/
theorem isOpenGroup_of_collapsed {position : Nat}
    (open_ : tree.isOpenGroup (filter.setGroupExpanded node.id false) position = true) :
    position ≠ group ∧
      tree.isOpenGroup (filter.setGroupExpanded node.id true) position = true := by
  obtain ⟨other, here, isOpen⟩ := (Option.any_eq_true _ _).mp open_
  rw [Filter.expandsGroup_setGroupExpanded, Bool.and_eq_true] at isOpen
  by_cases same : other.id = node.id
  · simp [same] at isOpen
  · rw [if_neg same] at isOpen
    refine ⟨fun equal => ?_, ?_⟩
    · subst equal
      exact same (congrArg TreeNode.id (Option.some.inj (here.symm.trans present)))
    · simp [isOpenGroup, here, Filter.expandsGroup_setGroupExpanded, same, isOpen]

/-- An edge that leads between representatives while the group is collapsed leads between nodes
that are contracted to them while the group is expanded, and the reverse. -/
theorem leadsBetween_collapsed_iff {edge : Edge} {client server : Nat} :
    tree.LeadsBetween (filter.setGroupExpanded node.id false) edge client server ↔
      ∃ first second, tree.LeadsBetween (filter.setGroupExpanded node.id true) edge first second ∧
        tree.contract group first = client ∧ tree.contract group second = server ∧
          client ≠ server := by
  constructor
  · rintro ⟨shown, ⟨start, foundStart, rfl⟩, ⟨goal, foundGoal, rfl⟩, apart⟩
    simp only [representative_collapsed present below] at apart ⊢
    exact ⟨_, _, ⟨shown, ⟨start, foundStart, rfl⟩, ⟨goal, foundGoal, rfl⟩,
      fun same => apart (congrArg (tree.contract group) same)⟩, rfl, rfl, apart⟩
  · rintro ⟨_, _, ⟨shown, ⟨start, foundStart, rfl⟩, ⟨goal, foundGoal, rfl⟩, _⟩, rfl, rfl, apart⟩
    simp only [← representative_collapsed present below] at apart ⊢
    exact ⟨shown, ⟨start, foundStart, rfl⟩, ⟨goal, foundGoal, rfl⟩, apart⟩

/-- An edge that would end on an expanded group while the group is collapsed would do so while
the group is expanded. -/
theorem endsOnOpenGroup_of_collapsed {edge : Edge}
    (ends : tree.EndsOnOpenGroup (filter.setGroupExpanded node.id false) edge) :
    tree.EndsOnOpenGroup (filter.setGroupExpanded node.id true) edge := by
  obtain ⟨_, _, leads, open_⟩ := endsOnOpenGroup_iff.mp ends
  obtain ⟨first, second, before, rfl, rfl, _⟩ := (leadsBetween_collapsed_iff present below).mp leads
  have kept {position : Nat} (isOpen : tree.isOpenGroup (filter.setGroupExpanded node.id false)
      (tree.contract group position) = true) :
      tree.isOpenGroup (filter.setGroupExpanded node.id true) position = true := by
    obtain ⟨other, still⟩ := isOpenGroup_of_collapsed present below isOpen
    rw [contract] at other still
    split at other
    · exact absurd rfl other
    · next outside => rwa [if_neg outside] at still
  exact endsOnOpenGroup_iff.mpr ⟨first, second, before, open_.imp kept kept⟩

end Collapsing

end Tree

/-- Collapsing a group never makes filtering fail, and it contracts what is drawn: two nodes are joined
while the group is collapsed exactly when they are the contractions, different from one another, of two
nodes that are joined while the group is expanded. The converse fails: expanding a group can make
filtering fail, where edges must not end on expanded groups and one ends on this group itself. A pair is
joined because some edge leads between two representatives, and these are contracted one by one. -/
theorem collapsing_contracts {tree : Tree} {edges : Edges} {filter : Filter} {group : Nat}
    {node : TreeNode} {expanded : VisibleGraph} (present : tree.node? group = some node)
    (below : group ≠ Tree.root)
    (applied : applyFilter tree edges (filter.setGroupExpanded node.id true) = .ok expanded) :
    ∃ collapsed, applyFilter tree edges (filter.setGroupExpanded node.id false) = .ok collapsed ∧
      ∀ client server, collapsed.Joins client server ↔
        ∃ first second, expanded.Joins first second ∧ tree.contractId group first = client ∧
          tree.contractId group second = server ∧ client ≠ server := by
  -- If filtering failed while the group is collapsed, the edge that is to blame would make it fail while
  -- the group is expanded as well.
  obtain ⟨collapsed, succeeded⟩ : ∃ collapsed,
      applyFilter tree edges (filter.setGroupExpanded node.id false) = .ok collapsed := by
    by_contra fails
    refine Outcome.fails_iff_no_value.mp (applyFilter_fails_iff.mpr ?_) ⟨expanded, applied⟩
    rcases applyFilter_fails_iff.mp (Outcome.fails_iff_no_value.mpr fails) with
      dangling | ⟨refused, edge, listed, ends⟩
    · exact Or.inl dangling
    · exact Or.inr ⟨refused, edge, listed, endsOnOpenGroup_of_collapsed present below ends⟩
  refine ⟨collapsed, succeeded, fun client server => ?_⟩
  rw [joins_iff succeeded]
  simp only [joins_iff applied]
  constructor
  · rintro ⟨edge, listed, _, _, leads, foundClient, foundServer⟩
    obtain ⟨first, second, before, rfl, rfl, apart⟩ :=
      (leadsBetween_collapsed_iff present below).mp leads
    obtain ⟨start, goal, foundStart, foundGoal⟩ := exists_ids_of_leadsBetween before
    refine ⟨start, goal, ⟨edge, listed, first, second, before, foundStart, foundGoal⟩, ?_, ?_, ?_⟩
    · exact id_unique (find?_contractId present foundStart) foundClient
    · exact id_unique (find?_contractId present foundGoal) foundServer
    · rintro rfl
      exact apart (Option.some.inj (foundClient.symm.trans foundServer))
  · rintro ⟨start, goal, ⟨edge, listed, first, second, before, foundStart, foundGoal⟩, rfl, rfl, apart⟩
    have foundClient := find?_contractId present foundStart
    have foundServer := find?_contractId present foundGoal
    refine ⟨edge, listed, _, _, (leadsBetween_collapsed_iff present below).mpr
      ⟨first, second, before, rfl, rfl, fun same => apart ?_⟩, foundClient, foundServer⟩
    exact id_unique foundClient (same ▸ foundServer)

/-- In the sample the outer group holds a collapsed group. While it is expanded, that group, the
leaf beside it and the caller are joined; collapsing it leaves the edges from and to the group
itself. -/
theorem collapsing_contracts_sample :
    ∃ expanded collapsed,
      applyFilter Sample.tree Sample.edges (Sample.filter.setGroupExpanded Sample.outer true) =
        .ok expanded ∧
      applyFilter Sample.tree Sample.edges (Sample.filter.setGroupExpanded Sample.outer false) =
        .ok collapsed ∧
      expanded.Joins Sample.inner Sample.flat ∧ ¬ collapsed.Joins Sample.outer Sample.outer ∧
      expanded.Joins Sample.caller Sample.inner ∧ collapsed.Joins Sample.caller Sample.outer := by
  have succeeds : (applyFilter Sample.tree Sample.edges
      (Sample.filter.setGroupExpanded Sample.outer true)).toOption.map (fun graph =>
        decide (graph.Joins Sample.inner Sample.flat ∧ graph.Joins Sample.caller Sample.inner)) =
      some true := by decide
  obtain ⟨expanded, found, joined⟩ := Option.map_eq_some_iff.mp succeeds
  obtain ⟨inside, entering⟩ := of_decide_eq_true joined
  have applied := Outcome.toOption_eq_some_iff.mp found
  have present : Sample.tree.node? 1 = some ⟨Sample.outer, "Outer", some 0, .group false⟩ := rfl
  obtain ⟨collapsed, still, contracted⟩ := collapsing_contracts present (by decide) applied
  refine ⟨expanded, collapsed, applied, still, inside, ?_, entering, ?_⟩
  · intro loop
    obtain ⟨_, _, _, _, _, apart⟩ := (contracted _ _).mp loop
    exact apart rfl
  · exact (contracted _ _).mpr ⟨_, _, entering, by decide, by decide, by decide⟩

end DependencyDiagram

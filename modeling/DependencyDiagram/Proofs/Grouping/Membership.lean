import DependencyDiagram.Proofs.Grouping.Placement

/-!
# Who stands below a group

The labels on the way to a node begin with those on the way to every node above it, and each beginning
leads to one of these. So a leaf stands below a group exactly when its way runs through the group's
place, however deep it is at home; and the group right around it is made from the segment that the first
leaf to run through its home has there.

This is where a place, which is a list of labels, is turned back into a node of the built tree. A view
says what it expects of a group by labels, and a reader of the tree meets nodes.
-/

namespace DependencyDiagram

namespace Tree

variable {tree : Tree} {upper lower position : Nat} {labels : List String}

/-- The labels on the way to a node begin with those on the way to any node above it. -/
theorem labelPath_begins (above : tree.AtOrAbove upper lower) :
    tree.labelPath upper <+: tree.labelPath lower := by
  induction above with
  | refl => exact List.prefix_rfl
  | @tail parent child _ named inductionHypothesis =>
    have further : tree.labelPath child = tree.labelPath parent ++ [tree.label child] := by
      rw [labelPath_eq, show tree.parent? child = some parent from named]
    rw [further]
    exact inductionHypothesis.trans (List.prefix_append _ _)

/-- Every beginning of the way to a node leads to a node at or above it. -/
theorem exists_atOrAbove_of_begins (begins : labels <+: tree.labelPath position) :
    ∃ upper, tree.AtOrAbove upper position ∧ tree.labelPath upper = labels := by
  induction position using tree.upward_induction with
  | step position inductionHypothesis =>
    by_cases whole : tree.labelPath position = labels
    · exact ⟨position, Relation.ReflTransGen.refl, whole⟩
    · have path := labelPath_eq tree position
      cases named : tree.parent? position with
      | none =>
        rw [named] at path
        rw [path] at begins whole
        exact absurd (List.prefix_nil.mp begins).symm whole
      | some parent =>
        rw [named] at path
        rw [path] at begins whole
        have shorter := (List.prefix_concat_iff.mp begins).resolve_left (Ne.symm whole)
        obtain ⟨upper, above, same⟩ := inductionHypothesis parent named shorter
        exact ⟨upper, above.tail named, same⟩

/-- Some label is on the way to every node but the root. -/
theorem labelPath_ne_nil (inside : position < tree.size) (below : position ≠ root) :
    tree.labelPath position ≠ [] := by
  obtain ⟨parent, named⟩ := exists_parent inside below
  rw [labelPath_eq, named]
  exact List.append_ne_nil_of_right_ne_nil _ (List.cons_ne_nil _ _)

end Tree

open DependencyDiagram.Tree

variable {options : HierarchyOptions} {specs : List LeafSpec} {spec other : LeafSpec}
  {labels : List String}

/-- A place below the root through which the ways of two leaves run is a group, whether or not single
leaves are grouped. -/
theorem isGrouped_of_two (here : spec ∈ through options.nested specs labels)
    (there : other ∈ through options.nested specs labels) (apart : spec ≠ other) (below : labels ≠ []) :
    IsGrouped options specs labels := by
  refine ⟨below, ?_⟩
  have two : 2 ≤ (through options.nested specs labels).length := by
    generalize through options.nested specs labels = run at here there
    rcases run with _ | ⟨first, _ | ⟨second, rest⟩⟩
    · cases here
    · exact absurd ((List.mem_singleton.mp here).trans (List.mem_singleton.mp there).symm) apart
    · simp
  split <;> omega

/-- A leaf's home lies in every group on its way. -/
theorem begins_homeOf (begins : labels <+: spec.way options.nested)
    (grouped : labels = [] ∨ IsGrouped options specs labels) : labels <+: homeOf options specs spec := by
  rcases grouped with rfl | grouped
  · exact List.nil_prefix
  · have whole := List.prefix_iff_eq_take.mp begins
    rw [homeOf, whole]
    refine List.take_prefix_take_left (Nat.le_findGreatest begins.length_le ?_)
    rwa [← whole]

/-- Where single leaves are grouped too, a leaf is at home at the end of its way. -/
theorem homeOf_of_single (given : spec ∈ specs) (single : options.ungroupSingle = false) :
    homeOf options specs spec = spec.way options.nested := by
  have ends : spec.way options.nested <+: homeOf options specs spec := by
    refine begins_homeOf List.prefix_rfl ?_
    by_cases none : spec.way options.nested = []
    · exact Or.inl none
    · exact Or.inr (isGrouped_of_single single given List.prefix_rfl none)
  exact homeOf_begins.eq_of_length_le ends.length_le

namespace Construction.Realizes

variable {construction : Construction} {mint : Mint} {group position parent : Nat}
  (realized : construction.Realizes mint (planOf options.nested options.ungroupSingle specs))

include realized

/-- The node right above a leaf is at the leaf's home. -/
theorem exists_home (distinct : (specs.map LeafSpec.name).Nodup) (given : spec ∈ specs)
    (found : construction.leafs.get? spec.name = some position) :
    ∃ parent, construction.tree.node? position = some ⟨spec.id, spec.label, some parent, .leaf⟩ ∧
      construction.tree.labelPath parent = homeOf options specs spec := by
  obtain ⟨other, parent, foundToo, here, path⟩ := realized.leaf_at_home distinct given
  obtain rfl := Option.some.inj (found.symm.trans foundToo)
  have named : construction.tree.parent? position = some parent := parent?_of_node? here
  rw [labelPath_eq, named] at path
  exact ⟨parent, here, (List.append_singleton_inj.mp path).1⟩

/-- A leaf lies below a group exactly when its way runs through the place of the group. The home of a
leaf is the deepest group on its way. Groups above the home lie at beginnings of the home's place;
conversely a beginning of the way that is grouped is the place of a group above the home, and there is
only one group at each place. -/
theorem atOrAbove_leaf_iff (distinct : (specs.map LeafSpec.name).Nodup)
    (isGroup : construction.tree.HasGroupAt group) (given : spec ∈ specs)
    (found : construction.leafs.get? spec.name = some position) :
    construction.tree.AtOrAbove group position ↔
      construction.tree.labelPath group <+: spec.way options.nested := by
  obtain ⟨parent, here, home⟩ := realized.exists_home distinct given found
  have named : construction.tree.parent? position = some parent := parent?_of_node? here
  constructor
  · intro above
    rcases Relation.ReflTransGen.cases_tail above with rfl | ⟨upper, further, namedToo⟩
    · obtain ⟨node, present, notLeaf⟩ := isGroup
      obtain rfl := Option.some.inj (here.symm.trans present)
      cases notLeaf
    · obtain rfl : parent = upper := Option.some.inj (named.symm.trans namedToo)
      exact (labelPath_begins further).trans (home ▸ homeOf_begins)
  · intro begins
    have grouped : construction.tree.labelPath group = [] ∨
        IsGrouped options specs (construction.tree.labelPath group) := by
      by_cases top : group = root
      · exact Or.inl (top ▸ labelPath_root _)
      · exact Or.inr (realized.isGrouped_labelPath isGroup top)
    obtain ⟨upper, above, same⟩ := exists_atOrAbove_of_begins (home.symm ▸ begins_homeOf begins grouped)
    -- what lies above a leaf is a group, and a place has one group
    obtain ⟨child, below, _⟩ := Relation.TransGen.head'_iff.mp (Relation.TransGen.tail' above named)
    rw [← realized.group_unique distinct.of_map (group_of_parent below) isGroup same]
    exact above.tail named

/-- A group is made from the segment that its place has. -/
theorem exists_segment_of_group (isGroup : construction.tree.HasGroupAt group) (below : group ≠ root) :
    ∃ node segment, construction.tree.node? group = some node ∧
      segmentOf? options.nested specs (construction.tree.labelPath group) = some segment ∧
      segment.Names mint node.id := by
  obtain ⟨index, around, segment, rfl, listed, carried⟩ := realized.exists_group_entry isGroup below
  rw [labelPath_of_carries carried]
  obtain ⟨id, _, here, _, named⟩ := carried
  exact ⟨_, segment, here, (group_mem_planOf_iff.mp (List.mem_of_getElem? listed)).2, named⟩

end Construction.Realizes

end DependencyDiagram

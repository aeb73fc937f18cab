import DependencyDiagram.Proofs.Grouping.Building
import DependencyDiagram.Proofs.Tree.Ancestry
import Mathlib.Data.List.Sort

/-!
# Where a build puts leaves and groups

A build that succeeds has put every leaf where its path says. The groups of the built tree are the places
below the root that enough ways run through, one group for each; a leaf stands below the innermost group
on its way; and below every group and the root stand first the groups in ascending order of their labels
and then the leaves in the order of the input.

Here the two accounts of a hierarchy meet. One is about the input alone and speaks of ways, homes and
places. The other is about the tree and speaks of positions, parents and child lists. Everything that is
shown elsewhere about the groups of a view goes through the statement that they agree.
-/

namespace DependencyDiagram

open DependencyDiagram.Tree

/-- A name leads to a leaf with the identifier and the label. It is in this way that a view reaches the
leaves again once the tree is built, to give them edges and texts, without knowing anything of the groups
above them. -/
def BuiltTree.NamesLeaf (built : BuiltTree) (name : String) (id : NodeId) (label : String) : Prop :=
  ∃ position parent, built.leafs.get? name = some position ∧
    built.tree.node? position = some ⟨id, label, parent, .leaf⟩

/-- There is a group at the position. Where this holds a further node can be attached below the position,
whatever its identifier, as long as that identifier is not taken. -/
def Tree.HasGroupAt (tree : Tree) (position : Nat) : Prop :=
  ∃ node, tree.node? position = some node ∧ node.isLeaf = false

/-- The built tree has every leaf where its path says and groups for nothing else. What is expected is
said by the input and the options alone: the home of a leaf, the places that are groups, the segment that
a group is made from, and the order below a place are all defined without a tree and without a plan.

Nothing is left open. The leaves and the groups are described in both directions, so the tree has no node
besides them and the root, and the child list of every group is given in full. Only the numbers of minted
identifiers are not fixed, except that the mint given had not handed them out before. -/
structure BuiltTree.Places (built : BuiltTree) (options : HierarchyOptions) (specs : List LeafSpec)
    (mint : Mint) : Prop where
  /-- Every leaf of the input is found by its name, below its home. -/
  leaf : ∀ spec ∈ specs, ∃ position parent, built.leafs.get? spec.name = some position ∧
    built.tree.node? position = some ⟨spec.id, spec.label, some parent, .leaf⟩ ∧
    built.tree.labelPath position = homeOf options specs spec ++ [spec.label]
  /-- Different leaves of the input are at different positions. -/
  apart : ∀ spec ∈ specs, ∀ other ∈ specs,
    built.leafs.get? spec.name = built.leafs.get? other.name → spec = other
  /-- No name but those of the input leads to a leaf. -/
  named : ∀ name position, built.leafs.get? name = some position → ∃ spec ∈ specs, spec.name = name
  /-- The tree has no other leaves than those of the input. -/
  given : ∀ position node, built.tree.node? position = some node → node.isLeaf = true →
    ∃ spec ∈ specs, built.leafs.get? spec.name = some position
  /-- There is a group at every place that is to have one, made from the segment of the place. -/
  group : ∀ labels, IsGrouped options specs labels → ∃ position node segment,
    built.tree.node? position = some node ∧ built.tree.labelPath position = labels ∧
    segmentOf? options.nested specs labels = some segment ∧
    node.kind = .group segment.shortens ∧ segment.Names mint node.id
  /-- Every group but the root is at a place that is to have one. -/
  grouped : ∀ position, built.tree.HasGroupAt position → position ≠ root →
    IsGrouped options specs (built.tree.labelPath position)
  /-- A place has at most one group. -/
  single : ∀ first second, built.tree.HasGroupAt first → built.tree.HasGroupAt second →
    built.tree.labelPath first = built.tree.labelPath second → first = second
  /-- Below a group stand the groups in ascending order of their labels and then the leaves in the
  order of the input. -/
  children : ∀ position, built.tree.HasGroupAt position → ∃ groups leaves,
    built.tree.children position = groups ++ leaves ∧
    (∀ child ∈ groups, built.tree.HasGroupAt child) ∧
    groups.Pairwise (fun left right => built.tree.label left < built.tree.label right) ∧
    leaves.map some = (leavesAt options specs (built.tree.labelPath position)).map
      (fun spec => built.leafs.get? spec.name)
  /-- Nothing stands below a leaf. -/
  childless : ∀ position node, built.tree.node? position = some node → node.isLeaf = true →
    built.tree.children position = []

/-- The entries of the groups at a place have the labels of these groups. -/
theorem map_label_groups (options : HierarchyOptions) (specs : List LeafSpec) (place : List String) :
    ((groupsAt options specs place).filterMap (fun label =>
      (segmentOf? options.nested specs (place ++ [label])).map (PlanEntry.group place))).map
        PlanEntry.label = groupsAt options specs place := by
  rw [List.map_filterMap]
  refine Eq.trans (List.filterMap_congr (fun label listed => ?_)) List.filterMap_some
  obtain ⟨segment, found, named⟩ := exists_segmentOf? (mem_groupsAt.mp listed)
  rw [found]
  exact congrArg some named

/-- Where the leaf of an entry is found. Names are looked up and not remembered, so for an entry that
repeats a name this is the position of the later one. An input with such a name is refused before
anything is carried out. -/
def Construction.leafOf? (construction : Construction) : PlanEntry → Option Nat
  | .group _ _ => none
  | .leaf _ spec => construction.leafs.get? spec.name

namespace Construction.Realizes

variable {construction : Construction} {mint : Mint} {options : HierarchyOptions}
  {specs : List LeafSpec} {entries : List PlanEntry} {position : Nat}

/-- What is known of the node of an entry when entries are numbered as their nodes are. -/
theorem numbered (realized : construction.Realizes mint entries) {entry : PlanEntry} {child : Nat}
    (listed : (entry, child) ∈ entries.zipIdx 1) :
    ∃ index, child = index + 1 ∧ entries[index]? = some entry ∧
      construction.tree.Carries mint entry (index + 1) := by
  obtain ⟨later, present⟩ := List.mk_mem_zipIdx_iff_le_and_getElem?_sub.mp listed
  exact ⟨child - 1, (Nat.sub_add_cancel later).symm, present, realized.carried _ entry present⟩

/-- Every group but the root was added by the entry of a group. -/
theorem exists_group_entry (realized : construction.Realizes mint entries)
    (group : construction.tree.HasGroupAt position) (below : position ≠ root) :
    ∃ index around segment, position = index + 1 ∧
      entries[index]? = some (.group around segment) ∧
      construction.tree.Carries mint (.group around segment) (index + 1) := by
  obtain ⟨node, present, isGroup⟩ := group
  obtain ⟨index, entry, rfl, listed, carried⟩ :=
    realized.exists_entry (lt_size_of_node? present) below
  have ⟨_, _, here, _⟩ := carried
  obtain rfl := Option.some.inj (present.symm.trans here)
  cases entry with
  | leaf around spec => cases isGroup
  | group around segment => exact ⟨index, around, segment, rfl, listed, carried⟩

variable (realized : construction.Realizes mint (planOf options.nested options.ungroupSingle specs))

include realized

/-- A group but the root is at a place that is to have one. -/
theorem isGrouped_labelPath (group : construction.tree.HasGroupAt position) (below : position ≠ root) :
    IsGrouped options specs (construction.tree.labelPath position) := by
  obtain ⟨index, around, segment, rfl, listed, carried⟩ := realized.exists_group_entry group below
  rw [labelPath_of_carries carried]
  exact (group_mem_planOf_iff.mp (List.mem_of_getElem? listed)).1

/-- Two groups at one place are one. The place of a group fixes its segment, place and segment fix the
entry of the plan, and every entry is carried out once. -/
theorem group_unique (distinct : specs.Nodup) {first second : Nat}
    (here : construction.tree.HasGroupAt first) (there : construction.tree.HasGroupAt second)
    (same : construction.tree.labelPath first = construction.tree.labelPath second) :
    first = second := by
  by_cases firstRoot : first = root
  · subst firstRoot
    by_contra other
    have below := (realized.isGrouped_labelPath there (Ne.symm other)).1
    exact below (same ▸ labelPath_root _)
  · by_cases secondRoot : second = root
    · subst secondRoot
      exact absurd (same.trans (labelPath_root _)) (realized.isGrouped_labelPath here firstRoot).1
    · obtain ⟨index, around, segment, rfl, listed, carried⟩ := realized.exists_group_entry here firstRoot
      obtain ⟨other, outer, further, rfl, also, carriedToo⟩ := realized.exists_group_entry there secondRoot
      rw [labelPath_of_carries carried, labelPath_of_carries carriedToo] at same
      obtain ⟨place, label⟩ := List.append_singleton_inj.mp same
      -- the place fixes the segment, so both positions have the same entry
      have found := (group_mem_planOf_iff.mp (List.mem_of_getElem? listed)).2
      have foundToo := (group_mem_planOf_iff.mp (List.mem_of_getElem? also)).2
      obtain rfl : around = outer := place
      obtain rfl : segment = further := by
        rw [show segment.label = further.label from label, foundToo] at found
        exact (Option.some.inj found).symm
      rw [(List.getElem?_inj (List.getElem?_eq_some_iff.mp listed).1 (nodup_planOf distinct)).mp
        (listed.trans also.symm)]

/-- The children of a group are the nodes of the entries that go to its place. Nodes are numbered by
their entries and stored in this order. Both lists ascend, so that it is enough to compare their members:
a node is a child of the group exactly when its entry goes to the group's place. -/
theorem children_eq (distinct : specs.Nodup) (group : construction.tree.HasGroupAt position) :
    construction.tree.children position =
      (((planOf options.nested options.ungroupSingle specs).zipIdx 1).filter
        (fun entry => entry.1.around = construction.tree.labelPath position)).map Prod.snd := by
  -- both lists ascend, so it is enough that they have the same members
  refine List.Pairwise.eq_of_mem_iff (children_ascending _ _) ?_ (fun child => ?_)
  · refine List.Pairwise.sublist (List.filter_sublist.map _) ?_
    rw [List.zipIdx_map_snd]
    exact List.pairwise_lt_range'
  rw [mem_children, List.mem_map]
  constructor
  · intro named
    obtain ⟨node, present, _⟩ := Option.bind_eq_some_iff.mp named
    obtain ⟨index, entry, rfl, listed, carried⟩ := realized.exists_entry (lt_size_of_node? present)
      (Nat.ne_of_gt (Nat.zero_lt_of_lt (parent_lt named)))
    obtain ⟨id, parent, here, place, _⟩ := carried
    have same : parent = position := Option.some.inj ((parent?_of_node? here).symm.trans named)
    refine ⟨(entry, index + 1), List.mem_filter.mpr ⟨?_, decide_eq_true (same ▸ place.symm)⟩, rfl⟩
    rw [List.mk_mem_zipIdx_iff_le_and_getElem?_sub]
    exact ⟨Nat.le_add_left 1 index, listed⟩
  · rintro ⟨⟨entry, child⟩, member, rfl⟩
    obtain ⟨listed, goes⟩ := List.mem_filter.mp member
    obtain ⟨index, rfl, _, id, parent, here, place, _⟩ := realized.numbered listed
    have named : construction.tree.parent? (index + 1) = some parent := parent?_of_node? here
    rw [← realized.group_unique distinct (group_of_parent named) group
      (place.trans (of_decide_eq_true goes))]
    exact named

/-- A leaf is found by its name at the position of its entry. -/
theorem get?_leafs (distinct : (specs.map LeafSpec.name).Nodup) {index : Nat} {around : List String}
    {spec : LeafSpec}
    (listed : (planOf options.nested options.ungroupSingle specs)[index]? = some (.leaf around spec)) :
    construction.leafs.get? spec.name = some (index + 1) := by
  have planned := List.mem_of_getElem? listed
  obtain ⟨position, found⟩ := realized.held around spec planned
  obtain ⟨other, outer, same, rfl, also, called⟩ := realized.found spec.name position found
  obtain ⟨given, home⟩ := leaf_mem_planOf_iff.mp planned
  obtain ⟨givenToo, homeToo⟩ := leaf_mem_planOf_iff.mp (List.mem_of_getElem? also)
  -- names are distinct, so the entry that was found is the one of the leaf
  obtain rfl := List.inj_on_of_nodup_map distinct givenToo given called
  obtain rfl := home.symm.trans homeToo
  rw [found, (List.getElem?_inj (List.getElem?_eq_some_iff.mp also).1
    (nodup_planOf (List.Nodup.of_map _ distinct))).mp (also.trans listed.symm)]

/-- A leaf of the input is found by its name, below its home. -/
theorem leaf_at_home (distinct : (specs.map LeafSpec.name).Nodup) {spec : LeafSpec}
    (given : spec ∈ specs) :
    ∃ position parent, construction.leafs.get? spec.name = some position ∧
      construction.tree.node? position = some ⟨spec.id, spec.label, some parent, .leaf⟩ ∧
      construction.tree.labelPath position = homeOf options specs spec ++ [spec.label] := by
  obtain ⟨index, listed⟩ := List.mem_iff_getElem?.mp (leaf_mem_planOf_iff.mpr ⟨given, rfl⟩)
  have carried := realized.carried index _ listed
  have path := labelPath_of_carries carried
  obtain ⟨id, parent, here, _, rfl⟩ := carried
  exact ⟨index + 1, parent, realized.get?_leafs distinct listed, here, path⟩

/-- A name that leads to a leaf is the name of a leaf of the input. -/
theorem exists_spec_of_named {name : String} (found : construction.leafs.get? name = some position) :
    ∃ spec ∈ specs, spec.name = name := by
  obtain ⟨index, around, spec, _, listed, called⟩ := realized.found name position found
  exact ⟨spec, (leaf_mem_planOf_iff.mp (List.mem_of_getElem? listed)).1, called⟩

/-- A name leads to a position that no other name leads to. -/
theorem name_unique {first second : String} (here : construction.leafs.get? first = some position)
    (there : construction.leafs.get? second = some position) : first = second := by
  obtain ⟨index, around, spec, rfl, listed, rfl⟩ := realized.found first position here
  obtain ⟨other, outer, further, same, also, rfl⟩ := realized.found second _ there
  obtain rfl := Nat.succ.inj same
  obtain ⟨_, rfl⟩ := PlanEntry.leaf.inj (Option.some.inj (listed.symm.trans also))
  rfl

/-- A leaf of the tree is one of the input. -/
theorem exists_spec_of_leaf (distinct : (specs.map LeafSpec.name).Nodup) {node : TreeNode}
    (present : construction.tree.node? position = some node) (leaf : node.isLeaf = true) :
    ∃ spec ∈ specs, construction.leafs.get? spec.name = some position := by
  obtain ⟨index, entry, rfl, listed, carried⟩ :=
    realized.exists_entry (lt_size_of_node? present) (ne_root_of_leaf present leaf)
  obtain ⟨id, parent, here, _⟩ := carried
  obtain rfl := Option.some.inj (present.symm.trans here)
  cases entry with
  | group around segment => cases leaf
  | leaf around spec =>
    exact ⟨spec, (leaf_mem_planOf_iff.mp (List.mem_of_getElem? listed)).1,
      realized.get?_leafs distinct listed⟩

/-- There is a group at every place that is to have one, made from the segment of the place. -/
theorem exists_group {labels : List String} (grouped : IsGrouped options specs labels) :
    ∃ position node segment, construction.tree.node? position = some node ∧
      construction.tree.labelPath position = labels ∧
      segmentOf? options.nested specs labels = some segment ∧
      node.kind = .group segment.shortens ∧ segment.Names mint node.id := by
  obtain ⟨around, label, rfl⟩ := (List.eq_nil_or_concat' labels).resolve_left grouped.1
  obtain ⟨segment, found, rfl⟩ := exists_segmentOf? grouped
  obtain ⟨index, listed⟩ := List.mem_iff_getElem?.mp (group_mem_planOf_iff.mpr ⟨grouped, found⟩)
  have carried := realized.carried index _ listed
  have path := labelPath_of_carries carried
  obtain ⟨id, parent, here, _, named⟩ := carried
  exact ⟨index + 1, _, segment, here, path, found, rfl, named⟩

/-- The children of a group are the nodes of the groups and then of the leaves that are planned at
its place. -/
theorem exists_parts (distinct : specs.Nodup) (group : construction.tree.HasGroupAt position) :
    ∃ groups leaves : List (PlanEntry × Nat),
      construction.tree.children position = (groups ++ leaves).map Prod.snd ∧
      (∀ entry ∈ groups ++ leaves,
        entry ∈ (planOf options.nested options.ungroupSingle specs).zipIdx 1) ∧
      groups.map Prod.fst =
        (groupsAt options specs (construction.tree.labelPath position)).filterMap (fun label =>
          (segmentOf? options.nested specs (construction.tree.labelPath position ++ [label])).map
            (PlanEntry.group (construction.tree.labelPath position))) ∧
      leaves.map Prod.fst = (leavesAt options specs (construction.tree.labelPath position)).map
        (PlanEntry.leaf (construction.tree.labelPath position)) := by
  have place : construction.tree.labelPath position = [] ∨
      IsGrouped options specs (construction.tree.labelPath position) := by
    by_cases top : position = root
    · exact Or.inl (top ▸ labelPath_root _)
    · exact Or.inr (realized.isGrouped_labelPath group top)
  have planned := entriesAt_place place
  rw [← List.zipIdx_map_fst 1 (planOf _ _ _), List.filter_map, entriesAt_eq] at planned
  obtain ⟨groups, leaves, parts, ofGroups, ofLeaves⟩ := List.map_eq_append_iff.mp planned.symm
  have listed : construction.tree.children position = (groups ++ leaves).map Prod.snd := by
    rw [realized.children_eq distinct group, ← parts]
    rfl
  exact ⟨groups, leaves, listed, fun entry among => (List.mem_filter.mp (parts ▸ among)).1, ofGroups,
    ofLeaves⟩

/-- Below a group stand the groups in ascending order and then the leaves in the order of the input. The
child list is known as the entries of the plan at the group's place. What is said of positions is read
off these entries. -/
theorem exists_children (distinct : (specs.map LeafSpec.name).Nodup)
    (group : construction.tree.HasGroupAt position) :
    ∃ groups leaves, construction.tree.children position = groups ++ leaves ∧
      (∀ child ∈ groups, construction.tree.HasGroupAt child) ∧
      groups.Pairwise
        (fun left right => construction.tree.label left < construction.tree.label right) ∧
      leaves.map some = (leavesAt options specs (construction.tree.labelPath position)).map
        (fun spec => construction.leafs.get? spec.name) := by
  obtain ⟨groups, leaves, listed, planned, ofGroups, ofLeaves⟩ :=
    realized.exists_parts (List.Nodup.of_map _ distinct) group
  refine ⟨groups.map Prod.snd, leaves.map Prod.snd, listed.trans List.map_append, ?_, ?_, ?_⟩
  · intro child present
    obtain ⟨⟨entry, _⟩, among, rfl⟩ := List.mem_map.mp present
    obtain ⟨index, rfl, _, _, _, here, _⟩ :=
      realized.numbered (planned _ (List.mem_append_left _ among))
    have kind : entry ∈ groups.map Prod.fst := List.mem_map.mpr ⟨_, among, rfl⟩
    rw [ofGroups, List.mem_filterMap] at kind
    obtain ⟨label, _, made⟩ := kind
    obtain ⟨segment, _, rfl⟩ := Option.map_eq_some_iff.mp made
    exact ⟨_, here, rfl⟩
  · have labels : (groups.map Prod.snd).map construction.tree.label =
        groupsAt options specs (construction.tree.labelPath position) := by
      rw [← map_label_groups, ← ofGroups, List.map_map, List.map_map]
      apply List.map_congr_left
      rintro ⟨entry, child⟩ among
      obtain ⟨index, rfl, _, _, _, here, _⟩ :=
        realized.numbered (planned _ (List.mem_append_left _ among))
      rw [Function.comp_apply, Function.comp_apply, Tree.label, here]
    have ascending := groupsAt_ascending options specs (construction.tree.labelPath position)
    rw [← labels] at ascending
    exact List.pairwise_map.mp ascending
  · have found : leaves.map (some ∘ Prod.snd) = leaves.map (construction.leafOf? ∘ Prod.fst) := by
      apply List.map_congr_left
      rintro ⟨entry, child⟩ among
      obtain ⟨index, rfl, here, _⟩ := realized.numbered (planned _ (List.mem_append_right _ among))
      have kind : entry ∈ leaves.map Prod.fst := List.mem_map.mpr ⟨_, among, rfl⟩
      rw [ofLeaves, List.mem_map] at kind
      obtain ⟨spec, _, rfl⟩ := kind
      exact (realized.get?_leafs distinct here).symm
    rw [List.map_map, found, ← List.map_map, ofLeaves, List.map_map]
    rfl

end Construction.Realizes

section Leaves

variable {specs : List LeafSpec} {options : HierarchyOptions} {mint further : Mint} {built : BuiltTree}
  {id : NodeId}

/-- The leaves of a built tree are those of the input. -/
theorem hasLeaf_iff_of_buildHierarchy
    (succeeded : buildHierarchy specs options mint = .ok (built, further)) :
    built.tree.HasLeaf id ↔ ∃ spec ∈ specs, spec.id = id := by
  constructor
  · obtain ⟨distinct, construction, realized, rfl⟩ := exists_realizes_of_buildHierarchy succeeded
    rintro ⟨position, node, present, rfl, leaf⟩
    obtain ⟨spec, given, found⟩ := realized.exists_spec_of_leaf distinct present leaf
    obtain ⟨other, parent, foundToo, here, _⟩ := realized.leaf_at_home distinct given
    obtain rfl := Option.some.inj (found.symm.trans foundToo)
    exact ⟨spec, given, congrArg TreeNode.id (Option.some.inj (here.symm.trans present))⟩
  · rintro ⟨spec, given, rfl⟩
    exact hasLeaf_of_buildHierarchy succeeded given

/-- The names of a built tree lead to the leaves that were given with them. -/
theorem namesLeaf_iff_of_buildHierarchy
    (succeeded : buildHierarchy specs options mint = .ok (built, further)) {name label : String} :
    built.NamesLeaf name id label ↔
      ∃ spec ∈ specs, spec.name = name ∧ spec.id = id ∧ spec.label = label := by
  obtain ⟨distinct, construction, realized, rfl⟩ := exists_realizes_of_buildHierarchy succeeded
  constructor
  · rintro ⟨position, parent, found, present⟩
    obtain ⟨spec, given, rfl⟩ := realized.exists_spec_of_named found
    obtain ⟨other, upper, foundToo, here, _⟩ := realized.leaf_at_home distinct given
    obtain rfl := Option.some.inj (found.symm.trans foundToo)
    have same := Option.some.inj (here.symm.trans present)
    exact ⟨spec, given, rfl, congrArg TreeNode.id same, congrArg TreeNode.label same⟩
  · rintro ⟨spec, given, rfl, rfl, rfl⟩
    obtain ⟨position, parent, found, here, _⟩ := realized.leaf_at_home distinct given
    exact ⟨position, some parent, found, here⟩

end Leaves

/-- A build that succeeds puts every leaf and every group where the paths say. The build thins a draft
out from the inside to the outside, and the order in which it does so shows nowhere: whether a place is a
group is decided by the number of leaves whose ways run through it, however deep it lies and whatever was
dissolved around or below it. A leaf whose group is left out is found in the next group above that is
there, in its turn among the leaves. -/
theorem leaves_placed_by_paths {specs : List LeafSpec} {options : HierarchyOptions}
    {mint further : Mint} {built : BuiltTree}
    (succeeded : buildHierarchy specs options mint = .ok (built, further)) :
    built.Places options specs mint := by
  obtain ⟨distinct, construction, realized, rfl⟩ := exists_realizes_of_buildHierarchy succeeded
  exact {
    leaf := fun spec given => realized.leaf_at_home distinct given
    apart := by
      intro spec given other also same
      obtain ⟨position, _, found, _⟩ := realized.leaf_at_home distinct given
      exact List.inj_on_of_nodup_map distinct given also
        (realized.name_unique found (same.symm.trans found))
    named := fun name position found => realized.exists_spec_of_named found
    given := fun position node present leaf => realized.exists_spec_of_leaf distinct present leaf
    group := fun labels grouped => realized.exists_group grouped
    grouped := fun position group below => realized.isGrouped_labelPath group below
    single := fun first second here there same =>
      realized.group_unique (List.Nodup.of_map _ distinct) here there same
    children := fun position group => realized.exists_children distinct group
    childless := fun position node present leaf => children_of_leaf present leaf }

namespace Sample

/-- A group that is given an identifier by one of its leaves only. -/
def shelf : NodeId := .layerGroup ⟨"layer", by decide, by decide⟩ ⟨"Shelf", by decide, by decide⟩

/-- Leaves with paths of different lengths. The groups "Box" and "Lone" have one leaf each. -/
def pathSpecs : List LeafSpec := [
  ⟨.named .customLeaf ⟨"a", by decide, by decide⟩, "a", "first",
    [.prefixed "Shelf", .bucket "Box"]⟩,
  ⟨.named .customLeaf ⟨"b", by decide, by decide⟩, "b", "second", [.bucket "Lone"]⟩,
  ⟨.named .customLeaf ⟨"c", by decide, by decide⟩, "c", "third",
    [(Segment.bucket "Shelf").withId shelf]⟩,
  ⟨.named .customLeaf ⟨"d", by decide, by decide⟩, "d", "fourth", []⟩]

end Sample

/-- The sample is built where single leaves are not grouped. Its one group promises what the first
leaf's segment promises and has no identifier of its own, and the leaf of the group that is left
out moves up. -/
theorem pathSpecs_placed_by_paths :
    ∃ built further, buildHierarchy Sample.pathSpecs ⟨true, true⟩ Mint.fresh = .ok (built, further) ∧
      built.Places ⟨true, true⟩ Sample.pathSpecs Mint.fresh ∧
      built.tree.children root = [1, 4, 5] ∧ built.tree.children 1 = [2, 3] ∧
      (built.tree.node? 1).map TreeNode.kind = some (.group true) ∧
      Sample.pathSpecs.map (homeOf ⟨true, true⟩ Sample.pathSpecs) = [["Shelf"], [], ["Shelf"], []] := by
  have computed : (buildHierarchy Sample.pathSpecs ⟨true, true⟩ Mint.fresh).toOption.map
      (fun built => (built.1.tree.children root, built.1.tree.children 1,
        (built.1.tree.node? 1).map TreeNode.kind)) = some ([1, 4, 5], [2, 3], some (.group true)) := by
    decide
  obtain ⟨⟨built, further⟩, found, same⟩ := Option.map_eq_some_iff.mp computed
  obtain ⟨top, below⟩ := Prod.mk.inj same
  obtain ⟨inner, kind⟩ := Prod.mk.inj below
  have returned := Outcome.toOption_eq_some_iff.mp found
  exact ⟨built, further, returned, leaves_placed_by_paths returned, top, inner, kind, by decide⟩

end DependencyDiagram

import DependencyDiagram.Proofs.Grouping.Placement

/-!
# Promises about labels

A group may promise that the labels of its children go on behind its own: its label, a dot and
something more. A group is made from the segment of the first leaf that runs through it, so its
promise is the one of that leaf, and other leaves come to stand below it with labels of their own.
The promise is kept where all paths that share a place make the same promise there and where every
single path keeps its own. The same goes for whatever else labels are promised to be behind that of
their group.
-/

namespace DependencyDiagram

open DependencyDiagram.Tree

/-- A label goes on behind another with a dot and something more. It is what a picture relies on when it
leaves the label of the group out of the labels inside: something is left to be shown of every one of
them. -/
def Continues (group label : String) : Prop := ∃ further, further ≠ "" ∧ label = group ++ "." ++ further

/-- The child of every group but the root that makes the promise goes on behind the group. The root is
left out. It has no label of its own, and a picture does not shorten anything by it. -/
def Tree.KeepsPromises (tree : Tree) : Prop :=
  ∀ position node parent group, tree.node? position = some node → node.parent = some parent →
    tree.node? parent = some group → parent ≠ root → group.shortens = true →
    Continues group.label node.label

/-- Leaves that have the same label at the same place of their paths make the same promise there. A group
that makes no promise for its first leaf and one for its second would make none, and the other way round
it would make one that was never given for all who stand in it. -/
def PathsAgree (specs : List LeafSpec) : Prop :=
  ∀ first ∈ specs, ∀ second ∈ specs, ∀ (index : Nat) (segment other : Segment),
    first.path[index]? = some segment → second.path[index]? = some other →
    segment.label = other.label → segment.shortens = other.shortens

/-- The path of a leaf keeps its own promises, down to the leaf. Every later label on the path is covered
and not the next one alone, since the groups between may be dissolved and the label further in then
stands right below the one that makes the promise. -/
structure LeafSpec.KeepsPromises (spec : LeafSpec) : Prop where
  onward : spec.path.Pairwise
    (fun upper lower => upper.shortens = true → Continues upper.label lower.label)
  own : ∀ segment ∈ spec.path, segment.shortens = true → Continues segment.label spec.label

variable {options : HierarchyOptions} {specs : List LeafSpec} {spec : LeafSpec}
  {around : List String} {label own : String} {segment : Segment} {relates : String → String → Prop}

/-- Where paths agree, every leaf that runs through a group makes the promise of the group. -/
theorem exists_promise (agree : PathsAgree specs) (given : spec ∈ specs)
    (further : around ++ [own] <+: spec.way options.nested)
    (found : segmentOf? options.nested specs (around ++ [own]) = some segment) :
    ∃ promise, spec.path[around.length]? = some promise ∧ promise.label = segment.label ∧
      promise.shortens = segment.shortens := by
  obtain ⟨promise, onWay, named⟩ := exists_segment_on_way further
  obtain ⟨first, firstGiven, firstHere⟩ := exists_spec_of_segmentOf? found
  have labels : promise.label = segment.label := named.trans (label_of_segmentOf? found).symm
  have here := getElem?_of_cutPath onWay
  exact ⟨promise, here, labels, agree spec given first firstGiven _ _ _ here firstHere labels⟩

/-- A group in a group that makes a promise is related to it, where segments are along each path. -/
theorem relates_of_grouped (agree : PathsAgree specs)
    (onward : ∀ spec ∈ specs, spec.path.Pairwise
      (fun upper lower => upper.shortens = true → relates upper.label lower.label))
    (found : segmentOf? options.nested specs (around ++ [own]) = some segment)
    (promises : segment.shortens = true)
    (grouped : IsGrouped options specs (around ++ [own] ++ [label])) :
    relates segment.label label := by
  obtain ⟨spec, rest, run⟩ := exists_through grouped
  obtain ⟨given, further⟩ := mem_through.mp (run ▸ List.mem_cons_self : spec ∈ _)
  obtain ⟨promise, here, named, same⟩ :=
    exists_promise agree given ((List.prefix_append _ [label]).trans further) found
  obtain ⟨inner, below, innerNamed⟩ := exists_segment_on_way further
  have next := getElem?_of_cutPath below
  rw [List.length_append, List.length_singleton] at next
  obtain ⟨first, rfl⟩ := List.getElem?_eq_some_iff.mp here
  obtain ⟨second, rfl⟩ := List.getElem?_eq_some_iff.mp next
  rw [← named, ← innerNamed]
  exact List.pairwise_iff_getElem.mp (onward spec given) _ _ first second (Nat.lt_succ_self _)
    (same.trans promises)

/-- A leaf at home in a group that makes a promise is related to it, where it is to its path. -/
theorem relates_of_home (agree : PathsAgree specs)
    (onPath : ∀ segment ∈ spec.path, segment.shortens = true → relates segment.label spec.label)
    (given : spec ∈ specs) (home : homeOf options specs spec = around ++ [own])
    (found : segmentOf? options.nested specs (around ++ [own]) = some segment)
    (promises : segment.shortens = true) : relates segment.label spec.label := by
  obtain ⟨promise, here, named, same⟩ := exists_promise agree given (home ▸ homeOf_begins) found
  rw [← named]
  exact onPath promise (List.mem_of_getElem? here) (same.trans promises)

/-- In a tree built from paths that agree, children are related to groups that make a promise where
they are so along each path. -/
theorem relates_of_buildHierarchy {mint further : Mint} {built : BuiltTree}
    (succeeded : buildHierarchy specs options mint = .ok (built, further)) (agree : PathsAgree specs)
    (onward : ∀ spec ∈ specs, spec.path.Pairwise
      (fun upper lower => upper.shortens = true → relates upper.label lower.label))
    (onPath : ∀ spec ∈ specs, ∀ segment ∈ spec.path, segment.shortens = true →
      relates segment.label spec.label) :
    ∀ position node parent group, built.tree.node? position = some node → node.parent = some parent →
      built.tree.node? parent = some group → parent ≠ root → group.shortens = true →
      relates group.label node.label := by
  obtain ⟨_, construction, realized, rfl⟩ := exists_realizes_of_buildHierarchy succeeded
  intro position node parent group present below above inner promises
  have named : construction.tree.parent? position = some parent := by
    rw [parent?, present, Option.bind_some, below]
  obtain ⟨index, entry, rfl, listed, id, place, here, path, _⟩ := realized.exists_entry
    (lt_size_of_node? present) (Nat.ne_of_gt (Nat.zero_lt_of_lt (parent_lt named)))
  obtain rfl := Option.some.inj (present.symm.trans here)
  obtain rfl : place = parent := Option.some.inj below
  -- the parent comes from the entry of a group, whose segment makes the promise
  obtain ⟨upper, around, segment, rfl, planned, carried⟩ := realized.exists_group_entry
    (group_of_parent named) inner
  rw [labelPath_of_carries carried] at path
  obtain ⟨_, _, hereToo, _⟩ := carried
  obtain rfl := Option.some.inj (above.symm.trans hereToo)
  have found := (group_mem_planOf_iff.mp (List.mem_of_getElem? planned)).2
  have promised : segment.shortens = true := by simpa [TreeNode.shortens, PlanEntry.kind] using promises
  cases entry with
  | leaf outer spec =>
    obtain ⟨given, home⟩ := leaf_mem_planOf_iff.mp (List.mem_of_getElem? listed)
    exact relates_of_home agree (onPath spec given) given (home.trans path.symm) found promised
  | group outer lower =>
    have grouped := (group_mem_planOf_iff.mp (List.mem_of_getElem? listed)).1
    obtain rfl : around ++ [segment.label] = outer := path
    exact relates_of_grouped agree onward found promised grouped

/-- A tree built from paths that agree and keep their promises keeps its promises. -/
theorem keepsPromises_of_buildHierarchy {mint further : Mint} {built : BuiltTree}
    (succeeded : buildHierarchy specs options mint = .ok (built, further))
    (agree : PathsAgree specs) (keeps : ∀ spec ∈ specs, spec.KeepsPromises) :
    built.tree.KeepsPromises :=
  relates_of_buildHierarchy succeeded agree (fun spec given => (keeps spec given).onward)
    (fun spec given => (keeps spec given).own)

end DependencyDiagram

import DependencyDiagram.Proofs.Grouping.Materializing
import DependencyDiagram.Proofs.Grouping.Realization

/-!
# What a build yields

A build that succeeds was given leaves with distinct names and has carried out the plan for them. So the
tree has a leaf for every leaf of the input, and its groups promise nothing when no segment of a path
does. These are the facts that the views need. What a view is asked to build is known from its leaves
alone, and nothing here looks at how a tree comes about.
-/

namespace DependencyDiagram

open DependencyDiagram.Tree

variable {specs : List LeafSpec} {options : HierarchyOptions} {mint further : Mint} {built : BuiltTree}

/-- Names among which no first repetition is found are distinct. -/
theorem nodup_of_firstRepeated? {seen names : List String} (none : firstRepeated? seen names = none) :
    names.Nodup ∧ ∀ name ∈ names, name ∉ seen := by
  induction names generalizing seen with
  | nil => exact ⟨List.nodup_nil, nofun⟩
  | cons name rest inductionHypothesis =>
    rw [firstRepeated?] at none
    split at none
    · cases none
    · rename_i new
      obtain ⟨distinct, apart⟩ := inductionHypothesis none
      refine ⟨List.nodup_cons.mpr ⟨fun listed => apart name listed List.mem_cons_self, distinct⟩, ?_⟩
      rw [List.forall_mem_cons]
      exact ⟨new, fun other listed repeated => apart other listed (List.mem_cons_of_mem name repeated)⟩

/-- A build that succeeds realizes the plan, for leaves with distinct names. -/
theorem exists_realizes_of_buildHierarchy
    (succeeded : buildHierarchy specs options mint = .ok (built, further)) :
    (specs.map LeafSpec.name).Nodup ∧
      ∃ construction : Construction,
        construction.Realizes mint (planOf options.nested options.ungroupSingle specs) ∧
          built = ⟨construction.tree, construction.leafs⟩ := by
  rw [buildHierarchy_eq] at succeeded
  split at succeeded
  · cases succeeded
  · rename_i none
    obtain ⟨construction, ran, returned⟩ := Outcome.bind_eq_ok_iff.mp succeeded
    obtain ⟨rfl, _⟩ := Prod.mk.inj (Except.ok.inj returned)
    exact ⟨(nodup_of_firstRepeated? none).1, construction,
      Construction.realizes_of_run (grounded_planOf options specs) ran, rfl⟩

/-- A built tree has every leaf that was to be placed. -/
theorem hasLeaf_of_buildHierarchy
    (succeeded : buildHierarchy specs options mint = .ok (built, further)) {spec : LeafSpec}
    (listed : spec ∈ specs) : built.tree.HasLeaf spec.id := by
  obtain ⟨_, construction, realized, rfl⟩ := exists_realizes_of_buildHierarchy succeeded
  obtain ⟨index, planned⟩ := List.mem_iff_getElem?.mp (leaf_mem_planOf_iff.mpr ⟨listed, rfl⟩)
  obtain ⟨_, _, present, _, rfl⟩ := realized.carried index _ planned
  exact ⟨index + 1, _, present, rfl, rfl⟩

/-- A group of a built tree is the root, or it is made from a segment of a path. -/
theorem exists_segment_of_buildHierarchy
    (succeeded : buildHierarchy specs options mint = .ok (built, further)) {position : Nat}
    {node : TreeNode} (present : built.tree.node? position = some node) (below : position ≠ root)
    (isGroup : node.isLeaf = false) :
    ∃ spec ∈ specs, ∃ segment ∈ spec.path, node.label = segment.label ∧
      node.kind = .group segment.shortens := by
  obtain ⟨_, construction, realized, rfl⟩ := exists_realizes_of_buildHierarchy succeeded
  obtain ⟨index, entry, rfl, planned, _, _, here, _⟩ :=
    realized.exists_entry (lt_size_of_node? present) below
  obtain rfl := Option.some.inj (present.symm.trans here)
  cases entry with
  | leaf around spec => cases isGroup
  | group around segment =>
    -- the segment of a group is on the path of the first leaf that runs through it
    have found := (group_mem_planOf_iff.mp (List.mem_of_getElem? planned)).2
    obtain ⟨first, given, onPath⟩ := exists_spec_of_segmentOf? found
    exact ⟨first, given, segment, List.mem_of_getElem? onPath, rfl, rfl⟩

/-- Where no segment of a path makes a promise, no group of the built tree does. -/
theorem promiseless_of_buildHierarchy
    (succeeded : buildHierarchy specs options mint = .ok (built, further))
    (silent : ∀ spec ∈ specs, ∀ segment ∈ spec.path, segment.shortens = false) :
    built.tree.Promiseless := by
  intro node listed
  obtain ⟨position, present⟩ := List.mem_iff_getElem?.mp listed
  by_cases top : position = root
  · subst top
    obtain ⟨_, construction, _, rfl⟩ := exists_realizes_of_buildHierarchy succeeded
    exact shortens_of_root present
  · cases leaf : node.isLeaf with
    | true =>
      rw [TreeNode.shortens, show node.kind = .leaf from eq_of_beq leaf]
      rfl
    | false =>
      obtain ⟨spec, given, segment, onPath, _, kind⟩ :=
        exists_segment_of_buildHierarchy succeeded present top leaf
      rw [TreeNode.shortens, kind, silent spec given segment onPath]
      rfl

/-- The groups of a name's layers make no promise. -/
theorem silent_layerPath {groupBy : String} {above tags : List String} {path : List Segment}
    (found : layerPath groupBy above tags = .ok path) :
    ∀ segment ∈ path, segment.shortens = false := by
  induction tags generalizing above path with
  | nil =>
    obtain rfl : [] = path := Except.ok.inj found
    exact nofun
  | cons tag rest inductionHypothesis =>
    obtain ⟨id, _, further⟩ := Outcome.bind_eq_ok_iff.mp found
    obtain ⟨below, here, returned⟩ := Outcome.bind_eq_ok_iff.mp further
    obtain rfl := Except.ok.inj returned
    intro segment listed
    rcases List.mem_cons.mp listed with rfl | later
    · rfl
    · exact inductionHypothesis here segment later

end DependencyDiagram

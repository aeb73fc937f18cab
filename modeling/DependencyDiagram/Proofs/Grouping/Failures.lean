import DependencyDiagram.Proofs.Grouping.Success

/-!
# Builds that fail

A build fails for one of two reasons. A name is given twice, which is found out before any node is added;
or a node is to be added whose identifier the tree has already. Where the identifiers that are given do
not clash, the second happens exactly when the mint runs out: it hands out every positive number of
thirty-two bits once, the first of them for the root.

The count of minted groups is that of the plan. It is bounded by the lengths of the paths, so an input
has to be very deep or very wide before the mint runs out, and one that is neither never meets the second
failure.
-/

namespace DependencyDiagram

open DependencyDiagram.Tree

/-- A node that cannot be attached breaks the structure of the tree. -/
theorem Tree.kind_of_attach_error {tree : Tree} {parent : Nat} {id : NodeId} {label : String}
    {kind : NodeKind} {failure : Failure} (failed : tree.attach parent id label kind = .error failure) :
    failure.kind = .structuralInvariantViolation := by
  unfold attach at failed
  split at failed
  · cases failed
    rfl
  · split at failed
    · cases failed
      rfl
    · split at failed
      · cases failed
      · cases failed
        rfl

/-- The identifier was minted for a group. No other part of the program gives a node an identifier of
this form, so a clash between two of them is always one of the mint with itself. -/
def NodeId.isMintedGroup : NodeId → Bool
  | artificial .group _ => true
  | _ => false

/-- A minted identifier of a group is a number. -/
theorem NodeId.isMintedGroup_iff {id : NodeId} :
    id.isMintedGroup = true ↔ ∃ key, id = .artificial .group key := by
  rcases id with _ | _ | _ | ⟨kind, key⟩
  case artificial => cases kind <;> simp [isMintedGroup]
  all_goals simp [isMintedGroup]

/-- The mint has no more identifiers for groups than there are positive numbers of thirty-two bits. -/
theorem NodeId.countP_isMintedGroup_le {ids : List NodeId} (distinct : ids.Nodup) :
    ids.countP isMintedGroup ≤ Text.maxWord32 := by
  have numbers : ((ids.filter isMintedGroup).map orderNumber).Nodup := by
    refine (distinct.filter _).map_on ?_
    intro left here right there same
    obtain ⟨⟨number, _, _⟩, rfl⟩ := isMintedGroup_iff.mp (List.mem_filter.mp here).2
    obtain ⟨⟨other, _, _⟩, rfl⟩ := isMintedGroup_iff.mp (List.mem_filter.mp there).2
    obtain rfl : number = other := same
    rfl
  have bounded : (ids.filter isMintedGroup).map orderNumber ⊆ List.range' 1 Text.maxWord32 := by
    intro number listed
    obtain ⟨id, minted, rfl⟩ := List.mem_map.mp listed
    obtain ⟨key, rfl⟩ := isMintedGroup_iff.mp (List.mem_filter.mp minted).2
    have positive := key.positive
    have bounded := key.bounded
    rw [orderNumber, List.mem_range'_1]
    omega
  calc ids.countP isMintedGroup
      = ((ids.filter isMintedGroup).map orderNumber).length := by
        rw [List.length_map, List.countP_eq_length_filter]
    _ ≤ (List.range' 1 Text.maxWord32).length := (List.subperm_of_subset numbers bounded).length_le
    _ = Text.maxWord32 := List.length_range'

namespace Construction

variable {construction : Construction} {entry : PlanEntry}

/-- An entry that cannot be carried out breaks the structure of the tree. -/
theorem kind_of_perform_error {failure : Failure} (failed : construction.perform entry = .error failure) :
    failure.kind = .structuralInvariantViolation := by
  rw [perform_eq] at failed
  cases attached : construction.tree.attach (construction.placeOf entry.around)
      (identifierOf construction.mint entry).1 entry.label entry.kind with
  | ok grown =>
    rw [attached] at failed
    cases failed
  | error other =>
    rw [attached] at failed
    cases failed
    exact kind_of_attach_error attached

/-- A construction has a minted identifier for the root and for every entry that has none of its own. Both
sides are counted along the run, since every entry adds one node. The identifiers of a tree are all
different, so this bounds such entries by the numbers that the mint has. -/
theorem countP_isMinted_lt {entries : List PlanEntry} {mint : Mint}
    (ran : entries.foldlM perform (begin mint) = .ok construction) :
    entries.countP PlanEntry.isMinted + 1 ≤
      (construction.tree.nodes.map TreeNode.id).countP NodeId.isMintedGroup := by
  refine Outcome.foldlM_along (fun done state => done.countP PlanEntry.isMinted + 1 ≤
    (state.tree.nodes.map TreeNode.id).countP NodeId.isMintedGroup) ?_ (Nat.le_refl 1) ran
  intro done entry rest state next _ counted performed
  rw [perform_eq] at performed
  obtain ⟨grown, attached, rfl⟩ := Outcome.map_eq_ok_iff.mp performed
  have own : entry.isMinted = true → (identifierOf state.mint entry).1.isMintedGroup = true := by
    intro minted
    rw [PlanEntry.isMinted, Option.isNone_iff_eq_none] at minted
    rw [identifierOf, minted]
    rfl
  rw [nodes_of_attach attached, List.map_append, List.countP_append, List.countP_append,
    List.map_singleton, List.countP_singleton, List.countP_singleton]
  by_cases minted : entry.isMinted = true
  · rw [if_pos minted, if_pos (own minted)]
    omega
  · rw [if_neg minted]
    omega

end Construction

/-- A first repetition is found exactly among names that are not distinct. -/
theorem firstRepeated?_eq_none_iff {names : List String} :
    firstRepeated? [] names = none ↔ names.Nodup :=
  ⟨fun none => (nodup_of_firstRepeated? none).1,
    fun distinct => firstRepeated?_eq_none distinct (fun _ _ => List.not_mem_nil)⟩

variable {specs : List LeafSpec} {options : HierarchyOptions} {mint : Mint}

/-- A build with a repeated name fails for it. -/
theorem buildHierarchy_of_repeated (repeated : ¬ (specs.map LeafSpec.name).Nodup) :
    ∃ failure, buildHierarchy specs options mint = .error failure ∧ failure.kind = .duplicateLeafName := by
  rw [buildHierarchy]
  cases found : firstRepeated? [] (specs.map LeafSpec.name) with
  | none => exact absurd (firstRepeated?_eq_none_iff.mp found) repeated
  | some name => exact ⟨_, rfl, rfl⟩

/-- A build with distinct names that fails does so on the structure of the tree. -/
theorem kind_of_buildHierarchy_error {failure : Failure} (distinct : (specs.map LeafSpec.name).Nodup)
    (failed : buildHierarchy specs options mint = .error failure) :
    failure.kind = .structuralInvariantViolation := by
  rw [buildHierarchy_eq, firstRepeated?_eq_none_iff.mpr distinct] at failed
  rcases Outcome.bind_eq_error_iff.mp failed with ran | ⟨_, _, impossible⟩
  · obtain ⟨_, _, _, performed⟩ := Outcome.exists_of_foldlM_eq_error ran
    exact Construction.kind_of_perform_error performed
  · cases impossible

/-- The mint has a number for the root and for every group that has no identifier of its own. The root
takes the first number, which is why the count of groups stays strictly below the largest one. Behind it
the mint repeats its last number, and the second group to receive that number is refused. -/
def HierarchyOptions.MintSuffices (options : HierarchyOptions) (specs : List LeafSpec) : Prop :=
  (planOf options.nested options.ungroupSingle specs).countP PlanEntry.isMinted < Text.maxWord32

/-- Where the mint does not suffice, the positions of the tree's nodes would not fit into words of
thirty-two bits either. -/
theorem maxWord32_lt_length_planOf (short : ¬ options.MintSuffices specs) :
    Text.maxWord32 < (planOf options.nested options.ungroupSingle specs).length := by
  refine Nat.lt_of_le_of_lt (Nat.not_lt.mp short) ?_
  -- where there is a leaf at all, its entry is not minted
  cases specs with
  | nil => exact absurd (by decide : (0 : Nat) < Text.maxWord32) short
  | cons spec rest =>
    have leaf : PlanEntry.leaf _ spec ∈ planOf options.nested options.ungroupSingle (spec :: rest) :=
      leaf_mem_planOf_iff.mpr ⟨List.mem_cons_self, rfl⟩
    refine Nat.lt_of_le_of_ne List.countP_le_length (fun all => ?_)
    cases List.countP_eq_length.mp all _ leaf

/-- Every group without an identifier of its own takes a number of the mint. The groups are given by
their places: different places have different entries in the plan, and each of these entries is one that
the mint serves. -/
theorem length_le_countP_isMinted {places : List (List String)} (distinct : places.Nodup)
    (minted : ∀ labels ∈ places, IsGrouped options specs labels ∧
      ∀ segment, segmentOf? options.nested specs labels = some segment → segment.id = none) :
    places.length ≤ (planOf options.nested options.ungroupSingle specs).countP PlanEntry.isMinted := by
  have planned : places ⊆ ((planOf options.nested options.ungroupSingle specs).filter
      PlanEntry.isMinted).filterMap PlanEntry.opens? := by
    intro labels listed
    obtain ⟨grouped, nameless⟩ := minted labels listed
    obtain ⟨around, label, rfl⟩ := (List.eq_nil_or_concat' labels).resolve_left grouped.1
    obtain ⟨segment, found, rfl⟩ := exists_segmentOf? grouped
    refine List.mem_filterMap.mpr ⟨.group around segment, List.mem_filter.mpr ⟨?_, ?_⟩, rfl⟩
    · exact group_mem_planOf_iff.mpr ⟨grouped, found⟩
    · exact Option.isNone_iff_eq_none.mpr (nameless segment found)
  calc places.length
      ≤ (((planOf options.nested options.ungroupSingle specs).filter
          PlanEntry.isMinted).filterMap PlanEntry.opens?).length :=
        (List.subperm_of_subset distinct planned).length_le
    _ ≤ ((planOf options.nested options.ungroupSingle specs).filter PlanEntry.isMinted).length :=
        List.length_filterMap_le _ _
    _ = (planOf options.nested options.ungroupSingle specs).countP PlanEntry.isMinted :=
        List.countP_eq_length_filter.symm

/-- Where single leaves are grouped too and no group has an identifier of its own, a long path takes many
numbers. Each place on the way of the leaf is the place of a group then, and the places are told apart by
their depths. So a document with one very long name is enough to use up the mint. -/
theorem length_way_le_countP_isMinted {spec : LeafSpec} (single : options.ungroupSingle = false)
    (given : spec ∈ specs) (nameless : ∀ other ∈ specs, ∀ segment ∈ other.path, segment.id = none) :
    (spec.way options.nested).length ≤
      (planOf options.nested options.ungroupSingle specs).countP PlanEntry.isMinted := by
  -- the groups are those at the beginnings of the way, which differ in their lengths
  have distinct : ((List.range (spec.way options.nested).length).map
      (fun index => (spec.way options.nested).take (index + 1))).Nodup := by
    refine List.nodup_range.map_on ?_
    intro index inside other insideToo same
    have lengths := congrArg List.length same
    rw [List.length_take, List.length_take] at lengths
    rw [List.mem_range] at inside insideToo
    omega
  have minted : ∀ labels ∈ (List.range (spec.way options.nested).length).map
      (fun index => (spec.way options.nested).take (index + 1)), IsGrouped options specs labels ∧
        ∀ segment, segmentOf? options.nested specs labels = some segment → segment.id = none := by
    intro labels listed
    obtain ⟨index, inside, rfl⟩ := List.mem_map.mp listed
    have further := List.take_succ_eq_append_getElem (List.mem_range.mp inside)
    constructor
    · refine isGrouped_of_single single given (List.take_prefix _ _) ?_
      rw [further]
      exact List.append_ne_nil_of_right_ne_nil _ (List.cons_ne_nil _ _)
    · intro segment found
      rw [further] at found
      obtain ⟨first, firstGiven, here⟩ := exists_spec_of_segmentOf? found
      exact nameless first firstGiven segment (List.mem_of_getElem? here)
  simpa using length_le_countP_isMinted distinct minted

/-- A build that succeeds has had enough numbers. -/
theorem mintSuffices_of_buildHierarchy {built : BuiltTree} {further : Mint}
    (succeeded : buildHierarchy specs options mint = .ok (built, further)) :
    options.MintSuffices specs := by
  rw [buildHierarchy_eq] at succeeded
  split at succeeded
  · cases succeeded
  · obtain ⟨construction, ran, _⟩ := Outcome.bind_eq_ok_iff.mp succeeded
    exact Nat.le_trans (Construction.countP_isMinted_lt ran)
      (NodeId.countP_isMintedGroup_le construction.tree.distinct)

/-- Where given identifiers do not clash, a build with distinct names succeeds exactly when the mint
suffices. -/
theorem buildHierarchy_succeeds_iff (distinct : (specs.map LeafSpec.name).Nodup)
    (identified : Identified (planOf options.nested options.ungroupSingle specs)) :
    (∃ built further, buildHierarchy specs options Mint.fresh = .ok (built, further)) ↔
      options.MintSuffices specs := by
  constructor
  · rintro ⟨built, further, succeeded⟩
    exact mintSuffices_of_buildHierarchy succeeded
  · exact exists_buildHierarchy distinct identified

end DependencyDiagram

import DependencyDiagram.Proofs.Grouping.Placement

/-!
# Builds that succeed

A build fails for a repeated name, or when a node is to be added whose identifier the tree has
already. The identifiers of nodes are given by the leaves and by the segments of their paths, or
they are minted. Given identifiers do not clash when no two leaves have one and a segment's says at
which place it stands. Minted ones do not clash as long as the mint does not run out. So what was
built for some leaves can be built for any part of them, for fewer leaves make no further group.
-/

namespace DependencyDiagram

open DependencyDiagram.Tree

namespace PlanEntry

/-- The identifier that is given for the node of an entry, if one is. -/
def given? : PlanEntry → Option NodeId
  | group _ segment => segment.id
  | leaf _ spec => some spec.id

/-- The node of an entry is identified by the mint. -/
def isMinted (entry : PlanEntry) : Bool := entry.given?.isNone

end PlanEntry

/-- The identifiers that are given for the nodes of entries never clash, neither with each other nor with
minted ones. Minted identifiers are all artificial and given ones never are, so a clash can only be one
between two that are given or between two that are minted. The first is excluded here and the second by a
mint that suffices. -/
structure Identified (entries : List PlanEntry) : Prop where
  distinct : (entries.filterMap PlanEntry.given?).Nodup
  own : ∀ id ∈ entries.filterMap PlanEntry.given?, id.isArtificial = false

/-- What holds of all entries holds of the first of them. -/
theorem Identified.of_append {first second : List PlanEntry}
    (identified : Identified (first ++ second)) : Identified first := by
  obtain ⟨distinct, own⟩ := identified
  rw [List.filterMap_append] at distinct own
  exact ⟨(List.nodup_append.mp distinct).1, fun id listed => own id (List.mem_append_left _ listed)⟩

namespace Construction

variable {construction : Construction} {entry : PlanEntry} {done : List PlanEntry}

/-- The identifier of the node of an entry, and the mint behind it. It is the one place where the mint
advances, and groups advance it only where their segment gives no identifier. -/
def identifierOf (mint : Mint) (entry : PlanEntry) : NodeId × Mint :=
  match entry.given? with
  | some id => (id, mint)
  | none => mint.group

/-- What carrying out an entry comes to. -/
theorem perform_eq (construction : Construction) (entry : PlanEntry) :
    construction.perform entry =
      (construction.tree.attach (construction.placeOf entry.around)
        (identifierOf construction.mint entry).1 entry.label entry.kind).map (fun tree =>
          { tree := tree
            places := (entry.opens?.map (fun labels => (labels, construction.tree.size))).toList ++
              construction.places
            leafs := entry.enter construction.leafs construction.tree.size
            mint := (identifierOf construction.mint entry).2 }) := by
  cases entry <;> rfl

/-- A construction has used no identifier but those given for the entries it has carried out and the
minted ones up to the present number, which is the next one unless the mint has run out. Its places are
groups. Under this condition the next entry can be carried out: its identifier is not in use, and what it
goes into can take children. The number the mint is at is known exactly, as long as it can still count. -/
structure Ready (construction : Construction) (done : List PlanEntry) : Prop where
  used : ∀ id ∈ construction.tree.nodes.map TreeNode.id, id ∈ done.filterMap PlanEntry.given? ∨
    ∃ key : Token, id = .artificial .group key ∧ key.value ≤ done.countP PlanEntry.isMinted + 1
  next : done.countP PlanEntry.isMinted + 2 ≤ Text.maxWord32 →
    construction.mint.next.value = done.countP PlanEntry.isMinted + 2
  places : ∀ place ∈ construction.places, construction.tree.HasGroupAt place.2

/-- A construction that has begun has used the first minted identifier. -/
theorem ready_begin : (begin Mint.fresh).Ready [] where
  used := by
    intro id listed
    exact Or.inr ⟨Token.one, List.mem_singleton.mp listed, Nat.le_refl _⟩
  next := fun _ => rfl
  places := by
    intro place listed
    rw [List.mem_singleton.mp listed]
    exact ⟨_, rfl, rfl⟩

/-- A node can be attached below a group when its identifier is not in the tree. -/
theorem exists_attach {tree : Tree} {parent : Nat} {id : NodeId} (label : String) (kind : NodeKind)
    (group : tree.HasGroupAt parent) (fresh : id ∉ tree.nodes.map TreeNode.id) :
    ∃ grown, tree.attach parent id label kind = .ok grown := by
  obtain ⟨above, present, isGroup⟩ := group
  unfold attach
  rw [dif_neg fresh]
  split
  · rename_i missing
    cases missing.symm.trans present
  · rename_i other found
    obtain rfl : other = above := Option.some.inj (found.symm.trans present)
    rw [dif_pos isGroup]
    exact ⟨_, rfl⟩

/-- The groups of a tree stay groups when it grows. -/
theorem hasGroupAt_of_attach {tree grown : Tree} {parent position : Nat} {id : NodeId} {label : String}
    {kind : NodeKind} (attached : tree.attach parent id label kind = .ok grown)
    (group : tree.HasGroupAt position) : grown.HasGroupAt position := by
  obtain ⟨node, present, isGroup⟩ := group
  exact ⟨node, (node?_of_attach attached (lt_size_of_node? present)).trans present, isGroup⟩

namespace Ready

/-- Whatever an entry goes to is a group. -/
theorem hasGroupAt_placeOf (ready : construction.Ready done) (labels : List String) :
    construction.tree.HasGroupAt (construction.placeOf labels) := by
  rw [placeOf]
  split
  · rename_i place found
    exact ready.places place (List.mem_of_find?_eq_some found)
  · exact exists_root construction.tree

/-- The identifier of a further entry is not in the tree. An identifier of the plan's own differs from
those of all entries before it, because the plan is identified, and from minted ones by its kind; a
minted one is larger than all that were minted before, as long as the mint has numbers left. -/
theorem identifierOf_fresh (ready : construction.Ready done) (identified : Identified (done ++ [entry]))
    (room : (done ++ [entry]).countP PlanEntry.isMinted + 1 ≤ Text.maxWord32) :
    (identifierOf construction.mint entry).1 ∉ construction.tree.nodes.map TreeNode.id := by
  have own := identified.own
  have distinct := identified.distinct
  rw [List.filterMap_append] at own distinct
  rw [identifierOf]
  cases given : entry.given? with
  | some id =>
    intro listed
    rcases ready.used id listed with before | ⟨key, rfl, _⟩
    · exact (List.nodup_append.mp distinct).2.2 id before id (by simp [given]) rfl
    · have natural := own (.artificial .group key) (List.mem_append_right _ (by simp [given]))
      cases natural
  | none =>
    have minted : entry.isMinted = true := by rw [PlanEntry.isMinted, given]; rfl
    rw [List.countP_append, List.countP_singleton, if_pos minted] at room
    intro listed
    rcases ready.used _ listed with before | ⟨key, same, low⟩
    · have natural := own (.artificial .group construction.mint.next) (List.mem_append_left _ before)
      cases natural
    · have next := ready.next room
      have number : construction.mint.next = key := (NodeId.artificial.inj same).2
      rw [number] at next
      omega

/-- What carrying out a further entry leaves behind. The three parts of being ready are kept one by one:
which identifiers are used, how far the mint has come, and that every place that was opened has a group. -/
theorem of_perform {next : Construction} (ready : construction.Ready done)
    (performed : construction.perform entry = .ok next) : next.Ready (done ++ [entry]) := by
  rw [perform_eq] at performed
  obtain ⟨grown, attached, rfl⟩ := Outcome.map_eq_ok_iff.mp performed
  have counted := ready.next
  refine ⟨?_, ?_, ?_⟩
  -- What is used after the entry was used before it or is the identifier of the new node.
  · intro id listed
    rw [nodes_of_attach attached, List.map_append, List.mem_append] at listed
    rw [List.filterMap_append, List.mem_append, List.countP_append]
    rcases listed with old | new
    · rcases ready.used id old with before | ⟨key, same, low⟩
      · exact Or.inl (Or.inl before)
      · exact Or.inr ⟨key, same, by omega⟩
    · obtain rfl := List.mem_singleton.mp new
      cases given : entry.given? with
      | some own => exact Or.inl (Or.inr (by simp [identifierOf, given]))
      | none =>
        have minted : entry.isMinted = true := by rw [PlanEntry.isMinted, given]; rfl
        refine Or.inr ⟨construction.mint.next, by rw [identifierOf, given]; rfl, ?_⟩
        have bounded := construction.mint.next.bounded
        rw [List.countP_singleton, if_pos minted]
        omega
  -- The mint moves on for a minted identifier alone, and only while it can.
  · rw [List.countP_append, List.countP_singleton, identifierOf]
    cases given : entry.given? with
    | some own =>
      have natural : entry.isMinted = false := by rw [PlanEntry.isMinted, given]; rfl
      simpa [natural] using counted
    | none =>
      have minted : entry.isMinted = true := by rw [PlanEntry.isMinted, given]; rfl
      rw [if_pos minted]
      intro room
      have present := counted (by omega)
      change construction.mint.next.next.value = _
      rw [Token.next, dif_pos (by omega)]
      exact congrArg (· + 1) present
  · intro place listed
    rcases List.mem_append.mp listed with new | old
    · obtain ⟨labels, opened, rfl⟩ := Option.map_eq_some_iff.mp (Option.mem_toList.mp new)
      refine ⟨_, node?_size_of_attach attached, ?_⟩
      cases entry with
      | group around segment => rfl
      | leaf around spec => cases opened
    · exact hasGroupAt_of_attach attached (ready.places place old)

/-- A further entry can be carried out. -/
theorem exists_perform (ready : construction.Ready done) (identified : Identified (done ++ [entry]))
    (room : (done ++ [entry]).countP PlanEntry.isMinted + 1 ≤ Text.maxWord32) :
    ∃ next, construction.perform entry = .ok next ∧ next.Ready (done ++ [entry]) := by
  obtain ⟨grown, attached⟩ := exists_attach entry.label entry.kind (ready.hasGroupAt_placeOf entry.around)
    (ready.identifierOf_fresh identified room)
  have performed := perform_eq construction entry
  rw [attached] at performed
  exact ⟨_, performed, ready.of_perform performed⟩

end Ready

end Construction

/-- Among distinct names no first repetition is found. -/
theorem firstRepeated?_eq_none {seen names : List String} (distinct : names.Nodup)
    (apart : ∀ name ∈ names, name ∉ seen) : firstRepeated? seen names = none := by
  induction names generalizing seen with
  | nil => rfl
  | cons name rest inductionHypothesis =>
    obtain ⟨new, further⟩ := List.nodup_cons.mp distinct
    rw [firstRepeated?, if_neg (apart name List.mem_cons_self)]
    refine inductionHypothesis further (fun other listed seenBefore => ?_)
    rcases List.mem_cons.mp seenBefore with rfl | before
    · exact new listed
    · exact apart other (List.mem_cons_of_mem name listed) before

/-- A hierarchy can be built when names are distinct, given identifiers do not clash, and the mint
does not run out. -/
theorem exists_buildHierarchy {specs : List LeafSpec} {options : HierarchyOptions}
    (names : (specs.map LeafSpec.name).Nodup)
    (identified : Identified (planOf options.nested options.ungroupSingle specs))
    (room : (planOf options.nested options.ungroupSingle specs).countP PlanEntry.isMinted + 1 ≤
      Text.maxWord32) :
    ∃ built further, buildHierarchy specs options Mint.fresh = .ok (built, further) := by
  obtain ⟨last, ran⟩ : ∃ last, (planOf options.nested options.ungroupSingle specs).foldlM
      Construction.perform (Construction.begin Mint.fresh) = .ok last := by
    refine Outcome.foldlM_succeeds (fun done state => state.Ready done) ?_ Construction.ready_begin
    intro done entry rest state whole ready
    rw [whole, List.append_cons] at identified room
    refine ready.exists_perform identified.of_append ?_
    rw [List.countP_append] at room
    omega
  rw [buildHierarchy_eq, firstRepeated?_eq_none names (fun _ _ => List.not_mem_nil)]
  dsimp only
  rw [ran]
  exact ⟨_, _, rfl⟩

/-- The identifiers that leaves and the segments of their paths give never clash. Nothing is assumed of
labels, and two leaves may share as much of their paths as they like. A group that several leaves share
has one identifier because they are led to one place by it, which is what the second condition is about. -/
structure IdentifiersApart (specs : List LeafSpec) : Prop where
  leaves : (specs.map LeafSpec.id).Nodup
  /-- The identifier of a segment says to which place a path leads with it. -/
  places : ∀ first ∈ specs, ∀ second ∈ specs, ∀ (index other : Nat) (segment further : Segment)
    (own : NodeId), first.path[index]? = some segment → second.path[other]? = some further →
    segment.id = some own → further.id = some own →
    (first.path.map Segment.label).take (index + 1) = (second.path.map Segment.label).take (other + 1)
  apart : ∀ spec ∈ specs, ∀ other ∈ specs, ∀ segment ∈ other.path, segment.id ≠ some spec.id
  leafOwn : ∀ spec ∈ specs, spec.id.isArtificial = false
  segmentOwn : ∀ spec ∈ specs, ∀ segment ∈ spec.path, ∀ own, segment.id = some own →
    own.isArtificial = false

variable {options : HierarchyOptions} {specs fewer : List LeafSpec} {entry other : PlanEntry}
  {own : NodeId} {around labels : List String} {label : String} {segment : Segment}

/-- The segment of a place is one with which the path of some leaf leads to the place. -/
theorem exists_way_of_segmentOf? {nested : Bool}
    (found : segmentOf? nested specs (around ++ [label]) = some segment) :
    ∃ first ∈ specs, first.path[around.length]? = some segment ∧
      (first.path.map Segment.label).take (around.length + 1) = around ++ [label] := by
  obtain ⟨first, runs, here⟩ := Option.bind_eq_some_iff.mp found
  obtain ⟨given, begins⟩ := mem_through.mp (List.mem_of_head? runs)
  rw [List.length_append, List.length_singleton, Nat.add_sub_cancel] at here
  have used : cutPath nested first.path <+: first.path := by
    rw [cutPath]
    split
    · exact List.prefix_rfl
    · exact List.take_prefix 1 first.path
  refine ⟨first, given, getElem?_of_cutPath here, ?_⟩
  have whole := List.prefix_iff_eq_take.mp (begins.trans (used.map Segment.label))
  rw [List.length_append, List.length_singleton] at whole
  exact whole.symm

namespace IdentifiersApart

/-- An identifier is given for at most one entry of a plan. Two groups with one identifier are at one
place, two leaves with one are the same leaf, and a group never has that of a leaf. -/
theorem entry_unique (apart : IdentifiersApart specs)
    (here : entry ∈ planOf options.nested options.ungroupSingle specs)
    (there : other ∈ planOf options.nested options.ungroupSingle specs)
    (given : entry.given? = some own) (also : other.given? = some own) : entry = other := by
  cases entry with
  | group around segment =>
    obtain ⟨_, found⟩ := group_mem_planOf_iff.mp here
    obtain ⟨first, firstGiven, onPath, way⟩ := exists_way_of_segmentOf? found
    cases other with
    | group outer further =>
      obtain ⟨_, foundToo⟩ := group_mem_planOf_iff.mp there
      obtain ⟨second, secondGiven, onPathToo, wayToo⟩ := exists_way_of_segmentOf? foundToo
      have same := apart.places first firstGiven second secondGiven _ _ _ _ own onPath onPathToo given also
      rw [way, wayToo] at same
      obtain ⟨rfl, _⟩ := List.append_singleton_inj.mp same
      rw [same, foundToo] at found
      rw [Option.some.inj found]
    | leaf outer spec =>
      obtain ⟨specGiven, _⟩ := leaf_mem_planOf_iff.mp there
      exact absurd (given.trans also.symm)
        (apart.apart spec specGiven first firstGiven segment (List.mem_of_getElem? onPath))
  | leaf around spec =>
    obtain ⟨specGiven, home⟩ := leaf_mem_planOf_iff.mp here
    cases other with
    | group outer further =>
      obtain ⟨_, found⟩ := group_mem_planOf_iff.mp there
      obtain ⟨first, firstGiven, onPath, _⟩ := exists_way_of_segmentOf? found
      exact absurd (also.trans given.symm)
        (apart.apart spec specGiven first firstGiven further (List.mem_of_getElem? onPath))
    | leaf outer further =>
      obtain ⟨furtherGiven, homeToo⟩ := leaf_mem_planOf_iff.mp there
      obtain rfl := List.inj_on_of_nodup_map apart.leaves specGiven furtherGiven
        (Option.some.inj (given.trans also.symm))
      rw [← home, ← homeToo]

/-- The identifiers that are given for the entries of a plan do not clash. -/
theorem identified_planOf (apart : IdentifiersApart specs) :
    Identified (planOf options.nested options.ungroupSingle specs) where
  distinct := by
    refine List.pairwise_filterMap.mpr ((nodup_planOf apart.leaves.of_map).imp_of_mem ?_)
    rintro entry other here there different id given further also rfl
    exact different (apart.entry_unique here there given also)
  own := by
    intro id listed
    obtain ⟨entry, planned, given⟩ := List.mem_filterMap.mp listed
    cases entry with
    | group around segment =>
      obtain ⟨first, firstGiven, onPath, _⟩ :=
        exists_way_of_segmentOf? (group_mem_planOf_iff.mp planned).2
      exact apart.segmentOwn first firstGiven segment (List.mem_of_getElem? onPath) id given
    | leaf around spec =>
      obtain rfl := Option.some.inj given
      exact apart.leafOwn spec (leaf_mem_planOf_iff.mp planned).1

/-- Identifiers that do not clash do so no more among fewer leaves. -/
theorem of_sublist (apart : IdentifiersApart specs) (part : fewer.Sublist specs) :
    IdentifiersApart fewer where
  leaves := apart.leaves.sublist (part.map LeafSpec.id)
  places := fun first here second there =>
    apart.places first (part.subset here) second (part.subset there)
  apart := fun spec here other there => apart.apart spec (part.subset here) other (part.subset there)
  leafOwn := fun spec here => apart.leafOwn spec (part.subset here)
  segmentOwn := fun spec here => apart.segmentOwn spec (part.subset here)

end IdentifiersApart

/-- The places that a plan opens are the groups. -/
theorem mem_opened : labels ∈ (planOf options.nested options.ungroupSingle specs).filterMap
    PlanEntry.opens? ↔ IsGrouped options specs labels := by
  rw [List.mem_filterMap]
  constructor
  · rintro ⟨entry, planned, opened⟩
    cases entry with
    | group around segment =>
      obtain rfl := Option.some.inj opened
      exact (group_mem_planOf_iff.mp planned).1
    | leaf around spec => cases opened
  · intro grouped
    obtain ⟨around, label, rfl⟩ := (List.eq_nil_or_concat' labels).resolve_left grouped.1
    obtain ⟨segment, found, rfl⟩ := exists_segmentOf? grouped
    exact ⟨.group around segment, group_mem_planOf_iff.mpr ⟨grouped, found⟩, rfl⟩

/-- No place is opened twice. -/
theorem nodup_opened (distinct : specs.Nodup) :
    ((planOf options.nested options.ungroupSingle specs).filterMap PlanEntry.opens?).Nodup := by
  refine List.pairwise_filterMap.mpr ((nodup_planOf distinct).imp_of_mem ?_)
  rintro entry other here there different labels opened further also rfl
  cases entry with
  | leaf around spec => cases opened
  | group around segment =>
    cases other with
    | leaf outer spec => cases also
    | group outer further =>
      have same := (Option.some.inj opened).trans (Option.some.inj also).symm
      obtain ⟨rfl, _⟩ := List.append_singleton_inj.mp same
      have found := (group_mem_planOf_iff.mp here).2
      rw [same, (group_mem_planOf_iff.mp there).2] at found
      exact different (by rw [Option.some.inj found])

/-- Fewer leaves make no further group. -/
theorem isGrouped_of_sublist (part : fewer.Sublist specs) (grouped : IsGrouped options fewer labels) :
    IsGrouped options specs labels :=
  ⟨grouped.1, Nat.le_trans grouped.2 (part.filter _).length_le⟩

/-- Only groups are identified by the mint. -/
theorem countP_isMinted_le (entries : List PlanEntry) :
    entries.countP PlanEntry.isMinted ≤ (entries.filterMap PlanEntry.opens?).length := by
  rw [List.length_filterMap_eq_countP]
  refine List.countP_mono_left (fun entry _ minted => ?_)
  cases entry with
  | group around segment => rfl
  | leaf around spec => cases minted

/-- A built tree has a node for every entry of the plan, and the root. -/
theorem size_of_buildHierarchy {mint further : Mint} {built : BuiltTree}
    (succeeded : buildHierarchy specs options mint = .ok (built, further)) :
    built.tree.size = (planOf options.nested options.ungroupSingle specs).length + 1 := by
  obtain ⟨_, construction, realized, rfl⟩ := exists_realizes_of_buildHierarchy succeeded
  exact realized.size

/-- If a hierarchy was built for some leaves whose identifiers do not clash, and its positions fit into
words, one can be built for any part of the leaves. -/
theorem exists_buildHierarchy_of_sublist {mint further : Mint} {built : BuiltTree}
    (succeeded : buildHierarchy specs options mint = .ok (built, further))
    (apart : IdentifiersApart specs) (part : fewer.Sublist specs)
    (counted : built.tree.FitsWord) :
    ∃ built further, buildHierarchy fewer options Mint.fresh = .ok (built, further) := by
  have names := (exists_realizes_of_buildHierarchy succeeded).1
  have fewerApart := apart.of_sublist part
  refine exists_buildHierarchy (names.sublist (part.map LeafSpec.name)) fewerApart.identified_planOf ?_
  have minted := countP_isMinted_le (planOf options.nested options.ungroupSingle fewer)
  have groups : ((planOf options.nested options.ungroupSingle fewer).filterMap
      PlanEntry.opens?).length ≤
        ((planOf options.nested options.ungroupSingle specs).filterMap PlanEntry.opens?).length :=
    (List.subperm_of_subset (nodup_opened fewerApart.leaves.of_map) (fun labels opened =>
      mem_opened.mpr (isGrouped_of_sublist part (mem_opened.mp opened)))).length_le
  rw [Tree.FitsWord, size_of_buildHierarchy succeeded] at counted
  -- where there is a leaf at all, it is an entry that opens no place
  cases specs with
  | nil =>
    obtain rfl := List.sublist_nil.mp part
    have none : planOf options.nested options.ungroupSingle [] = [] := rfl
    rw [none]
    decide
  | cons spec rest =>
    have leaf : PlanEntry.leaf _ spec ∈ planOf options.nested options.ungroupSingle (spec :: rest) :=
      leaf_mem_planOf_iff.mpr ⟨List.mem_cons_self, rfl⟩
    have fewerGroups := List.length_filterMap_lt_length_iff_exists.mpr
      ⟨_, leaf, (rfl : PlanEntry.opens? _ = none)⟩
    omega

end DependencyDiagram

import DependencyDiagram.Proofs.Grouping.Membership
import DependencyDiagram.Proofs.Source.Labels
import DependencyDiagram.Proofs.Source.Leaves

/-!
# Examined assemblies and buckets

The references view puts an assembly that was examined below the prefixes of its name and any other one
into one of two buckets. Groups are merged by their labels alone, so a bucket and the group for a prefix
are one where the prefix reads like the bucket's label; then examined assemblies stand beside others. No
other group is mixed, and none is where no examined assembly's name begins with the label of a bucket
that is used and a dot.

The condition is about names alone and can be checked before anything is built. It is met by almost all
data, since a name that begins with one of the two labels is unusual.
-/

namespace DependencyDiagram

variable {name label : String}

/-- A name begins with a label and a dot. -/
theorem beginsWith_dot_iff :
    Text.beginsWith (label ++ ".") name = true ↔ Extends '.' label name := by
  rw [Text.beginsWith, List.isPrefixOf_iff_prefix, String.toList_append]
  constructor
  · rintro ⟨rest, whole⟩
    exact ⟨rest, by simpa using whole.symm⟩
  · rintro ⟨rest, whole⟩
    exact ⟨rest, by simp [whole]⟩

/-- The label of a bucket does not go on behind any other label. -/
theorem not_extends_bucket {bucket : MetaBucket} {shorter : String} (given : shorter ≠ "") :
    ¬ Extends '.' shorter bucket.label := by
  rintro ⟨rest, whole⟩
  have single : '.' ∉ bucket.label.toList.tail := by cases bucket <;> decide
  cases characters : shorter.toList with
  | nil => exact given (by simpa using characters)
  | cons first others =>
    apply single
    rw [whole, characters]
    simp

/-- The first prefix of a name is the label of a bucket exactly when the name begins with that and a
dot. -/
theorem head?_qualifyingPrefixes_iff {bucket : MetaBucket} :
    (qualifyingPrefixes '.' name).head? = some bucket.label ↔
      Text.beginsWith (bucket.label ++ ".") name = true := by
  rw [beginsWith_dot_iff]
  constructor
  · intro first
    exact extends_of_mem (List.mem_of_head? first)
  · intro begins
    have listed : bucket.label ∈ qualifyingPrefixes '.' name := by
      refine mem_qualifyingPrefixes_iff.mpr ⟨?_, ?_, begins⟩ <;> cases bucket <;> decide
    cases prefixes : qualifyingPrefixes '.' name with
    | nil =>
      rw [prefixes] at listed
      cases listed
    | cons first rest =>
      rw [prefixes] at listed
      rcases List.mem_cons.mp listed with same | later
      · rw [same]
        rfl
      · have onward := qualifyingPrefixes_onward '.' name
        rw [prefixes] at onward
        have given : first ∈ qualifyingPrefixes '.' name := prefixes ▸ List.mem_cons_self
        exact absurd ((List.pairwise_cons.mp onward).1 bucket.label later)
          (not_extends_bucket (mem_qualifyingPrefixes_iff.mp given).1)

/-- A way begins with the label of the outermost group of the path. -/
theorem LeafSpec.begins_way_iff {nested : Bool} {spec : LeafSpec} :
    [label] <+: spec.way nested ↔ (spec.path.map Segment.label).head? = some label := by
  have outermost : (spec.way nested).head? = (spec.path.map Segment.label).head? := by
    rw [LeafSpec.way, cutPath]
    split <;> cases spec.path <;> rfl
  rw [← outermost]
  cases spec.way nested <;> simp [eq_comm]

/-- The leaf of an assembly lies at or below a position. The assembly is known by its name, from which
the identifier of its leaf is made. -/
def Tree.HoldsAssembly (tree : Tree) (position : Nat) (name : String) : Prop :=
  ∃ lower node, tree.AtOrAbove position lower ∧ tree.node? lower = some node ∧ node.isLeaf = true ∧
    NodeId.ofName .assembly name = .ok node.id

/-- The assemblies below a position were all examined, or none of them was. A group without leaves would
be both. There are none in a tree that was built. -/
def Tree.IsUniform (tree : Tree) (document : Reflection) (position : Nat) : Prop :=
  (∀ name, tree.HoldsAssembly position name → name ∈ document.assemblies.keys) ∨
    ∀ name, tree.HoldsAssembly position name → name ∉ document.assemblies.keys

/-- Below a position that is not uniform stands an examined assembly beside another. -/
theorem Tree.exists_of_not_isUniform {tree : Tree} {document : Reflection} {position : Nat}
    (mixed : ¬ tree.IsUniform document position) :
    ∃ examined other, tree.HoldsAssembly position examined ∧ examined ∈ document.assemblies.keys ∧
      tree.HoldsAssembly position other ∧ other ∉ document.assemblies.keys := by
  rw [IsUniform, not_or] at mixed
  obtain ⟨notAll, notNone⟩ := mixed
  simp only [not_forall, not_not, exists_prop] at notAll notNone
  obtain ⟨other, holdsToo, unknown⟩ := notAll
  obtain ⟨examined, holds, known⟩ := notNone
  exact ⟨examined, other, holds, known, holdsToo, unknown⟩

/-- No examined assembly has a name that begins with the label of a bucket in use and a dot, where
executables, which are in no group, are left aside. A bucket is in use only where some assembly that was
not examined belongs to it, so a document without such assemblies satisfies this whatever its names are. -/
def Reflection.BucketsApart (document : Reflection) : Prop :=
  ∀ examined ∈ document.assemblies.keys, examined ∉ document.executables →
    ∀ other ∈ Source.assemblyNames document, other ∉ document.executables →
      other ∉ document.assemblies.keys →
      Text.beginsWith ((MetaBucket.ofName other).label ++ ".") examined = false

instance (document : Reflection) : Decidable document.BucketsApart :=
  inferInstanceAs (Decidable (∀ examined ∈ document.assemblies.keys, _ → ∀ other ∈ _, _))

namespace Source

variable {document : Reflection} {executables : List String} {spec : LeafSpec} {nested : Bool}

/-- The only group around an assembly that was not examined is its bucket. -/
theorem begins_way_of_unexamined
    (made : leafFromName executables .assembly (.byAssembly document.assemblies.keys) name = .ok spec)
    (unknown : name ∉ document.assemblies.keys) {labels : List String} (given : labels ≠ []) :
    labels <+: spec.way nested ↔ name ∉ executables ∧ labels = [(MetaBucket.ofName name).label] := by
  rcases path_of_assembly made with ⟨own, path⟩ | ⟨known, _, _⟩ | ⟨_, other, path⟩
  · have way : spec.way nested = [] := by simp [LeafSpec.way, cutPath, path]
    rw [way, List.prefix_nil]
    exact ⟨fun none => absurd none given, fun found => absurd own found.1⟩
  · exact absurd known unknown
  · have way : spec.way nested = [(MetaBucket.ofName name).label] := by
      simp [LeafSpec.way, cutPath, path, Segment.bucket]
    simp [way, List.prefix_cons_iff, given, other]

/-- The outermost group around an examined assembly has the label of a bucket exactly when the name of
the assembly begins with that and a dot. -/
theorem begins_way_of_examined
    (made : leafFromName executables .assembly (.byAssembly document.assemblies.keys) name = .ok spec)
    (known : name ∈ document.assemblies.keys) {bucket : MetaBucket} :
    [bucket.label] <+: spec.way nested ↔
      name ∉ executables ∧ Text.beginsWith (bucket.label ++ ".") name = true := by
  rw [LeafSpec.begins_way_iff]
  rcases path_of_assembly made with ⟨own, path⟩ | ⟨_, other, path⟩ | ⟨unknown, _, _⟩
  · rw [path]
    exact ⟨nofun, fun found => absurd own found.1⟩
  · have labels : (Clustering.prefixPath '.' name).map Segment.label = qualifyingPrefixes '.' name := by
      simp [Clustering.prefixPath, Function.comp_def, Segment.prefixed]
    rw [path, labels, head?_qualifyingPrefixes_iff]
    exact (and_iff_right other).symm
  · exact absurd known unknown

variable {data : ViewData} {options : HierarchyOptions} {source : GraphSource} {group : Nat}

/-- The assemblies below a group are those with ways that run through the place of the group. Names and
leaves correspond to each other one by one, because names identify assemblies, and whether a leaf lies
below a group depends on the leaf's way alone. -/
theorem holdsAssembly_iff (built : buildSource .references data options = .ok source)
    (isGroup : source.built.tree.HasGroupAt group) :
    source.built.tree.HoldsAssembly group name ↔ ∃ spec, name ∈ assemblyNames data.reflection ∧
      leafFromName data.reflection.executables .assembly (.byAssembly data.reflection.assemblies.keys)
        name = .ok spec ∧
      source.built.tree.labelPath group <+: spec.way options.nested := by
  obtain ⟨specs, further, made, planted⟩ := exists_hierarchy_of_buildSource built
  obtain ⟨distinct, construction, realized, same⟩ := exists_realizes_of_buildHierarchy planted
  rw [same] at isGroup ⊢
  have each := Outcome.mapM_eq_ok_iff.mp made
  constructor
  · rintro ⟨lower, node, above, present, leaf, named⟩
    obtain ⟨spec, given, found⟩ := realized.exists_spec_of_leaf distinct present leaf
    obtain ⟨parent, here, _⟩ := realized.exists_home distinct given found
    obtain rfl := Option.some.inj (here.symm.trans present)
    obtain ⟨other, listed, leafOf⟩ := Outcome.exists_of_mem_right each given
    obtain rfl : other = name := NodeId.ofName_injective (id_of_leafFromName leafOf) named
    exact ⟨spec, listed, leafOf, (realized.atOrAbove_leaf_iff distinct isGroup given found).mp above⟩
  · rintro ⟨spec, listed, leafOf, begins⟩
    obtain ⟨other, given, leafToo⟩ := Outcome.exists_of_mem_left each listed
    obtain rfl := Except.ok.inj (leafOf.symm.trans leafToo)
    obtain ⟨position, parent, found, here, _⟩ := realized.leaf_at_home distinct given
    exact ⟨position, _, (realized.atOrAbove_leaf_iff distinct isGroup given found).mpr begins, here, rfl,
      id_of_leafFromName leafOf⟩

variable {examined other : String}

/-- A group below which an examined assembly stands beside another is the bucket of the other one, and
the name of the examined one begins with the label of the bucket. -/
theorem of_mixed (built : buildSource .references data options = .ok source)
    (isGroup : source.built.tree.HasGroupAt group) (below : group ≠ Tree.root)
    (known : examined ∈ data.reflection.assemblies.keys)
    (unknown : other ∉ data.reflection.assemblies.keys)
    (holds : source.built.tree.HoldsAssembly group examined)
    (holdsToo : source.built.tree.HoldsAssembly group other) :
    source.built.tree.labelPath group = [(MetaBucket.ofName other).label] ∧
      examined ∉ data.reflection.executables ∧ other ∈ assemblyNames data.reflection ∧
      other ∉ data.reflection.executables ∧
      Text.beginsWith ((MetaBucket.ofName other).label ++ ".") examined = true := by
  have ⟨node, present, _⟩ := isGroup
  have inner := Tree.labelPath_ne_nil (Tree.lt_size_of_node? present) below
  obtain ⟨first, _, firstMade, firstBegins⟩ := (holdsAssembly_iff built isGroup).mp holds
  obtain ⟨second, listed, secondMade, secondBegins⟩ := (holdsAssembly_iff built isGroup).mp holdsToo
  obtain ⟨otherOwn, place⟩ := (begins_way_of_unexamined secondMade unknown inner).mp secondBegins
  rw [place] at firstBegins
  obtain ⟨own, begins⟩ := (begins_way_of_examined firstMade known).mp firstBegins
  exact ⟨place, own, listed, otherOwn, begins⟩

/-- Every examined assembly is mentioned. -/
theorem mem_assemblyNames_of_examined {document : Reflection}
    (known : examined ∈ document.assemblies.keys) : examined ∈ assemblyNames document := by
  obtain ⟨entry, listed, rfl⟩ := List.mem_map.mp known
  rw [assemblyNames, mem_ascendingMembers, List.mem_append, List.mem_flatMap]
  exact Or.inr ⟨entry, listed, List.mem_cons_self⟩

/-- An examined assembly with a name that begins with the label of a bucket stands below one group with
the assemblies of the bucket. The ways of both assemblies begin with the label of the bucket, one through
a prefix of its name and the other through the bucket. So two ways run through this place, and it has a
group. -/
theorem exists_mixed (built : buildSource .references data options = .ok source)
    (known : examined ∈ data.reflection.assemblies.keys)
    (own : examined ∉ data.reflection.executables)
    (listed : other ∈ assemblyNames data.reflection) (otherOwn : other ∉ data.reflection.executables)
    (unknown : other ∉ data.reflection.assemblies.keys)
    (begins : Text.beginsWith ((MetaBucket.ofName other).label ++ ".") examined = true) :
    ∃ group, source.built.tree.HasGroupAt group ∧ group ≠ Tree.root ∧
      source.built.tree.HoldsAssembly group examined ∧
      source.built.tree.HoldsAssembly group other := by
  obtain ⟨specs, further, made, planted⟩ := exists_hierarchy_of_buildSource built
  obtain ⟨distinct, construction, realized, same⟩ := exists_realizes_of_buildHierarchy planted
  have each := Outcome.mapM_eq_ok_iff.mp made
  have knownListed := mem_assemblyNames_of_examined known
  obtain ⟨first, firstGiven, firstMade⟩ := Outcome.exists_of_mem_left each knownListed
  obtain ⟨second, secondGiven, secondMade⟩ := Outcome.exists_of_mem_left each listed
  have place : [(MetaBucket.ofName other).label] ≠ [] := List.cons_ne_nil _ _
  have firstBegins : [(MetaBucket.ofName other).label] <+: first.way options.nested :=
    (begins_way_of_examined firstMade known).mpr ⟨own, begins⟩
  have secondBegins : [(MetaBucket.ofName other).label] <+: second.way options.nested :=
    (begins_way_of_unexamined secondMade unknown place).mpr ⟨otherOwn, rfl⟩
  have apart : first ≠ second := by
    rintro rfl
    exact unknown (NodeId.ofName_injective (id_of_leafFromName firstMade)
      (id_of_leafFromName secondMade) ▸ known)
  obtain ⟨group, node, segment, present, path, _, kind, _⟩ := realized.exists_group
    (isGrouped_of_two (mem_through.mpr ⟨firstGiven, firstBegins⟩)
      (mem_through.mpr ⟨secondGiven, secondBegins⟩) apart place)
  have isGroup : source.built.tree.HasGroupAt group := by
    rw [same]
    exact ⟨node, present, by rw [TreeNode.isLeaf, kind]; rfl⟩
  have labels : source.built.tree.labelPath group = [(MetaBucket.ofName other).label] := by
    rw [same]
    exact path
  refine ⟨group, isGroup, ?_, ?_, ?_⟩
  · rintro rfl
    exact place (labels.symm.trans (Tree.labelPath_root _))
  · exact (holdsAssembly_iff built isGroup).mpr ⟨first, knownListed, firstMade, labels ▸ firstBegins⟩
  · exact (holdsAssembly_iff built isGroup).mpr ⟨second, listed, secondMade, labels ▸ secondBegins⟩

end Source

/-- The groups of the references view hold either examined assemblies only or others only, exactly when
no examined assembly's name begins with the label of a bucket in use and a dot. In any case only a group
with the label of a bucket right below the root can hold both. -/
theorem groups_uniform_exact {data : ViewData} {options : HierarchyOptions} {source : GraphSource}
    (built : buildSource .references data options = .ok source) :
    ((∀ group, source.built.tree.HasGroupAt group → group ≠ Tree.root →
        source.built.tree.IsUniform data.reflection group) ↔ data.reflection.BucketsApart) ∧
      ∀ group, source.built.tree.HasGroupAt group → group ≠ Tree.root →
        ¬ source.built.tree.IsUniform data.reflection group →
        ∃ bucket : MetaBucket, source.built.tree.labelPath group = [bucket.label] := by
  refine ⟨⟨fun uniform => ?_, fun apart group isGroup below => ?_⟩, fun group isGroup below mixed => ?_⟩
  · intro examined known own other listed otherOwn unknown
    rw [← Bool.not_eq_true]
    intro begins
    obtain ⟨group, isGroup, below, holds, holdsToo⟩ :=
      Source.exists_mixed built known own listed otherOwn unknown begins
    rcases uniform group isGroup below with all | none
    · exact unknown (all other holdsToo)
    · exact none examined holds known
  · by_contra mixed
    obtain ⟨examined, other, holds, known, holdsToo, unknown⟩ := Tree.exists_of_not_isUniform mixed
    obtain ⟨_, own, listed, otherOwn, begins⟩ :=
      Source.of_mixed built isGroup below known unknown holds holdsToo
    rw [apart examined known own other listed otherOwn unknown] at begins
    cases begins
  · obtain ⟨examined, other, holds, known, holdsToo, unknown⟩ := Tree.exists_of_not_isUniform mixed
    exact ⟨_, (Source.of_mixed built isGroup below known unknown holds holdsToo).1⟩

namespace Sample

/-- Examined assemblies with a common prefix, one of them an executable, and assemblies of both buckets
that were not examined. -/
def separateData : ViewData :=
  ⟨{ Reflection.empty with
      executables := ["3rd-party.Tool"]
      assemblies := .ofList [("3rd-party.Tool", ⟨["Core.Web", "Other"], []⟩),
        ("Core.Data", ⟨["System.Xml", "mscorlib"], []⟩), ("Core.Web", ⟨["Core.Data", "Vendor"], []⟩)] }, []⟩

/-- An examined assembly with a name that begins with the label of the bucket of the assembly that it
refers to. -/
def sharedData : ViewData :=
  ⟨{ Reflection.empty with assemblies := .ofList [(".NET.Tools", ⟨["System.Xml"], []⟩)] }, []⟩

end Sample

/-- The groups of the sample are uniform, a group for a prefix and both buckets among them. -/
theorem separateData_uniform :
    ∃ source, buildSource .references Sample.separateData ⟨true, true⟩ = .ok source ∧
      source.built.groups.map source.built.tree.label =
        [".NET", "3rd-party", "Core", "3rd-party.Tool"] ∧
      ∀ group, source.built.tree.HasGroupAt group → group ≠ Tree.root →
        source.built.tree.IsUniform Sample.separateData.reflection group := by
  have computed : (buildSource .references Sample.separateData ⟨true, true⟩).toOption.map
      (fun source => source.built.groups.map source.built.tree.label) =
        some [".NET", "3rd-party", "Core", "3rd-party.Tool"] := by
    decide
  obtain ⟨source, found, labels⟩ := Option.map_eq_some_iff.mp computed
  have built := Outcome.toOption_eq_some_iff.mp found
  exact ⟨source, built, labels, (groups_uniform_exact built).1.mpr (by decide)⟩

/-- The other sample has a group that is not uniform: the bucket of the one assembly is the group for
the prefix of the other. -/
theorem sharedData_mixed :
    ¬ ∀ (data : ViewData) (options : HierarchyOptions) (source : GraphSource),
      buildSource .references data options = .ok source →
      ∀ group, source.built.tree.HasGroupAt group → group ≠ Tree.root →
        source.built.tree.IsUniform data.reflection group := by
  have computed : (buildSource .references Sample.sharedData ⟨true, true⟩).toOption.map
      (fun source => [1, 2, 3].map source.built.tree.node?) = some [
        some ⟨.artificial .group ⟨2, by decide, by decide⟩, ".NET", some 0, .group true⟩,
        some ⟨.named .assembly ⟨".NET.Tools", by decide, by decide⟩, ".NET.Tools", some 1, .leaf⟩,
        some ⟨.named .assembly ⟨"System.Xml", by decide, by decide⟩, "System.Xml", some 1, .leaf⟩] := by
    decide
  intro uniform
  obtain ⟨source, found, nodes⟩ := Option.map_eq_some_iff.mp computed
  obtain ⟨bucket, tools, framework⟩ : _ ∧ _ ∧ _ := by simpa using nodes
  have below (child : Nat) (node : TreeNode) (present : source.built.tree.node? child = some node)
      (named : node.parent = some 1) : source.built.tree.AtOrAbove 1 child := by
    refine Relation.ReflTransGen.single ?_
    rw [Tree.IsParent, Tree.parent?_of_node? present, named]
  rcases uniform _ _ source (Outcome.toOption_eq_some_iff.mp found) 1 ⟨_, bucket, rfl⟩ (by decide) with
    all | none
  · exact absurd (all "System.Xml" ⟨3, _, below 3 _ framework rfl, framework, rfl, rfl⟩) (by decide)
  · exact none ".NET.Tools" ⟨2, _, below 2 _ tools rfl, tools, rfl, rfl⟩ (by decide)

end DependencyDiagram

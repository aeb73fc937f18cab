import DependencyDiagram.Proofs.Grouping.Membership
import DependencyDiagram.Proofs.Source.Leaves
import DependencyDiagram.Proofs.Source.MethodLeaves

/-!
# Groups of declaring types

Where groups are nested and single leaves are grouped too, a method stands right below the group with
the full name of its type. But groups are merged by their labels, and a group takes its identifier from
the first method that runs through it. So the group is identified as the method's type exactly when that
first method is declared by the type as well. It may be declared by a type in a namespace that reads
like the type's full name, and then the group has no identifier but a minted one; or by another type
with the same full name, and then the group is identified as that.
-/

namespace DependencyDiagram

namespace Source

variable {document : Reflection} {kind : ViewKind} {method : MethodRef} {info : MethodInfo}
  {entry : MethodRef × MethodInfo} {spec : LeafSpec}

/-- The labels of the groups around the methods of a type, outermost first. The group of the type is the
last of them, with all prefixes of its namespace before it. -/
def wayTo (assembly : String) (declaring : TypeInfo) : List String :=
  assembly :: (namespacePath declaring).map Segment.label ++ [declaring.fullName]

/-- The labels of the groups around a method, where its type is known. A method whose type is not known
has no leaf, since making the leaf fails. -/
def wayAround (document : Reflection) (entry : MethodRef × MethodInfo) : List String :=
  match declaringType? document entry.1.assembly entry.2 with
  | some declaring => wayTo entry.1.assembly declaring
  | none => []

/-- The first listed method that runs through the group of a method's type is declared by the type.
Running through the group is meant by labels: the way around the other method begins with the way around
this one. It is the first method in the order of the list, which is that of the document. -/
def OpensTypeGroup (document : Reflection) (kind : ViewKind) (entry : MethodRef × MethodInfo) : Prop :=
  ((listedMethods document kind).find? (fun other =>
    decide (wayAround document entry <+: wayAround document other))).map
      (fun first => first.2.declaringType) = some entry.2.declaringType

instance (document : Reflection) (kind : ViewKind) (entry : MethodRef × MethodInfo) :
    Decidable (OpensTypeGroup document kind entry) :=
  inferInstanceAs (Decidable (_ = _))

/-- The labels on the path to a type's methods. -/
theorem map_label_pathTo (assembly : Name) (declaring : TypeInfo) (typeToken : Token) :
    (pathTo assembly declaring typeToken).map Segment.label = wayTo assembly.text declaring := by
  simp [pathTo, wayTo, Segment.withId, Segment.bucket, Segment.prefixed]

/-- A method's type has the token that the method states. -/
theorem token_of_declaringType? {assembly : String} {declaring : TypeInfo}
    (declared : declaringType? document assembly info = some declaring) :
    declaring.token = info.declaringType := by
  obtain ⟨found, _, typed⟩ := Option.bind_eq_some_iff.mp declared
  simpa using List.find?_some typed

/-- The way of a method's leaf, where groups are nested. -/
theorem way_of_methodLeaf (made : methodLeaf document entry.1 entry.2 = .ok spec) :
    spec.way true = wayAround document entry := by
  obtain ⟨declaring, assembly, typeToken, _, declared, named, _, _, path⟩ :=
    exists_parts_of_methodLeaf made
  rw [wayAround, declared, LeafSpec.way, cutPath, if_pos rfl, path, map_label_pathTo, named]

/-- A type is identified by its assembly and its token, which the method states. -/
theorem typeId_eq_ok_iff {assembly : Name} {typeToken : Token} {declaring : TypeInfo} {id : NodeId}
    (declared : declaringType? document method.assembly info = some declaring)
    (named : assembly.text = method.assembly) (typed : typeToken.value = declaring.token.toNat) :
    NodeId.ofMember .typeDefinition method.assembly info.declaringType.toNat = .ok id ↔
      id = .member .typeDefinition assembly typeToken := by
  rw [NodeId.ofMember_eq_ok_iff, ← token_of_declaringType? declared]
  constructor
  · rintro ⟨name, token, text, value, rfl⟩
    rw [Name.eq_of_text (text.trans named.symm), Token.eq_of_value (value.trans typed.symm)]
  · rintro rfl
    exact ⟨assembly, typeToken, named, typed, rfl⟩

/-- The group at the end of a method's way is identified as the method's type exactly when the method
that the group is made from is declared by the type. A segment at this place is identified as a type only
if it is the last of its path, and then as the type of the first method. -/
theorem identified_iff {first : LeafSpec} {other : MethodRef × MethodInfo} {segment : Segment}
    {mint : Mint} {id : NodeId} (made : methodLeaf document entry.1 entry.2 = .ok spec)
    (firstMade : methodLeaf document other.1 other.2 = .ok first)
    (begins : spec.way true <+: first.way true)
    (found : first.path[(spec.way true).length - 1]? = some segment) (names : segment.Names mint id) :
    NodeId.ofMember .typeDefinition entry.1.assembly entry.2.declaringType.toNat = .ok id ↔
      other.2.declaringType = entry.2.declaringType := by
  obtain ⟨declaring, assembly, typeToken, _, declared, named, typed, _, path⟩ :=
    exists_parts_of_methodLeaf made
  obtain ⟨otherDeclaring, otherAssembly, otherToken, _, declaredToo, namedToo, typedToo, _, otherPath⟩ :=
    exists_parts_of_methodLeaf firstMade
  rw [typeId_eq_ok_iff declared named typed]
  rw [LeafSpec.way, LeafSpec.way, cutPath, cutPath, if_pos rfl, if_pos rfl, path, otherPath,
    map_label_pathTo, map_label_pathTo] at begins
  have together : assembly = otherAssembly := Name.eq_of_text (List.cons_prefix_cons.mp begins).1
  subst together
  rw [← named] at declared
  rw [← namedToo] at declaredToo
  rw [← token_of_declaringType? declared, ← token_of_declaringType? declaredToo]
  constructor
  · rintro rfl
    cases own : segment.id with
    | none =>
      obtain ⟨_, minted, _⟩ := names.minted own
      cases minted
    | some given =>
      rw [otherPath] at found
      rcases given_of_pathTo found own with ⟨_, outermost⟩ | ⟨_, innermost⟩
      · cases (names.given given own).trans outermost
      · obtain ⟨_, _, rfl⟩ := NodeId.member.inj ((names.given given own).trans innermost)
        exact UInt32.toNat_inj.mp (typedToo.symm.trans typed)
  · intro same
    obtain rfl := declaringType?_unique declaredToo declared same
    obtain rfl := Token.eq_of_value (typedToo.trans typed.symm)
    have length : (spec.way true).length - 1 =
        ((Segment.bucket assembly.text).withId (.named .assembly assembly) ::
          namespacePath otherDeclaring).length := by
      simp [LeafSpec.way, cutPath, path, pathTo]
    rw [otherPath, pathTo, length, List.getElem?_concat_length] at found
    obtain rfl := Option.some.inj found
    exact names.given _ rfl

/-- The group at the end of a method's way is made from the first listed method that runs through it. -/
theorem exists_first_through {listed : List (MethodRef × MethodInfo)} {specs : List LeafSpec}
    {segment : Segment}
    (related : List.Forall₂ (fun entry spec => methodLeaf document entry.1 entry.2 = .ok spec) listed specs)
    (made : methodLeaf document entry.1 entry.2 = .ok spec)
    (found : segmentOf? true specs (spec.way true) = some segment) : ∃ other first,
      listed.find? (fun other => decide (wayAround document entry <+: wayAround document other)) =
        some other ∧
      methodLeaf document other.1 other.2 = .ok first ∧ spec.way true <+: first.way true ∧
      first.path[(spec.way true).length - 1]? = some segment := by
  obtain ⟨first, runs, here⟩ := Option.bind_eq_some_iff.mp found
  rw [through, List.head?_filter] at runs
  have agree (other : MethodRef × MethodInfo) (leaf : LeafSpec)
      (leafMade : methodLeaf document other.1 other.2 = .ok leaf) :
      decide (wayAround document entry <+: wayAround document other) =
        decide (spec.way true <+: leaf.way true) := by
    rw [way_of_methodLeaf made, way_of_methodLeaf leafMade]
  obtain ⟨other, otherFound, firstMade⟩ := Outcome.exists_find?_of_forall₂ related agree runs
  exact ⟨other, first, otherFound, firstMade, by simpa using List.find?_some runs, here⟩

/-- The way of a method's leaf is not empty. -/
theorem way_ne_nil (made : methodLeaf document entry.1 entry.2 = .ok spec) : spec.way true ≠ [] := by
  obtain ⟨declaring, assembly, typeToken, _, _, _, _, _, path⟩ := exists_parts_of_methodLeaf made
  rw [LeafSpec.way, cutPath, if_pos rfl, path, map_label_pathTo]
  exact List.cons_ne_nil _ _

/-- The leaves of a view of methods are those of its methods, one by one. -/
theorem forall₂_methodLeaf {data : ViewData} {specs : List LeafSpec}
    (ofMethods : kind = .methods ∨ kind = .apis) (made : leaves kind data = .ok specs) :
    List.Forall₂ (fun entry spec => methodLeaf data.reflection entry.1 entry.2 = .ok spec)
      (listedMethods data.reflection kind) specs := by
  rcases ofMethods with rfl | rfl <;> exact Outcome.mapM_eq_ok_iff.mp made

end Source

/-- The group right around a node is identified as the type that a method states. The type is identified
by the assembly and the token that the method states, so a type with the same full name in the same
assembly is told apart from it. -/
def GraphSource.StandsInTypeGroup (source : GraphSource) (entry : MethodRef × MethodInfo)
    (node : TreeNode) : Prop :=
  ∃ parent group, node.parent = some parent ∧ source.built.tree.node? parent = some group ∧
    NodeId.ofMember .typeDefinition entry.1.assembly entry.2.declaringType.toNat = .ok group.id

/-- In a view of methods with nested groups in which single leaves are grouped too, every leaf is that of
a listed method, and the group right around it is identified as the method's type exactly when the first
listed method that runs through the type's group is declared by the type. The condition looks at one list
of methods and at labels. It says which methods are affected when two groups with one label become one,
and it holds of every method of a type as soon as it holds of one of them. -/
theorem type_groups_exact {kind : ViewKind} {data : ViewData} {source : GraphSource}
    (ofMethods : kind = .methods ∨ kind = .apis)
    (built : buildSource kind data ⟨true, false⟩ = .ok source) :
    ∀ position node, source.built.tree.node? position = some node → node.isLeaf = true →
      ∃ entry ∈ Source.listedMethods data.reflection kind, Source.methodId entry.1 = .ok node.id ∧
        (source.StandsInTypeGroup entry node ↔ Source.OpensTypeGroup data.reflection kind entry) := by
  obtain ⟨specs, further, made, planted⟩ := Source.exists_hierarchy_of_buildSource built
  obtain ⟨distinct, construction, realized, same⟩ := exists_realizes_of_buildHierarchy planted
  have related := Source.forall₂_methodLeaf ofMethods made
  intro position node present leaf
  rw [same] at present
  obtain ⟨spec, given, found⟩ := realized.exists_spec_of_leaf distinct present leaf
  obtain ⟨parent, here, home⟩ := realized.exists_home distinct given found
  obtain rfl := Option.some.inj (here.symm.trans present)
  obtain ⟨entry, listed, entryMade⟩ := Outcome.exists_of_mem_right related given
  refine ⟨entry, listed, Source.id_of_methodLeaf entryMade, ?_⟩
  -- the group around the leaf is made from the first leaf that runs through the whole way
  rw [homeOf_of_single given rfl] at home
  have named : construction.tree.parent? position = some parent := Tree.parent?_of_node? here
  have below : parent ≠ Tree.root := by
    rintro rfl
    exact Source.way_ne_nil entryMade (home.symm.trans (Tree.labelPath_root _))
  obtain ⟨group, segment, groupHere, segmentHere, names⟩ :=
    realized.exists_segment_of_group (Tree.group_of_parent named) below
  rw [home] at segmentHere
  obtain ⟨other, first, otherFound, firstMade, begins, firstHere⟩ :=
    Source.exists_first_through related entryMade segmentHere
  have identified := Source.identified_iff entryMade firstMade begins firstHere names
  rw [Source.OpensTypeGroup, otherFound, Option.map_some, Option.some.injEq, ← identified]
  constructor
  · rintro ⟨upper, around, ownParent, aroundHere, ofType⟩
    obtain rfl := Option.some.inj ownParent
    rw [same] at aroundHere
    obtain rfl := Option.some.inj (groupHere.symm.trans aroundHere)
    exact ofType
  · intro ofType
    exact ⟨parent, group, rfl, by rw [same]; exact groupHere, ofType⟩

/-- A type and another one in a namespace that reads like the first. The methods "Open()" and "Close()"
are declared by the types with the given tokens. -/
def Sample.boxData (opening closing : UInt32) : ViewData :=
  ⟨{ Reflection.empty with
      assemblies := .ofList [("Lib", ⟨[], [⟨some "Lib", "Box", 1⟩, ⟨some "Lib.Box", "Lid", 2⟩]⟩)]
      methods := .ofList [("Lib", .ofList [(1, ⟨"Open()", opening, []⟩), (2, ⟨"Close()", closing, []⟩)])] },
    []⟩

/-- Where the method of the first type comes first, both methods stand in the groups of their types. -/
theorem boxData_grouped_by_type :
    ∃ source, buildSource .methods (Sample.boxData 1 2) ⟨true, false⟩ = .ok source ∧
      source.built.tree.leaves.map source.built.tree.label = ["Lib.Box.Lid.Close()", "Lib.Box.Open()"] ∧
      ∀ position node, source.built.tree.node? position = some node → node.isLeaf = true →
        ∃ entry ∈ Source.listedMethods (Sample.boxData 1 2).reflection .methods,
          Source.methodId entry.1 = .ok node.id ∧ source.StandsInTypeGroup entry node := by
  have computed : (buildSource .methods (Sample.boxData 1 2) ⟨true, false⟩).toOption.map
      (fun source => source.built.tree.leaves.map source.built.tree.label) =
        some ["Lib.Box.Lid.Close()", "Lib.Box.Open()"] := by
    decide
  have first : ∀ entry ∈ Source.listedMethods (Sample.boxData 1 2).reflection .methods,
      Source.OpensTypeGroup (Sample.boxData 1 2).reflection .methods entry := by
    decide
  obtain ⟨source, found, labels⟩ := Option.map_eq_some_iff.mp computed
  have built := Outcome.toOption_eq_some_iff.mp found
  refine ⟨source, built, labels, fun position node present leaf => ?_⟩
  obtain ⟨entry, listed, identified, grouped⟩ :=
    type_groups_exact (Or.inl rfl) built position node present leaf
  exact ⟨entry, listed, identified, grouped.mpr (first entry listed)⟩

/-- Where it comes second, it stands in the group of the namespace, which has a minted identifier. -/
theorem boxData_grouped_by_namespace :
    ¬ ∀ (kind : ViewKind) (data : ViewData) (source : GraphSource), kind = .methods ∨ kind = .apis →
      buildSource kind data ⟨true, false⟩ = .ok source →
      ∀ position node, source.built.tree.node? position = some node → node.isLeaf = true →
        ∃ entry ∈ Source.listedMethods data.reflection kind, Source.methodId entry.1 = .ok node.id ∧
          source.StandsInTypeGroup entry node := by
  have computed : (buildSource .methods (Sample.boxData 2 1) ⟨true, false⟩).toOption.map
      (fun source => [3, 6].map source.built.tree.node?) = some [
        some ⟨.artificial .group ⟨3, by decide, by decide⟩, "Lib.Box", some 2, .group true⟩,
        some ⟨.member .method ⟨"Lib", by decide, by decide⟩ ⟨2, by decide, by decide⟩, "Lib.Box.Close()",
          some 3, .leaf⟩] := by
    decide
  intro grouped
  obtain ⟨source, found, nodes⟩ := Option.map_eq_some_iff.mp computed
  obtain ⟨space, close⟩ : _ ∧ _ := by simpa using nodes
  obtain ⟨entry, _, _, parent, group, above, here, ofType⟩ :=
    grouped .methods _ source (Or.inl rfl) (Outcome.toOption_eq_some_iff.mp found) 6 _ close rfl
  obtain rfl := Option.some.inj above
  obtain rfl := Option.some.inj (space.symm.trans here)
  obtain ⟨_, _, _, _, impossible⟩ := NodeId.ofMember_eq_ok_iff.mp ofType
  cases impossible

end DependencyDiagram

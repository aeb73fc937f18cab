import DependencyDiagram.Proofs.Grouping.Success
import DependencyDiagram.Proofs.Source.Endpoints

/-!
# Leaves of methods

The methods of a document are those that are found in it, each listed once. A method's assembly and token
identify it, and its leaf is identified as the method. The groups around the leaf are identified too
where they stand for the assembly or for the declaring type; the identifier of an assembly or a type says
by which labels its group is reached. So the identifiers of leaves of methods never clash, whichever
methods are listed.

For groups it suffices that two equal identifiers stand at the same place. The group of a prefix has no
identifier of its own at all, and one is minted for it.
-/

namespace DependencyDiagram

namespace Source

variable {document : Reflection} {method other : MethodRef} {info further : MethodInfo} {id : NodeId}
  {spec : LeafSpec} {call : Call}

/-- The listed methods are those that are found. -/
theorem mem_allMethods_iff : (method, info) ∈ allMethods document ↔
    document.method? method.assembly method.token = some info := by
  refine ⟨fun listed => ?_, mem_allMethods_of_method?⟩
  obtain ⟨⟨assembly, methods⟩, ofAssembly, listedThere⟩ := List.mem_flatMap.mp listed
  obtain ⟨⟨token, found⟩, ofToken, same⟩ := List.mem_map.mp listedThere
  obtain ⟨rfl, rfl⟩ := Prod.mk.inj same
  rw [Reflection.method?, Ascending.get?_of_mem ofAssembly]
  exact Ascending.get?_of_mem ofToken

/-- The calls of a document are listed by methods and lead to methods, and are labelled with the names
of these. -/
theorem mem_loadedCalls_iff : call ∈ loadedCalls document ↔ ∃ info called,
    document.method? call.caller.assembly call.caller.token = some info ∧
    document.method? call.callee.assembly call.callee.token = some called ∧
    call.callee ∈ info.calls ∧ call.label = called.name := by
  constructor
  · intro loaded
    obtain ⟨⟨caller, info⟩, present, lists⟩ := List.mem_flatMap.mp loaded
    obtain ⟨callee, among, made⟩ := List.mem_filterMap.mp lists
    obtain ⟨called, found, rfl⟩ := Option.map_eq_some_iff.mp made
    exact ⟨info, called, mem_allMethods_iff.mp present, found, among, rfl⟩
  · rintro ⟨info, called, present, found, among, label⟩
    refine List.mem_flatMap.mpr ⟨(call.caller, info), mem_allMethods_iff.mpr present, ?_⟩
    refine List.mem_filterMap.mpr ⟨call.callee, among, ?_⟩
    rw [found, Option.map_some, ← label]

/-- Every method is listed once. -/
theorem nodup_allMethods (document : Reflection) : ((allMethods document).map Prod.fst).Nodup := by
  rw [allMethods, List.map_flatMap, List.nodup_flatMap]
  constructor
  · intro assembly _
    rw [List.map_map]
    have keys := assembly.2.nodup_keys.map (fun _ _ same => (MethodRef.mk.inj same).2 :
      Function.Injective (MethodRef.mk assembly.1))
    rwa [List.map_map] at keys
  · refine (List.pairwise_map.mp document.methods.nodup_keys).imp ?_
    intro left right apart method here there
    simp only [List.map_map, List.mem_map, Function.comp_apply] at here there
    obtain ⟨_, _, rfl⟩ := here
    obtain ⟨_, _, same⟩ := there
    exact apart (MethodRef.mk.inj same).1.symm

/-- A method is identified by the name of its assembly and its token. -/
theorem methodId_eq_ok_iff : methodId method = .ok id ↔ ∃ (assembly : Name) (token : Token),
    assembly.text = method.assembly ∧ token.value = method.token.toNat ∧
      id = .member .method assembly token :=
  NodeId.ofMember_eq_ok_iff

/-- Methods with one identifier are one. -/
theorem methodId_injective (here : methodId method = .ok id) (there : methodId other = .ok id) :
    method = other := by
  obtain ⟨assembly, token, named, numbered, rfl⟩ := methodId_eq_ok_iff.mp here
  obtain ⟨_, _, namedToo, numberedToo, same⟩ := methodId_eq_ok_iff.mp there
  obtain ⟨_, rfl, rfl⟩ := NodeId.member.inj same
  obtain ⟨text, number⟩ := method
  obtain ⟨otherText, otherNumber⟩ := other
  obtain rfl : text = otherText := named.symm.trans namedToo
  exact congrArg (MethodRef.mk text) (UInt32.toNat_inj.mp (numbered.symm.trans numberedToo))

/-- The type that declares a method. It is found by the token among the types of the method's assembly,
where the first with this token counts. -/
def declaringType? (document : Reflection) (assembly : String) (info : MethodInfo) : Option TypeInfo :=
  (document.assemblies.get? assembly).bind (fun found => found.typeWithToken? info.declaringType)

/-- A token stands for one type of an assembly. -/
theorem declaringType?_unique {assembly : String} {first second : TypeInfo}
    (here : declaringType? document assembly info = some first)
    (there : declaringType? document assembly further = some second)
    (same : first.token = second.token) : first = second := by
  obtain ⟨found, present, typed⟩ := Option.bind_eq_some_iff.mp here
  obtain ⟨_, presentToo, typedToo⟩ := Option.bind_eq_some_iff.mp there
  obtain rfl := Option.some.inj (present.symm.trans presentToo)
  have token : first.token = info.declaringType := by simpa using List.find?_some typed
  have tokenToo : second.token = further.declaringType := by simpa using List.find?_some typedToo
  have declared : info.declaringType = further.declaringType :=
    token.symm.trans (same.trans tokenToo)
  rw [declared] at typed
  exact Option.some.inj (typed.symm.trans typedToo)

/-- The groups for a type's namespaces have no identifier of their own. -/
theorem id_of_mem_namespacePath {declaring : TypeInfo} {segment : Segment}
    (listed : segment ∈ namespacePath declaring) : segment.id = none := by
  rw [namespacePath] at listed
  split at listed
  · cases listed
  · split at listed
    · cases listed
    · exact Clustering.id_of_mem_prefixPath listed

/-- The groups around a method of a type, given the identifiers of the assembly and the type. The path
says by labels what the two identifiers say, so two methods with one of these in common share the
beginning of their paths up to it. -/
def pathTo (assembly : Name) (declaring : TypeInfo) (typeToken : Token) : List Segment :=
  (Segment.bucket assembly.text).withId (.named .assembly assembly) :: namespacePath declaring ++
    [(Segment.prefixed declaring.fullName).withId (.member .typeDefinition assembly typeToken)]

/-- What the leaf of a method is made of. -/
theorem exists_parts_of_methodLeaf (made : methodLeaf document method info = .ok spec) :
    ∃ (declaring : TypeInfo) (assembly : Name) (typeToken token : Token),
      declaringType? document method.assembly info = some declaring ∧
      assembly.text = method.assembly ∧ typeToken.value = declaring.token.toNat ∧
      spec.id = .member .method assembly token ∧ spec.path = pathTo assembly declaring typeToken := by
  obtain ⟨declaring, assemblyId, typeId, found, assemblyNamed, typeNamed, identified, _, path⟩ :=
    methodLeaf_spec made
  obtain ⟨assembly, named, rfl⟩ := NodeId.ofName_eq_ok_iff.mp assemblyNamed
  obtain ⟨ofType, typeToken, typeAssembly, typeNumber, rfl⟩ := NodeId.ofMember_eq_ok_iff.mp typeNamed
  obtain ⟨ofMethod, token, methodAssembly, _, same⟩ := methodId_eq_ok_iff.mp identified
  obtain rfl : ofType = assembly := Name.eq_of_text (typeAssembly.trans named.symm)
  obtain rfl : ofMethod = ofType := Name.eq_of_text (methodAssembly.trans named.symm)
  refine ⟨declaring, ofMethod, typeToken, token, found, named, typeNumber, same, ?_⟩
  rw [path, pathTo, named]

/-- Of the groups around a method two are identified: the outermost as the assembly, and the innermost as
the type. The groups between these two are those of the namespace, and they take their identifiers from
the mint. -/
theorem given_of_pathTo {assembly : Name} {declaring : TypeInfo} {typeToken : Token} {index : Nat}
    {segment : Segment} {own : NodeId}
    (found : (pathTo assembly declaring typeToken)[index]? = some segment)
    (given : segment.id = some own) :
    index = 0 ∧ own = .named .assembly assembly ∨
      index + 1 = (pathTo assembly declaring typeToken).length ∧
        own = .member .typeDefinition assembly typeToken := by
  rw [pathTo, List.cons_append] at found ⊢
  cases index with
  | zero =>
    obtain rfl := Option.some.inj found
    exact Or.inl ⟨rfl, (Option.some.inj given).symm⟩
  | succ index =>
    rw [List.getElem?_cons_succ] at found
    rcases Nat.lt_or_ge index (namespacePath declaring).length with inner | last
    · rw [List.getElem?_append_left inner] at found
      rw [id_of_mem_namespacePath (List.mem_of_getElem? found)] at given
      cases given
    · rw [List.getElem?_append_right last] at found
      obtain ⟨inside, here⟩ := List.getElem?_eq_some_iff.mp found
      rw [List.length_singleton, Nat.lt_one_iff] at inside
      rw [List.getElem_singleton] at here
      obtain rfl := here
      refine Or.inr ⟨?_, (Option.some.inj given).symm⟩
      rw [List.length_cons, List.length_append, List.length_singleton]
      omega

/-- Where two paths around methods give one identifier, they have led to one place. It is the place of
the assembly, or that of the type, for a token stands for one type of an assembly. -/
theorem take_labels_of_given {assembly otherAssembly : Name} {declaring otherDeclaring : TypeInfo}
    {typeToken otherToken : Token} {index other : Nat} {segment next : Segment} {own : NodeId}
    (declared : declaringType? document assembly.text info = some declaring)
    (declaredToo : declaringType? document otherAssembly.text further = some otherDeclaring)
    (typed : typeToken.value = declaring.token.toNat)
    (typedToo : otherToken.value = otherDeclaring.token.toNat)
    (found : (pathTo assembly declaring typeToken)[index]? = some segment)
    (foundToo : (pathTo otherAssembly otherDeclaring otherToken)[other]? = some next)
    (given : segment.id = some own) (givenToo : next.id = some own) :
    ((pathTo assembly declaring typeToken).map Segment.label).take (index + 1) =
      ((pathTo otherAssembly otherDeclaring otherToken).map Segment.label).take (other + 1) := by
  rcases given_of_pathTo found given with ⟨rfl, rfl⟩ | ⟨last, rfl⟩ <;>
    rcases given_of_pathTo foundToo givenToo with ⟨rfl, same⟩ | ⟨lastToo, same⟩
  · rw [(NodeId.named.inj same).2]
    rfl
  · cases same
  · cases same
  · obtain ⟨_, rfl, rfl⟩ := NodeId.member.inj same
    obtain rfl := declaringType?_unique declared declaredToo
      (UInt32.toNat_inj.mp (typed.symm.trans typedToo))
    rw [last, lastToo]

/-- The leaves of different methods of a document have identifiers that never clash. Methods have
identifiers of their own kind, which tells them apart from all groups; the groups that are identified are
assemblies and types, and an assembly and a type with its token have one place each. -/
theorem identifiersApart_of_methodLeaves {listed : List (MethodRef × MethodInfo)} {specs : List LeafSpec}
    (made : listed.mapM (fun (method, info) => methodLeaf document method info) = .ok specs)
    (distinct : (listed.map Prod.fst).Nodup) : IdentifiersApart specs := by
  have each := Outcome.mapM_eq_ok_iff.mp made
  have parts (spec : LeafSpec) (given : spec ∈ specs) : ∃ (method : MethodRef) (info : MethodInfo)
      (declaring : TypeInfo) (assembly : Name) (typeToken token : Token),
      declaringType? document method.assembly info = some declaring ∧
      assembly.text = method.assembly ∧ typeToken.value = declaring.token.toNat ∧
      spec.id = .member .method assembly token ∧ spec.path = pathTo assembly declaring typeToken := by
    obtain ⟨⟨method, info⟩, _, here⟩ := Outcome.exists_of_mem_right each given
    exact ⟨method, info, exists_parts_of_methodLeaf here⟩
  exact {
    leaves := by
      have identified : List.Forall₂ (fun method spec => methodId method = .ok spec.id)
          (listed.map Prod.fst) specs :=
        List.forall₂_map_left_iff.mpr (each.imp (fun _ _ here => id_of_methodLeaf here))
      refine Outcome.nodup_map_of_forall₂ identified distinct ?_
      intro method other spec further here there same
      exact methodId_injective here (same ▸ there)
    places := by
      intro first firstGiven second secondGiven index other segment further own found foundToo here there
      obtain ⟨_, info, declaring, assembly, typeToken, _, declared, named, typed, _, path⟩ :=
        parts first firstGiven
      obtain ⟨_, otherInfo, otherDeclaring, otherAssembly, otherToken, _, declaredToo, namedToo, typedToo,
        _, otherPath⟩ := parts second secondGiven
      rw [path] at found ⊢
      rw [otherPath] at foundToo ⊢
      rw [← named] at declared
      rw [← namedToo] at declaredToo
      exact take_labels_of_given declared declaredToo typed typedToo found foundToo here there
    apart := by
      intro spec specGiven other otherGiven segment onPath same
      obtain ⟨_, _, _, _, _, _, _, _, _, identified, _⟩ := parts spec specGiven
      obtain ⟨_, _, _, _, _, _, _, _, _, _, path⟩ := parts other otherGiven
      obtain ⟨index, found⟩ := List.mem_iff_getElem?.mp onPath
      rw [path] at found
      rw [identified] at same
      rcases given_of_pathTo found same with ⟨_, impossible⟩ | ⟨_, impossible⟩ <;> cases impossible
    leafOwn := by
      intro spec specGiven
      obtain ⟨_, _, _, _, _, _, _, _, _, identified, _⟩ := parts spec specGiven
      rw [identified]
      rfl
    segmentOwn := by
      intro spec specGiven segment onPath own given
      obtain ⟨_, _, _, _, _, _, _, _, _, _, path⟩ := parts spec specGiven
      obtain ⟨index, found⟩ := List.mem_iff_getElem?.mp onPath
      rw [path] at found
      rcases given_of_pathTo found given with ⟨_, rfl⟩ | ⟨_, rfl⟩ <;> rfl }

end Source

end DependencyDiagram

import DependencyDiagram.Proofs.Source.NameClashes

/-!
# Crowds of assemblies

In a crowd every assembly holds the same types and the same methods. There are a type and another one in
a namespace that reads like the first; the second type has a method that calls its namesake in one chosen
assembly. A view that lists all methods meets the first type's method first and identifies the group of
the namespace as this type. A view of the calls between assemblies lists methods of the second type only,
and there the same group has no identifier but a minted one. So the part of a view may need numbers of
the mint where the whole needs none, and a crowd that is large enough uses them up.

The assemblies are named by numbers, so that the crowd can be as large as one likes. Nothing is computed
for the size that matters here: the leaves, the groups and the mint's count are all found in general, for
a crowd of any size.
-/

namespace DependencyDiagram

/-- A table with the same value under each of its keys. The keys may be given in any order and repeat. -/
def Ascending.uniform {κ ν : Type} [Ord κ] [Std.TransOrd κ] [Std.LawfulEqOrd κ] (keys : List κ)
    (value : ν) : Ascending κ ν where
  entries := (ascendingMembers keys).map (fun key => (key, value))
  ascending := by
    rw [AscendingKeys, List.pairwise_map, List.pairwise_map]
    exact ascendingMembers_ascending keys

/-- A number of thirty-two bits that is not zero is the token of a member. -/
theorem NodeId.exists_ofMember (kind : MemberKind) (name : Name) {token : UInt32}
    (positive : 0 < token.toNat) : ∃ id, NodeId.ofMember kind name.text token.toNat = .ok id := by
  have bounded : token.toNat ≤ Text.maxWord32 := Nat.le_of_lt_succ token.toNat_lt
  exact ⟨_, NodeId.ofMember_eq_ok_iff.mpr ⟨name, ⟨token.toNat, positive, bounded⟩, rfl, rfl, rfl⟩⟩

namespace Sample

/-- A type, and another one in a namespace that reads like it. The full name of the second type begins
with that of the first, and so both are reached through one group. -/
def crowdedAssembly : AssemblyInfo := ⟨[], [⟨none, "T", 1⟩, ⟨some "T", "U", 2⟩]⟩

/-- A method of the first type. -/
def silentMethod : MethodInfo := ⟨"A()", 1, []⟩

/-- A method of the second type that calls its namesake in the assembly that is named zero. -/
def callingMethod : MethodInfo := ⟨"B()", 2, [⟨"0", 2⟩]⟩

/-- The methods of every assembly: three more of the second type call nothing. -/
def crowdedMethods : Ascending UInt32 MethodInfo := .ofList [(1, silentMethod), (2, callingMethod),
  (3, ⟨"C()", 2, []⟩), (4, ⟨"D()", 2, []⟩), (5, ⟨"E()", 2, []⟩)]

/-- The names of the assemblies, which are numbers. -/
def crowdedNames (count : Nat) : List String := (List.range (count + 1)).map toString

/-- The assembly that is named zero and as many others, all with the same types and methods. Every
assembly but the one that is called has a call that crosses, so all of them take part in the view of the
calls between assemblies. -/
def crowdedData (count : Nat) : ViewData :=
  ⟨{ Reflection.empty with
      assemblies := .uniform (crowdedNames count) crowdedAssembly
      methods := .uniform (crowdedNames count) crowdedMethods }, []⟩

variable {count : Nat} {name : String} {entry : MethodRef × MethodInfo}

/-- The methods of a crowd, assembly by assembly. -/
theorem allMethods_crowd (count : Nat) : Source.allMethods (crowdedData count).reflection =
    (ascendingMembers (crowdedNames count)).flatMap (fun name =>
      crowdedMethods.entries.map (fun entry => (⟨name, entry.1⟩, entry.2))) :=
  List.flatMap_map _ _ _

/-- Each assembly of a crowd holds each of the methods. -/
theorem mem_allMethods_crowd : entry ∈ Source.allMethods (crowdedData count).reflection ↔
    entry.1.assembly ∈ crowdedNames count ∧ (entry.1.token, entry.2) ∈ crowdedMethods.entries := by
  rw [allMethods_crowd, List.mem_flatMap]
  constructor
  · rintro ⟨name, listed, among⟩
    obtain ⟨method, there, rfl⟩ := List.mem_map.mp among
    exact ⟨mem_ascendingMembers.mp listed, there⟩
  · rintro ⟨listed, there⟩
    exact ⟨entry.1.assembly, mem_ascendingMembers.mpr listed, List.mem_map.mpr ⟨_, there, rfl⟩⟩

/-- The types of a crowd's methods are the same in every assembly. -/
theorem declaringType?_crowd (listed : name ∈ crowdedNames count) (info : MethodInfo) :
    Source.declaringType? (crowdedData count).reflection name info =
      crowdedAssembly.typeWithToken? info.declaringType := by
  have found : (crowdedData count).reflection.assemblies.get? name = some crowdedAssembly :=
    Ascending.get?_of_mem (List.mem_map.mpr ⟨name, mem_ascendingMembers.mpr listed, rfl⟩)
  rw [Source.declaringType?, found]
  rfl

/-- The first method is declared by the first type and every other one by the second. -/
theorem typeWithToken?_crowd : ∀ entry ∈ crowdedMethods.entries,
    crowdedAssembly.typeWithToken? entry.2.declaringType =
      some (if entry.1 = 1 then ⟨none, "T", 1⟩ else ⟨some "T", "U", 2⟩) := by
  decide

/-- The groups around the first method of an assembly are those of the assembly and of its type; around
the others there is the group of a namespace between these. -/
theorem wayAround_crowd (listed : entry ∈ Source.allMethods (crowdedData count).reflection) :
    Source.wayAround (crowdedData count).reflection entry =
      entry.1.assembly :: if entry.1.token = 1 then ["T"] else ["T", "T.U"] := by
  obtain ⟨named, there⟩ := mem_allMethods_crowd.mp listed
  have declared := (declaringType?_crowd named entry.2).trans (typeWithToken?_crowd _ there)
  rw [Source.wayAround, declared]
  by_cases first : entry.1.token = 1
  · rw [if_pos first, if_pos first]
    rfl
  · rw [if_neg first, if_neg first]
    exact congrArg (entry.1.assembly :: ·) (by decide)

/-- The number of an assembly is a name without a slash. -/
theorem exists_name_of_crowd (listed : name ∈ crowdedNames count) :
    ∃ assembly : Name, assembly.text = name ∧ '/' ∉ name.toList := by
  obtain ⟨number, _, rfl⟩ := List.mem_map.mp listed
  have nonempty : toString number ≠ "" := by
    intro nothing
    refine Nat.toDigits_ne_nil (?_ : Nat.toDigits 10 number = [])
    rw [← toList_toString, nothing]
    rfl
  exact ⟨⟨toString number, nonempty, unseparated_toString number⟩, rfl,
    fun slash => absurd (isDigit_of_mem_toString slash) (by decide)⟩

/-- Every method of a crowd makes a leaf. -/
theorem exists_methodLeaf_crowd (listed : entry ∈ Source.allMethods (crowdedData count).reflection) :
    ∃ spec, Source.methodLeaf (crowdedData count).reflection entry.1 entry.2 = .ok spec := by
  obtain ⟨named, there⟩ := mem_allMethods_crowd.mp listed
  obtain ⟨assembly, spelled, _⟩ := exists_name_of_crowd named
  have declared := (declaringType?_crowd named entry.2).trans (typeWithToken?_crowd _ there)
  have positive : ∀ entry ∈ crowdedMethods.entries, 0 < entry.1.toNat := by decide
  rw [Source.methodLeaf]
  split
  · rename_i unknown
    cases declared.symm.trans unknown
  · rename_i declaring known
    have typed : 0 < declaring.token.toNat := by
      obtain rfl := Option.some.inj (declared.symm.trans known)
      split <;> decide
    obtain ⟨typeId, ofType⟩ := NodeId.exists_ofMember .typeDefinition assembly typed
    obtain ⟨id, ofMethod⟩ := NodeId.exists_ofMember .method assembly (positive _ there)
    rw [spelled] at ofType ofMethod
    have ofAssembly : NodeId.ofName .assembly entry.1.assembly = .ok (.named .assembly assembly) :=
      NodeId.ofName_eq_ok_iff.mpr ⟨assembly, spelled, rfl⟩
    exact ⟨_, Outcome.bind_eq_ok_iff.mpr ⟨_, ofAssembly, Outcome.bind_eq_ok_iff.mpr ⟨_, ofType,
      Outcome.bind_eq_ok_iff.mpr ⟨_, ofMethod, rfl⟩⟩⟩⟩

/-- The texts of a crowd's method. -/
theorem wordsOf?_crowd (listed : entry ∈ Source.allMethods (crowdedData count).reflection) :
    Source.wordsOf? (crowdedData count).reflection entry = some ⟨entry.1.assembly,
      if entry.1.token = 1 then "T" else "T.U", entry.2.name⟩ := by
  obtain ⟨named, there⟩ := mem_allMethods_crowd.mp listed
  rw [Source.wordsOf?, declaringType?_crowd named, typeWithToken?_crowd _ there, Option.map_some]
  congr 2
  split
  · rfl
  · decide

/-- No two methods of a crowd have the same texts, nor do those of one run into those of the other. The
five names differ and hold no dot, and the names of the assemblies hold no slash, so no name can be cut
in two ways. -/
theorem words_crowd_apart {first second : MethodRef × MethodInfo}
    (firstListed : first ∈ Source.allMethods (crowdedData count).reflection)
    (secondListed : second ∈ Source.allMethods (crowdedData count).reflection)
    (apart : first.1 ≠ second.1) : ¬ (Source.Alike (crowdedData count).reflection first second ∨
      Source.RunsInto (crowdedData count).reflection first second) := by
  have distinct : ∀ first ∈ crowdedMethods.entries, ∀ second ∈ crowdedMethods.entries,
      first.2.name = second.2.name → first.1 = second.1 := by
    decide
  have undotted : ∀ entry ∈ crowdedMethods.entries, '.' ∉ entry.2.name.toList := by decide
  obtain ⟨_, firstThere⟩ := mem_allMethods_crowd.mp firstListed
  obtain ⟨secondNamed, secondThere⟩ := mem_allMethods_crowd.mp secondListed
  have words := wordsOf?_crowd firstListed
  have further := wordsOf?_crowd secondListed
  rintro (⟨_, here, there⟩ | ⟨_, _, here, there, runs⟩)
  · obtain ⟨assembly, _, named⟩ := Source.MethodWords.mk.inj
      ((Option.some.inj (words.symm.trans here)).trans (Option.some.inj (there.symm.trans further)))
    have token := distinct _ firstThere _ secondThere named
    refine apart ?_
    obtain ⟨⟨_, _⟩, _⟩ := first
    obtain ⟨⟨_, _⟩, _⟩ := second
    exact congrArg₂ MethodRef.mk assembly token
  · obtain rfl := Option.some.inj (words.symm.trans here)
    obtain rfl := Option.some.inj (further.symm.trans there)
    rcases runs with ⟨_, between, _, dotted⟩ | ⟨between, slashed, _⟩
    · refine undotted _ firstThere ?_
      rw [show first.2.name = between ++ "." ++ second.2.name from dotted, String.toList_append,
        String.toList_append]
      exact List.mem_append_left _ (List.mem_append_right _ (by decide))
    · obtain ⟨_, _, noSlash⟩ := exists_name_of_crowd secondNamed
      refine noSlash ?_
      rw [show second.1.assembly = first.1.assembly ++ "/" ++ between from slashed, String.toList_append,
        String.toList_append]
      exact List.mem_append_left _ (List.mem_append_right _ (by decide))

/-- A view of a crowd's methods has leaves with distinct names. -/
theorem exists_leaves_crowd {kind : ViewKind} (ofMethods : kind = .methods ∨ kind = .apis) (count : Nat) :
    ∃ specs, Source.leaves kind (crowdedData count) = .ok specs ∧ (specs.map LeafSpec.name).Nodup := by
  have among := (Source.listedMethods_sublist (crowdedData count).reflection kind).subset
  obtain ⟨specs, made⟩ : ∃ specs, Source.leaves kind (crowdedData count) = .ok specs := by
    rcases ofMethods with rfl | rfl <;>
      exact Outcome.mapM_succeeds (fun entry listed => exists_methodLeaf_crowd (among listed))
  refine ⟨specs, made, ?_⟩
  by_contra repeated
  obtain ⟨first, firstListed, second, secondListed, apart, related⟩ :=
    (Source.repeated_iff ofMethods made).mp repeated
  exact words_crowd_apart (among firstListed) (among secondListed) apart related

/-- Of all methods that run through the group of an assembly's first type, the first is that of the type
itself. The methods of an assembly are listed together, with the method of the first type in front, and
no other assembly has the name. -/
theorem find?_crowd (named : name ∈ crowdedNames count) :
    (Source.allMethods (crowdedData count).reflection).find? (fun other => decide
      ([name, "T"] <+: Source.wayAround (crowdedData count).reflection other)) =
        some (⟨name, 1⟩, silentMethod) := by
  have runs : ∀ other ∈ Source.allMethods (crowdedData count).reflection,
      decide ([name, "T"] <+: Source.wayAround (crowdedData count).reflection other) =
        decide (other.1.assembly = name) := by
    intro other listed
    rw [wayAround_crowd listed, decide_eq_decide, List.cons_prefix_cons, eq_comm]
    refine and_iff_left ?_
    split <;> decide
  have distinct : (ascendingMembers (crowdedNames count)).Nodup :=
    (Ascending.uniform (crowdedNames count) crowdedMethods).nodup_keys.of_map.of_map
  rw [← List.head?_filter, List.filter_congr runs, allMethods_crowd, List.filter_flatMap,
    flatMap_eq_of_single distinct (mem_ascendingMembers.mpr named)]
  · rw [List.filter_eq_self.mpr]
    · rfl
    · intro other among
      obtain ⟨_, _, rfl⟩ := List.mem_map.mp among
      exact decide_eq_true rfl
  · intro another _ apart
    rw [List.filter_eq_nil_iff]
    intro other among
    obtain ⟨_, _, rfl⟩ := List.mem_map.mp among
    simpa using apart

/-- A leaf of a crowd runs through its assembly with an identifier, through its type with one, and
through the group of a namespace between them without one, unless it is the first of its assembly. The
path of the first method has two groups, and that of any other has three, of which the one in the middle
is a prefix. -/
theorem id_of_crowd {index : Nat} {spec : LeafSpec} {segment : Segment}
    (listed : entry ∈ Source.allMethods (crowdedData count).reflection)
    (made : Source.methodLeaf (crowdedData count).reflection entry.1 entry.2 = .ok spec)
    (found : spec.path[index]? = some segment) :
    segment.id = none ↔ entry.1.token ≠ 1 ∧ index = 1 := by
  obtain ⟨named, there⟩ := mem_allMethods_crowd.mp listed
  obtain ⟨declaring, assembly, typeToken, _, declared, _, _, _, path⟩ :=
    Source.exists_parts_of_methodLeaf made
  rw [declaringType?_crowd named, typeWithToken?_crowd _ there, Option.some.injEq] at declared
  by_cases first : entry.1.token = 1
  · rw [if_pos first] at declared
    have whole : spec.path = [(Segment.bucket assembly.text).withId (.named .assembly assembly),
        (Segment.prefixed "T").withId (.member .typeDefinition assembly typeToken)] := by
      rw [path, ← declared]
      rfl
    rw [whole] at found
    rcases index with _ | _ | index
    · obtain rfl := Option.some.inj found
      simp [Segment.withId, first]
    · obtain rfl := Option.some.inj found
      simp [Segment.withId, first]
    · cases found
  · rw [if_neg first] at declared
    have whole : spec.path = [(Segment.bucket assembly.text).withId (.named .assembly assembly),
        Segment.prefixed "T",
        (Segment.prefixed "T.U").withId (.member .typeDefinition assembly typeToken)] := by
      have prefixes : Source.namespacePath ⟨some "T", "U", 2⟩ = [Segment.prefixed "T"] := by decide
      rw [path, ← declared, Source.pathTo, prefixes]
      rfl
    rw [whole] at found
    rcases index with _ | _ | _ | index
    · obtain rfl := Option.some.inj found
      simp [Segment.withId]
    · obtain rfl := Option.some.inj found
      simp [Segment.prefixed, first]
    · obtain rfl := Option.some.inj found
      simp [Segment.withId]
    · cases found

/-- No group of a view of all methods of a crowd takes a number of the mint. The group of a type takes
its identifier from the first leaf that opens it. In the view of all methods this is a method of the type
itself, and so the group gets the type's own identifier, although a nested type's methods run through it
as well. -/
theorem mintSuffices_crowd {specs : List LeafSpec}
    (made : Source.leaves .methods (crowdedData count) = .ok specs) :
    HierarchyOptions.MintSuffices ⟨true, false⟩ specs := by
  have related := Source.forall₂_methodLeaf (Or.inl rfl) made
  have none : ∀ entry ∈ planOf (HierarchyOptions.nested ⟨true, false⟩)
      (HierarchyOptions.ungroupSingle ⟨true, false⟩) specs, ¬ entry.isMinted = true := by
    intro entry planned minted
    cases entry with
    | leaf around spec => cases minted
    | group around segment =>
      have nameless : segment.id = none := Option.isNone_iff_eq_none.mp minted
      have found := (group_mem_planOf_iff.mp planned).2
      obtain ⟨first, given, here, way⟩ := exists_way_of_segmentOf? found
      obtain ⟨other, listed, firstMade⟩ := Outcome.exists_of_mem_right related given
      obtain ⟨later, second⟩ := (id_of_crowd listed firstMade here).mp nameless
      -- such a group would be that of a namespace, but this is made from a method of the first type
      have place : around ++ [segment.label] = [other.1.assembly, "T"] := by
        have ways := Source.way_of_methodLeaf firstMade
        rw [LeafSpec.way, cutPath, if_pos rfl, wayAround_crowd listed, if_neg later] at ways
        rw [← way, ways, second]
        rfl
      have named := (mem_allMethods_crowd.mp listed).1
      have silent : (1, silentMethod) ∈ crowdedMethods.entries := by decide
      have ownListed : (⟨other.1.assembly, 1⟩, silentMethod) ∈
          Source.allMethods (crowdedData count).reflection :=
        mem_allMethods_crowd.mpr ⟨named, silent⟩
      obtain ⟨own, ownMade⟩ := exists_methodLeaf_crowd ownListed
      have ownWay := wayAround_crowd ownListed
      rw [if_pos rfl] at ownWay
      rw [place, ← ownWay, ← Source.way_of_methodLeaf ownMade] at found
      obtain ⟨opening, leaf, opened, leafMade, _, leafHere⟩ :=
        Source.exists_first_through related ownMade found
      rw [ownWay] at opened
      obtain rfl := Option.some.inj ((find?_crowd named).symm.trans opened)
      exact ((id_of_crowd ownListed leafMade leafHere).mp nameless).1 rfl
  rw [HierarchyOptions.MintSuffices, List.countP_eq_zero.mpr none]
  decide

/-- A view of the calls between the assemblies of a crowd lists only methods of the second type, and it
lists the calling one of every assembly but that which is called. No call leaves from the first method or
leads to it, which is seen in the methods of one assembly. -/
theorem listedMethods_crowd (count : Nat) :
    (∀ entry ∈ Source.listedMethods (crowdedData count).reflection .apis,
      entry ∈ Source.allMethods (crowdedData count).reflection ∧ entry.1.token ≠ 1) ∧
    ∀ name ∈ crowdedNames count, name ≠ "0" →
      (⟨name, 2⟩, callingMethod) ∈ Source.listedMethods (crowdedData count).reflection .apis := by
  constructor
  · intro entry listed
    have calls : ∀ entry ∈ crowdedMethods.entries, ∀ callee ∈ entry.2.calls,
        entry.1 ≠ 1 ∧ callee.token ≠ 1 := by
      decide
    obtain ⟨among, isEnd⟩ := List.mem_filter.mp listed
    refine ⟨among, ?_⟩
    obtain ⟨call, shown, ends⟩ := List.mem_flatMap.mp (List.contains_iff_mem.mp isEnd)
    obtain ⟨info, _, found, _, made, _⟩ := Source.mem_loadedCalls_iff.mp (List.mem_filter.mp shown).1
    have there := (mem_allMethods_crowd.mp (Source.mem_allMethods_of_method? found)).2
    obtain ⟨caller, callee⟩ := calls _ there call.callee made
    rcases List.mem_cons.mp ends with same | same
    · rwa [same]
    · rwa [List.mem_singleton.mp same]
  · intro name named apart
    have there : (2, callingMethod) ∈ crowdedMethods.entries := by decide
    have zero : "0" ∈ crowdedNames count := List.mem_map.mpr ⟨0, List.mem_range.mpr count.succ_pos, rfl⟩
    have present : (⟨name, 2⟩, callingMethod) ∈ Source.allMethods (crowdedData count).reflection :=
      mem_allMethods_crowd.mpr ⟨named, there⟩
    have called : (⟨"0", 2⟩, callingMethod) ∈ Source.allMethods (crowdedData count).reflection :=
      mem_allMethods_crowd.mpr ⟨zero, there⟩
    have loaded : ⟨⟨name, 2⟩, ⟨"0", 2⟩, callingMethod.name⟩ ∈
        Source.loadedCalls (crowdedData count).reflection :=
      Source.mem_loadedCalls_iff.mpr ⟨callingMethod, callingMethod, Source.mem_allMethods_iff.mp present,
        Source.mem_allMethods_iff.mp called, List.mem_cons_self, rfl⟩
    have crosses : Source.Call.crosses ⟨⟨name, 2⟩, ⟨"0", 2⟩, callingMethod.name⟩ = true :=
      bne_iff_ne.mpr apart
    refine List.mem_filter.mpr ⟨present, List.contains_iff_mem.mpr (List.mem_flatMap.mpr ?_)⟩
    exact ⟨_, List.mem_filter.mpr ⟨loaded, crosses⟩, List.mem_cons_self⟩

/-- The groups of namespaces in a view of the calls between assemblies all take a number of the mint, so
these run out where the crowd is large enough. Every assembly but the one that is called has a group that
is not identified, and so there are as many of them as the mint has numbers. -/
theorem not_mintSuffices_crowd {specs : List LeafSpec}
    (made : Source.leaves .apis (crowdedData count) = .ok specs) (many : Text.maxWord32 ≤ count) :
    ¬ HierarchyOptions.MintSuffices ⟨true, false⟩ specs := by
  have related := Source.forall₂_methodLeaf (Or.inr rfl) made
  obtain ⟨only, each⟩ := listedMethods_crowd count
  have distinct : ((List.range count).map (fun number => [toString (number + 1), "T"])).Nodup := by
    refine List.nodup_range.map (fun first second same => ?_)
    exact Nat.succ.inj (toString_injective (List.cons.inj same).1)
  have minted : ∀ labels ∈ (List.range count).map (fun number => [toString (number + 1), "T"]),
      IsGrouped ⟨true, false⟩ specs labels ∧
        ∀ segment, segmentOf? true specs labels = some segment → segment.id = none := by
    intro labels listed
    obtain ⟨number, below, rfl⟩ := List.mem_map.mp listed
    have named : toString (number + 1) ∈ crowdedNames count :=
      List.mem_map.mpr ⟨number + 1, List.mem_range.mpr (Nat.succ_lt_succ (List.mem_range.mp below)), rfl⟩
    have notZero : toString (number + 1) ≠ toString 0 :=
      fun zero => absurd (toString_injective zero) number.succ_ne_zero
    obtain ⟨spec, given, leaf⟩ := Outcome.exists_of_mem_left related (each _ named notZero)
    constructor
    · refine isGrouped_of_single rfl given ?_ (List.cons_ne_nil _ _)
      rw [Source.way_of_methodLeaf leaf, wayAround_crowd (only _ (each _ named notZero)).1]
      exact List.prefix_append [toString (number + 1), "T"] ["T.U"]
    · intro segment found
      obtain ⟨first, firstGiven, here⟩ := exists_spec_of_segmentOf?
        (show segmentOf? true specs ([toString (number + 1)] ++ ["T"]) = some segment from found)
      obtain ⟨other, otherListed, firstMade⟩ := Outcome.exists_of_mem_right related firstGiven
      obtain ⟨among, later⟩ := only other otherListed
      exact (id_of_crowd among firstMade here).mpr ⟨later, rfl⟩
  have counted := length_le_countP_isMinted distinct minted
  rw [List.length_map, List.length_range] at counted
  exact Nat.not_lt.mpr (Nat.le_trans many counted)

end Sample

end DependencyDiagram

import DependencyDiagram.Proofs.Source.DeclaringTypes
import DependencyDiagram.Proofs.Source.Soundness

/-!
# Clashes of method names

The unique name of a method's leaf is made of the method's assembly, the full name of its type and its
own name, with a slash and a dot between them. Each of the three may hold these marks itself, so one name
can be cut into three in several ways. Two methods get the same name if they agree in all three texts; if
they are of one assembly, the full name of one type goes on behind that of the other, and the other
method's name makes up for it; or if the same happens with their assemblies. A view of methods fails for
a repeated name exactly when two of its methods are alike in one of these ways.

Two methods that are alike are overloads which the document does not distinguish, and a failure is what
is wanted for them. The other two ways are accidents of writing three texts as one.
-/

namespace DependencyDiagram

/-- What is cut at a mark may also be cut at another one in front of it or behind it. -/
theorem append_cons_eq_iff {sign : Char} {first second third fourth : List Char} :
    first ++ sign :: second = third ++ sign :: fourth ↔
      (first = third ∧ second = fourth) ∨
      (∃ between, third = first ++ sign :: between ∧ second = between ++ sign :: fourth) ∨
      ∃ between, first = third ++ sign :: between ∧ fourth = between ++ sign :: second := by
  constructor
  · intro same
    rcases List.append_eq_append_iff.mp same with ⟨more, rfl, rest⟩ | ⟨more, rfl, rest⟩
    · cases more with
      | nil => exact Or.inl ⟨(List.append_nil first).symm, (List.cons.inj rest).2⟩
      | cons other between =>
        obtain ⟨rfl, behind⟩ := List.cons.inj rest
        exact Or.inr (Or.inl ⟨between, rfl, behind⟩)
    · cases more with
      | nil => exact Or.inl ⟨List.append_nil third, (List.cons.inj rest).2.symm⟩
      | cons other between =>
        obtain ⟨rfl, behind⟩ := List.cons.inj rest
        exact Or.inr (Or.inr ⟨between, rfl, behind⟩)
  · rintro (⟨rfl, rfl⟩ | ⟨between, rfl, rfl⟩ | ⟨between, rfl, rfl⟩) <;> simp

/-- The same of texts. -/
theorem Text.joined_eq_iff {mark : String} {sign : Char} (single : mark.toList = [sign])
    {first second third fourth : String} :
    first ++ mark ++ second = third ++ mark ++ fourth ↔
      (first = third ∧ second = fourth) ∨
      (∃ between, third = first ++ mark ++ between ∧ second = between ++ mark ++ fourth) ∨
      ∃ between, first = third ++ mark ++ between ∧ fourth = between ++ mark ++ second := by
  have spelled (holds : List Char → Prop) : (∃ between : String, holds between.toList) ↔ ∃ list, holds list :=
    ⟨fun ⟨between, here⟩ => ⟨_, here⟩,
      fun ⟨list, here⟩ => ⟨String.ofList list, by rwa [String.toList_ofList]⟩⟩
  simp only [← String.toList_inj, String.toList_append, single, List.append_assoc, List.singleton_append]
  rw [append_cons_eq_iff,
    spelled (fun between => third.toList = first.toList ++ sign :: between ∧
      second.toList = between ++ sign :: fourth.toList),
    spelled (fun between => first.toList = third.toList ++ sign :: between ∧
      fourth.toList = between ++ sign :: second.toList)]

namespace Source

/-- The texts that the unique name of a method's leaf is made of. They are put together without escaping,
so that different words can give one name. -/
structure MethodWords where
  assembly : String
  type : String
  method : String
deriving DecidableEq

namespace MethodWords

variable {first second : MethodWords}

/-- The unique name that is made of the texts. None of the texts is escaped, so the marks between them
can also be marks inside them. -/
def leafName (words : MethodWords) : String :=
  words.assembly ++ "/" ++ (words.type ++ "." ++ words.method)

/-- The second texts begin with longer ones: the type goes on behind that of the first, or the assembly
does, and the other texts make up for it. -/
def RunsInto (first second : MethodWords) : Prop :=
  (first.assembly = second.assembly ∧ ∃ between, second.type = first.type ++ "." ++ between ∧
      first.method = between ++ "." ++ second.method) ∨
    ∃ between, second.assembly = first.assembly ++ "/" ++ between ∧
      first.type ++ "." ++ first.method = between ++ "/" ++ (second.type ++ "." ++ second.method)

/-- Names are the same exactly when their texts are, or when those of one run into the other's. -/
theorem leafName_eq_iff : first.leafName = second.leafName ↔
    first = second ∨ first.RunsInto second ∨ second.RunsInto first := by
  have slash : "/".toList = ['/'] := by decide
  have dot : ".".toList = ['.'] := by decide
  rw [leafName, leafName, Text.joined_eq_iff slash, Text.joined_eq_iff dot, RunsInto, RunsInto]
  obtain ⟨assembly, type, method⟩ := first
  obtain ⟨other, otherType, otherMethod⟩ := second
  simp only [mk.injEq]
  constructor
  · rintro (⟨same, ⟨types, methods⟩ | longer | shorter⟩ | longer | shorter)
    · exact Or.inl ⟨same, types, methods⟩
    · exact Or.inr (Or.inl (Or.inl ⟨same, longer⟩))
    · exact Or.inr (Or.inr (Or.inl ⟨same.symm, shorter⟩))
    · exact Or.inr (Or.inl (Or.inr longer))
    · exact Or.inr (Or.inr (Or.inr shorter))
  · rintro (⟨same, types, methods⟩ | (⟨same, longer⟩ | longer) | (⟨same, shorter⟩ | shorter))
    · exact Or.inl ⟨same, Or.inl ⟨types, methods⟩⟩
    · exact Or.inl ⟨same, Or.inr (Or.inl longer)⟩
    · exact Or.inr (Or.inl longer)
    · exact Or.inl ⟨same.symm, Or.inr (Or.inr shorter)⟩
    · exact Or.inr (Or.inr shorter)

end MethodWords

variable {document : Reflection} {kind : ViewKind} {data : ViewData} {options : HierarchyOptions}
  {entry first second : MethodRef × MethodInfo} {specs : List LeafSpec}

/-- The texts of a method, where its type is known. There are none for a method whose type is unknown.
Such a method has no leaf either. -/
def wordsOf? (document : Reflection) (entry : MethodRef × MethodInfo) : Option MethodWords :=
  (declaringType? document entry.1.assembly entry.2).map
    (fun declaring => ⟨entry.1.assembly, declaring.fullName, entry.2.name⟩)

/-- Two methods are of one assembly, of types with one full name, and have one name themselves. -/
def Alike (document : Reflection) (first second : MethodRef × MethodInfo) : Prop :=
  ∃ words, wordsOf? document first = some words ∧ wordsOf? document second = some words

/-- The texts of the first method run into those of the second. -/
def RunsInto (document : Reflection) (first second : MethodRef × MethodInfo) : Prop :=
  ∃ words further, wordsOf? document first = some words ∧ wordsOf? document second = some further ∧
    words.RunsInto further

/-- The unique name of a method's leaf is made of its texts. -/
theorem wordsOf?_of_methodLeaf {spec : LeafSpec} (made : methodLeaf document entry.1 entry.2 = .ok spec) :
    ∃ words, wordsOf? document entry = some words ∧ words.leafName = spec.name := by
  rw [methodLeaf] at made
  split at made
  · cases made
  · rename_i declaring found
    obtain ⟨_, _, next⟩ := Outcome.bind_eq_ok_iff.mp made
    obtain ⟨_, _, further⟩ := Outcome.bind_eq_ok_iff.mp next
    obtain ⟨_, _, returned⟩ := Outcome.bind_eq_ok_iff.mp further
    obtain rfl := Except.ok.inj returned
    exact ⟨⟨entry.1.assembly, declaring.fullName, entry.2.name⟩, by rw [wordsOf?, declaringType?, found]; rfl,
      rfl⟩

/-- Building a view fails for a repeated name exactly when its leaves can be made and their names are not
distinct. -/
theorem fails_repeated_iff (kind : ViewKind) (data : ViewData) (options : HierarchyOptions) :
    (∃ failure, buildSource kind data options = .error failure ∧ failure.kind = .duplicateLeafName) ↔
      ∃ specs, leaves kind data = .ok specs ∧ ¬ (specs.map LeafSpec.name).Nodup := by
  cases made : leaves kind data with
  | error refused =>
    obtain ⟨other, failed, listed⟩ := buildSource_of_leaves_error made options
    refine iff_of_false ?_ nofun
    rintro ⟨failure, failedToo, repeated⟩
    obtain rfl := Except.error.inj (failed.symm.trans failedToo)
    rw [repeated] at listed
    exact absurd listed (by decide)
  | ok specs =>
    obtain ⟨edges, same⟩ := buildSource_of_leaves made
    simp only [same options, Outcome.map_eq_error_iff, Except.ok.injEq, exists_eq_left']
    constructor
    · rintro ⟨failure, failed, repeated⟩ distinct
      cases repeated.symm.trans (kind_of_buildHierarchy_error distinct failed)
    · exact buildHierarchy_of_repeated

/-- A view lists every method once. -/
theorem nodup_listedMethods (document : Reflection) (kind : ViewKind) :
    ((listedMethods document kind).map Prod.fst).Nodup :=
  (nodup_allMethods document).sublist ((listedMethods_sublist document kind).map Prod.fst)

/-- The names of a view's leaves are those of its methods, one by one. -/
theorem map_leafName (ofMethods : kind = .methods ∨ kind = .apis) (made : leaves kind data = .ok specs) :
    (listedMethods data.reflection kind).map
        (fun entry => (wordsOf? data.reflection entry).map MethodWords.leafName) =
      (specs.map LeafSpec.name).map some := by
  rw [List.map_map, ← List.forall₂_eq_eq_eq, List.forall₂_map_left_iff, List.forall₂_map_right_iff]
  refine (forall₂_methodLeaf ofMethods made).imp (fun entry spec here => ?_)
  obtain ⟨words, found, named⟩ := wordsOf?_of_methodLeaf here
  rw [found, Option.map_some, named]
  rfl

/-- Where all leaves can be made, a name is repeated exactly when two methods are alike or the texts of
one run into those of the other. Names repeat exactly where two listed methods have texts that make one
name. -/
theorem repeated_iff (ofMethods : kind = .methods ∨ kind = .apis) (made : leaves kind data = .ok specs) :
    ¬ (specs.map LeafSpec.name).Nodup ↔ ∃ first ∈ listedMethods data.reflection kind,
      ∃ second ∈ listedMethods data.reflection kind, first.1 ≠ second.1 ∧
        (Alike data.reflection first second ∨ RunsInto data.reflection first second) := by
  have once := nodup_listedMethods data.reflection kind
  have known (entry) (listed : entry ∈ listedMethods data.reflection kind) :
      ∃ words, wordsOf? data.reflection entry = some words := by
    obtain ⟨spec, _, here⟩ := Outcome.exists_of_mem_left (forall₂_methodLeaf ofMethods made) listed
    obtain ⟨words, found, _⟩ := wordsOf?_of_methodLeaf here
    exact ⟨words, found⟩
  rw [← List.nodup_map_iff (Option.some_injective String), ← map_leafName ofMethods made,
    List.nodup_map_iff_inj_on once.of_map]
  constructor
  · intro notApart
    obtain ⟨first, firstListed, second, secondListed, same, other⟩ : ∃ first ∈
        listedMethods data.reflection kind, ∃ second ∈ listedMethods data.reflection kind,
        (wordsOf? data.reflection first).map MethodWords.leafName =
          (wordsOf? data.reflection second).map MethodWords.leafName ∧ first ≠ second := by
      simpa using notApart
    have apart : first.1 ≠ second.1 :=
      fun method => other (List.inj_on_of_nodup_map once firstListed secondListed method)
    obtain ⟨words, found⟩ := known first firstListed
    obtain ⟨further, foundToo⟩ := known second secondListed
    rw [found, foundToo, Option.map_some, Option.map_some, Option.some.injEq,
      MethodWords.leafName_eq_iff] at same
    rcases same with rfl | runs | runs
    · exact ⟨first, firstListed, second, secondListed, apart, Or.inl ⟨words, found, foundToo⟩⟩
    · exact ⟨first, firstListed, second, secondListed, apart,
        Or.inr ⟨words, further, found, foundToo, runs⟩⟩
    · exact ⟨second, secondListed, first, firstListed, apart.symm,
        Or.inr ⟨further, words, foundToo, found, runs⟩⟩
  · rintro ⟨first, firstListed, second, secondListed, apart, related⟩ injective
    refine apart (congrArg Prod.fst (injective first firstListed second secondListed ?_))
    rcases related with ⟨words, found, foundToo⟩ | ⟨words, further, found, foundToo, runs⟩
    · rw [found, foundToo]
    · rw [found, foundToo, Option.map_some, Option.map_some,
        MethodWords.leafName_eq_iff.mpr (Or.inr (Or.inl runs))]

/-- No listed method's assembly has a name with a slash in it, and the full name of no type goes on
behind that of another type of the assembly. It is a condition on assemblies and types alone. Names of
methods may hold dots, as those of explicit implementations of interfaces do. -/
def NamesApart (document : Reflection) (kind : ViewKind) : Prop :=
  ∀ first ∈ listedMethods document kind, ∀ second ∈ listedMethods document kind,
    ∀ words further, wordsOf? document first = some words → wordsOf? document second = some further →
      '/' ∉ further.assembly.toList ∧
        (words.assembly = further.assembly → ∀ between, further.type ≠ words.type ++ "." ++ between)

/-- Where names are apart, no method's texts run into those of another. -/
theorem NamesApart.not_runsInto (apart : NamesApart document kind)
    (firstListed : first ∈ listedMethods document kind)
    (secondListed : second ∈ listedMethods document kind) : ¬ RunsInto document first second := by
  rintro ⟨words, further, found, foundToo, runs⟩
  obtain ⟨noSlash, noType⟩ := apart first firstListed second secondListed words further found foundToo
  rcases runs with ⟨same, between, longer, _⟩ | ⟨between, longer, _⟩
  · exact noType same between longer
  · refine noSlash ?_
    rw [longer, String.toList_append, String.toList_append]
    exact List.mem_append_left _ (List.mem_append_right _ (by decide))

end Source

/-- Building a view of methods fails for a repeated name exactly when all its leaves can be made and two
of its methods are alike, or the texts of one run into those of the other. Where names are apart, two of
its methods are then alike. The second half says when a repeated name is what it looks like. Nested types
and namespaces that read like a type are what can violate its condition. -/
theorem repeated_names_exact {kind : ViewKind} {data : ViewData} (options : HierarchyOptions)
    (ofMethods : kind = .methods ∨ kind = .apis) :
    ((∃ failure, buildSource kind data options = .error failure ∧ failure.kind = .duplicateLeafName) ↔
      (∃ specs, Source.leaves kind data = .ok specs) ∧
        ∃ first ∈ Source.listedMethods data.reflection kind,
          ∃ second ∈ Source.listedMethods data.reflection kind, first.1 ≠ second.1 ∧
            (Source.Alike data.reflection first second ∨
              Source.RunsInto data.reflection first second)) ∧
      (Source.NamesApart data.reflection kind → ∀ failure,
        buildSource kind data options = .error failure → failure.kind = .duplicateLeafName →
        ∃ first ∈ Source.listedMethods data.reflection kind,
          ∃ second ∈ Source.listedMethods data.reflection kind, first.1 ≠ second.1 ∧
            Source.Alike data.reflection first second) := by
  have exact : (∃ failure, buildSource kind data options = .error failure ∧
      failure.kind = .duplicateLeafName) ↔ (∃ specs, Source.leaves kind data = .ok specs) ∧
        ∃ first ∈ Source.listedMethods data.reflection kind,
          ∃ second ∈ Source.listedMethods data.reflection kind, first.1 ≠ second.1 ∧
            (Source.Alike data.reflection first second ∨
              Source.RunsInto data.reflection first second) := by
    rw [Source.fails_repeated_iff]
    constructor
    · rintro ⟨specs, made, repeated⟩
      exact ⟨⟨specs, made⟩, (Source.repeated_iff ofMethods made).mp repeated⟩
    · rintro ⟨⟨specs, made⟩, related⟩
      exact ⟨specs, made, (Source.repeated_iff ofMethods made).mpr related⟩
  refine ⟨exact, fun apart failure failed repeated => ?_⟩
  obtain ⟨_, first, firstListed, second, secondListed, other, related⟩ :=
    exact.mp ⟨failure, failed, repeated⟩
  exact ⟨first, firstListed, second, secondListed, other,
    related.resolve_right (apart.not_runsInto firstListed secondListed)⟩

namespace Sample

/-- A type with two methods of one name. -/
def overloadedData : ViewData :=
  ⟨{ Reflection.empty with
      assemblies := .ofList [("Lib", ⟨[], [⟨some "Lib", "Box", 1⟩]⟩)]
      methods := .ofList [("Lib", .ofList [(1, ⟨"Open()", 1, []⟩), (2, ⟨"Open()", 1, []⟩)])] }, []⟩

/-- Two types of an assembly, the second in a namespace that reads like the first. A method of the first
is named for an interface with the name of the second. -/
def interfaceData : ViewData :=
  ⟨{ Reflection.empty with
      assemblies := .ofList [("Lib", ⟨[], [⟨some "Lib", "Box", 1⟩, ⟨some "Lib.Box", "Lid", 2⟩]⟩)]
      methods := .ofList [("Lib", .ofList [(1, ⟨"Lid.Open()", 1, []⟩), (2, ⟨"Open()", 2, []⟩)])] }, []⟩

/-- Where a computed outcome is a failure, building fails with it. -/
theorem exists_failure (data : ViewData) (kind : FailureKind)
    (computed : (match buildSource .methods data ⟨true, true⟩ with
      | .error failure => some failure.kind
      | .ok _ => none) = some kind) :
    ∃ failure, buildSource .methods data ⟨true, true⟩ = .error failure ∧ failure.kind = kind := by
  split at computed
  · next failure failed => exact ⟨failure, failed, Option.some.inj computed⟩
  · cases computed

end Sample

/-- The two methods of one name make building fail, and they are alike. -/
theorem overloadedData_repeats : ∃ failure,
    buildSource .methods Sample.overloadedData ⟨true, true⟩ = .error failure ∧
      failure.kind = .duplicateLeafName ∧
      ∃ first ∈ Source.listedMethods Sample.overloadedData.reflection .methods,
        ∃ second ∈ Source.listedMethods Sample.overloadedData.reflection .methods,
          first.1 ≠ second.1 ∧ Source.Alike Sample.overloadedData.reflection first second := by
  have words : ∀ entry ∈ Source.listedMethods Sample.overloadedData.reflection .methods,
      Source.wordsOf? Sample.overloadedData.reflection entry = some ⟨"Lib", "Lib.Box", "Open()"⟩ := by
    decide
  have apart : Source.NamesApart Sample.overloadedData.reflection .methods := by
    intro first firstListed second secondListed _ _ found foundToo
    obtain rfl := Option.some.inj ((words first firstListed).symm.trans found)
    obtain rfl := Option.some.inj ((words second secondListed).symm.trans foundToo)
    refine ⟨by decide, fun _ between longer => ?_⟩
    have lengths : "Lib.Box".length = "Lib.Box".length + 1 + between.length :=
      (congrArg String.length longer).trans (by rw [String.length_append, String.length_append]; rfl)
    omega
  obtain ⟨failure, failed, repeated⟩ :=
    Sample.exists_failure Sample.overloadedData .duplicateLeafName (by decide)
  exact ⟨failure, failed, repeated,
    (repeated_names_exact ⟨true, true⟩ (Or.inl rfl)).2 apart failure failed repeated⟩

/-- The methods of different types make building fail as well, though they are not alike. -/
theorem interfaceData_repeats :
    ¬ ∀ (kind : ViewKind) (data : ViewData) (options : HierarchyOptions) (failure : Failure),
      kind = .methods ∨ kind = .apis → buildSource kind data options = .error failure →
      failure.kind = .duplicateLeafName →
      ∃ first ∈ Source.allMethods data.reflection, ∃ second ∈ Source.allMethods data.reflection,
        first.1 ≠ second.1 ∧ Source.Alike data.reflection first second := by
  have different : ∀ first ∈ Source.allMethods Sample.interfaceData.reflection,
      ∀ second ∈ Source.allMethods Sample.interfaceData.reflection, first.1 ≠ second.1 →
      Source.wordsOf? Sample.interfaceData.reflection first ≠
        Source.wordsOf? Sample.interfaceData.reflection second := by
    decide
  obtain ⟨failure, failed, repeated⟩ :=
    Sample.exists_failure Sample.interfaceData .duplicateLeafName (by decide)
  intro alike
  obtain ⟨first, firstListed, second, secondListed, other, words, found, foundToo⟩ :=
    alike .methods _ _ failure (Or.inl rfl) failed repeated
  exact different first firstListed second secondListed other (found.trans foundToo.symm)

end DependencyDiagram

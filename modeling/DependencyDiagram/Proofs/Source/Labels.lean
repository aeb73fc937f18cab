import DependencyDiagram.Proofs.Grouping.Prefixes
import DependencyDiagram.Proofs.Source.Endpoints

/-!
# Labels of reflection data

In the views of reflection data a group for a prefix promises that labels go on behind it. The
prefixes of a name do so among themselves, and the name goes on behind all of them unless it is
one of them with nothing but a dot behind it. So the promises are kept where no name is of that
kind, no method is without a name, and no prefix of an examined assembly's name is the label of a
bucket: the group would then be one with the bucket, whose members have labels of any kind.
-/

namespace DependencyDiagram

variable {label name leading : String}

/-- The prefixes of a name go on one behind the other with a dot and something more. -/
theorem continues_onward (name : String) : (qualifyingPrefixes '.' name).Pairwise Continues := by
  refine (qualifyingPrefixes_onward '.' name).imp_of_mem (fun _ listed further => ?_)
  exact continues_iff.mpr ⟨further, ne_append_of_prefix listed _⟩

/-- A name goes on behind a prefix unless it is the prefix and a dot. -/
theorem continues_of_prefix (listed : leading ∈ qualifyingPrefixes '.' name)
    (more : name ≠ leading ++ ".") : Continues leading name :=
  continues_iff.mpr ⟨extends_of_mem listed, more⟩

/-- What goes on behind a name goes on behind its prefixes. -/
theorem continues_append (listed : leading ∈ qualifyingPrefixes '.' name) (further : String) :
    Continues leading (name ++ "." ++ further) := by
  obtain ⟨rest, whole⟩ := extends_of_mem listed
  refine ⟨String.ofList (rest ++ '.' :: further.toList), by simp, ?_⟩
  rw [← String.toList_inj]
  simp [String.toList_append, whole]

/-- The names of a document let every promise about labels be kept in a view. For the custom view there
is nothing to demand, as its groups promise nothing. The condition on a bucket's label is needed because
the group for a prefix and a bucket with the same label become one. -/
def Reflection.LabelsFit (document : Reflection) : ViewKind → Prop
  | .references => ∀ name ∈ document.assemblies.keys, name ∉ document.executables →
      ∀ leading ∈ qualifyingPrefixes '.' name,
        name ≠ leading ++ "." ∧ leading ∉ [MetaBucket.framework, .thirdParty].map MetaBucket.label
  | .methods | .apis => ∀ method info, (method, info) ∈ Source.allMethods document →
      info.name ≠ "" ∧
        ∀ declaring, (document.assemblies.get? method.assembly).bind
            (fun assembly => assembly.typeWithToken? info.declaringType) = some declaring →
          ∀ segment ∈ Source.namespacePath declaring, declaring.fullName ≠ segment.label ++ "."
  | .custom => True

namespace Source

variable {document : Reflection} {options : HierarchyOptions} {source : GraphSource}
  {executables : List String} {spec : LeafSpec}

/-- The path of an assembly's leaf is empty for an executable, leads through the prefixes of its name
where the assembly was examined, and leads into its bucket otherwise. -/
theorem path_of_assembly
    (made : leafFromName executables .assembly (.byAssembly document.assemblies.keys) name = .ok spec) :
    (name ∈ executables ∧ spec.path = []) ∨
      (name ∈ document.assemblies.keys ∧ name ∉ executables ∧
        spec.path = Clustering.prefixPath '.' name) ∨
      (name ∉ document.assemblies.keys ∧ name ∉ executables ∧
        spec.path = [Segment.bucket (MetaBucket.ofName name).label]) := by
  obtain ⟨_, _, _, ⟨own, rfl⟩ | ⟨other, chosen⟩, rfl⟩ := exists_parts_of_leafFromName made
  · exact Or.inl ⟨own, rfl⟩
  · rw [Clustering.path] at chosen
    split at chosen
    · rename_i known
      exact Or.inr (Or.inl ⟨known, other, (Except.ok.inj chosen).symm⟩)
    · rename_i unknown
      exact Or.inr (Or.inr ⟨unknown, other, (Except.ok.inj chosen).symm⟩)

/-- A group on the path of an assembly's leaf makes a promise and is a prefix of an examined
assembly's name, or it makes none and is a bucket. -/
theorem segment_of_assembly
    (made : leafFromName executables .assembly (.byAssembly document.assemblies.keys) name = .ok spec)
    {segment : Segment} (listed : segment ∈ spec.path) :
    (segment.shortens = true ∧ name ∈ document.assemblies.keys ∧ name ∉ executables ∧
        segment.label ∈ qualifyingPrefixes '.' name) ∨
      segment.shortens = false ∧ ∃ bucket : MetaBucket, segment.label = bucket.label := by
  rcases path_of_assembly made with ⟨_, none⟩ | ⟨known, other, path⟩ | ⟨_, _, path⟩
  · rw [none] at listed
    cases listed
  · obtain ⟨found, promises⟩ := Clustering.mem_prefixPath (path ▸ listed)
    exact Or.inl ⟨promises, known, other, found⟩
  · rw [path, List.mem_singleton] at listed
    exact Or.inr ⟨listed ▸ rfl, MetaBucket.ofName name, listed ▸ rfl⟩

/-- The label of a bucket is one of two. -/
theorem mem_bucketLabels {bucket : MetaBucket} (named : label = bucket.label) :
    label ∈ [MetaBucket.framework, .thirdParty].map MetaBucket.label := by
  rw [named]
  cases bucket <;> decide

/-- Promises are kept in the references view where the names of the document let them be. Two things are
needed of the leaves: segments that open one group promise the same, and what a segment promises holds of
the labels below it. The paths are either prefixes of the assembly's name or one bucket, and prefixes
promise while buckets do not. -/
theorem keepsPromises_references (fit : document.LabelsFit .references)
    (built : references document options = .ok source) : source.built.tree.KeepsPromises := by
  obtain ⟨⟨tree, mint⟩, planted, next⟩ := Outcome.bind_eq_ok_iff.mp built
  obtain ⟨given, _, returned⟩ := Outcome.bind_eq_ok_iff.mp next
  obtain rfl := Except.ok.inj returned
  obtain ⟨specs, each, hierarchy⟩ := Outcome.bind_eq_ok_iff.mp planted
  have made (spec : LeafSpec) (listed : spec ∈ specs) :=
    Outcome.exists_of_mem_right (Outcome.mapM_eq_ok_iff.mp each) listed
  refine keepsPromises_of_buildHierarchy hierarchy ?_ ?_
  · intro first firstGiven second secondGiven index segment other here there labels
    obtain ⟨name, _, firstMade⟩ := made first firstGiven
    obtain ⟨further, _, secondMade⟩ := made second secondGiven
    -- a prefix and a bucket have different labels
    rcases segment_of_assembly firstMade (List.mem_of_getElem? here) with
      ⟨promises, known, own, found⟩ | ⟨silent, bucket, named⟩ <;>
    rcases segment_of_assembly secondMade (List.mem_of_getElem? there) with
      ⟨promisesToo, knownToo, ownToo, foundToo⟩ | ⟨silentToo, bucketToo, namedToo⟩
    · rw [promises, promisesToo]
    · exact absurd (mem_bucketLabels (labels.trans namedToo)) (fit name known own _ found).2
    · exact absurd (mem_bucketLabels (labels.symm.trans named)) (fit further knownToo ownToo _ foundToo).2
    · rw [silent, silentToo]
  · intro spec listed
    obtain ⟨name, _, here⟩ := made spec listed
    have labelled : spec.label = name := by
      obtain ⟨_, _, _, _, rfl⟩ := exists_parts_of_leafFromName here
      rfl
    refine ⟨?_, fun segment onPath promises => ?_⟩
    · rcases path_of_assembly here with ⟨_, none⟩ | ⟨_, _, path⟩ | ⟨_, _, path⟩
      · rw [none]
        exact List.Pairwise.nil
      · rw [path]
        exact Clustering.prefixPath_onward (continues_onward name)
      · rw [path]
        exact List.pairwise_singleton _ _
    · rcases segment_of_assembly here onPath with ⟨_, known, own, found⟩ | ⟨silent, _⟩
      · rw [labelled]
        exact continues_of_prefix found (fit name known own _ found).1
      · rw [silent] at promises
        cases promises

/-- The groups for a type's namespaces are prefixes of the type's full name. -/
theorem namespacePath_eq (declaring : TypeInfo) :
    namespacePath declaring = [] ∨
      namespacePath declaring = Clustering.prefixPath '.' declaring.fullName := by
  rw [namespacePath]
  split
  · exact Or.inl rfl
  · split
    · exact Or.inl rfl
    · exact Or.inr rfl

/-- The groups for a type's namespaces make promises that the type's full name begins to keep. -/
theorem mem_namespacePath {declaring : TypeInfo} {segment : Segment}
    (listed : segment ∈ namespacePath declaring) :
    segment.label ∈ qualifyingPrefixes '.' declaring.fullName ∧ segment.shortens = true := by
  rcases namespacePath_eq declaring with none | path
  · rw [none] at listed
    cases listed
  · exact Clustering.mem_prefixPath (path ▸ listed)

/-- Of the groups around a method's leaf exactly the outermost makes no promise. -/
theorem shortens_of_methodLeaf {method : MethodRef} {info : MethodInfo}
    (made : methodLeaf document method info = .ok spec) {index : Nat} {segment : Segment}
    (found : spec.path[index]? = some segment) : segment.shortens = decide (0 < index) := by
  obtain ⟨declaring, _, _, _, _, _, _, _, path⟩ := methodLeaf_spec made
  rw [path] at found
  cases index with
  | zero =>
    obtain rfl := Option.some.inj found
    rfl
  | succ index =>
    rw [List.cons_append, List.getElem?_cons_succ] at found
    rcases List.mem_append.mp (List.mem_of_getElem? found) with inner | last
    · exact (mem_namespacePath inner).2
    · rw [List.mem_singleton.mp last]
      rfl

/-- The path of a method's leaf keeps its promises where the method has a name and its type's full
name goes on behind its namespaces. -/
theorem keepsPromises_of_methodLeaf {method : MethodRef} {info : MethodInfo}
    (made : methodLeaf document method info = .ok spec) (named : info.name ≠ "")
    (further : ∀ declaring, (document.assemblies.get? method.assembly).bind
        (fun assembly => assembly.typeWithToken? info.declaringType) = some declaring →
      ∀ segment ∈ namespacePath declaring, declaring.fullName ≠ segment.label ++ ".") :
    spec.KeepsPromises := by
  obtain ⟨declaring, _, _, found, _, _, _, labelled, path⟩ := methodLeaf_spec made
  refine ⟨?_, fun segment onPath promises => ?_⟩
  · rw [path, List.cons_append, List.pairwise_cons, List.pairwise_append]
    refine ⟨fun _ _ promises => absurd promises Bool.false_ne_true, ?_, List.pairwise_singleton _ _, ?_⟩
    · rcases namespacePath_eq declaring with none | inner
      · rw [none]
        exact List.Pairwise.nil
      · rw [inner]
        exact Clustering.prefixPath_onward (continues_onward declaring.fullName)
    · intro segment inner last single _
      rw [List.mem_singleton.mp single]
      exact continues_of_prefix (mem_namespacePath inner).1 (further declaring found segment inner)
  · rw [path, List.cons_append, List.mem_cons, List.mem_append, List.mem_singleton] at onPath
    rw [labelled]
    rcases onPath with rfl | inner | rfl
    · exact absurd promises Bool.false_ne_true
    · exact continues_append (mem_namespacePath inner).1 info.name
    · exact ⟨info.name, named, rfl⟩

/-- Promises are kept in a view of methods where the names of the listed methods and their types
let them be. -/
theorem keepsPromises_ofCalls {calls : List Call} {listed : List (MethodRef × MethodInfo)}
    (fit : document.LabelsFit .methods) (within : ∀ entry ∈ listed, entry ∈ allMethods document)
    (built : ofCalls document calls listed options = .ok source) :
    source.built.tree.KeepsPromises := by
  obtain ⟨given, specs, tree, mint, _, each, planted, rfl⟩ := ofCalls_eq_ok_iff.mp built
  have made (spec : LeafSpec) (present : spec ∈ specs) :=
    Outcome.exists_of_mem_right (Outcome.mapM_eq_ok_iff.mp each) present
  refine keepsPromises_of_buildHierarchy planted ?_ ?_
  · intro first firstGiven second secondGiven index segment other here there _
    obtain ⟨_, _, firstMade⟩ := made first firstGiven
    obtain ⟨_, _, secondMade⟩ := made second secondGiven
    rw [shortens_of_methodLeaf firstMade here, shortens_of_methodLeaf secondMade there]
  · intro spec present
    obtain ⟨entry, member, here⟩ := made spec present
    obtain ⟨named, extends_⟩ := fit entry.1 entry.2 (within entry member)
    exact keepsPromises_of_methodLeaf here named extends_

end Source

/-- A tree without promises keeps its promises. -/
theorem Tree.keepsPromises_of_promiseless {tree : Tree} (promiseless : tree.Promiseless) :
    tree.KeepsPromises := by
  intro position node parent group _ _ above _ promises
  rw [promiseless group (List.mem_of_getElem? above)] at promises
  cases promises

/-- Whatever the view, the built tree keeps its promises where the names of the data let it. -/
theorem keepsPromises_of_buildSource {kind : ViewKind} {data : ViewData} {options : HierarchyOptions}
    {source : GraphSource} (fit : data.reflection.LabelsFit kind)
    (built : buildSource kind data options = .ok source) : source.built.tree.KeepsPromises := by
  cases kind with
  | references => exact Source.keepsPromises_references fit built
  | methods => exact Source.keepsPromises_ofCalls fit (fun _ listed => listed) built
  | apis =>
    exact Source.keepsPromises_ofCalls fit (fun _ listed => (List.mem_filter.mp listed).1) built
  | custom => exact Tree.keepsPromises_of_promiseless (Source.promiseless_custom built)

end DependencyDiagram

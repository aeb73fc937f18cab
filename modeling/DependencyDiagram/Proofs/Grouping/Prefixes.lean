import DependencyDiagram.Proofs.Grouping.Promises

/-!
# Prefixes of a name

A name has a prefix before each of its separators, except where that is empty or ends in a separator
itself. So the name goes on behind each of its prefixes with a separator, and its longer prefixes do so
behind the shorter ones. What goes on behind a prefix may be nothing more than the separator, but only
in the name, for a prefix never ends in one.
-/

namespace DependencyDiagram

/-- A label goes on behind another with the separator. The label itself is not among its extensions, and
neither is one that merely begins with the same letters. What stands behind the separator may be empty. -/
def Extends (separator : Char) (group label : String) : Prop :=
  ∃ rest, label.toList = group.toList ++ separator :: rest

variable {separator : Char} {group label name leading : String}

/-- Going on with a dot and something more is going on with a dot and not with that alone. -/
theorem continues_iff : Continues group label ↔ Extends '.' group label ∧ label ≠ group ++ "." := by
  constructor
  · rintro ⟨further, more, rfl⟩
    refine ⟨⟨further.toList, by simp [String.toList_append]⟩, fun same => more ?_⟩
    simpa using congrArg String.length same
  · rintro ⟨⟨rest, whole⟩, more⟩
    refine ⟨String.ofList rest, fun nothing => more ?_, ?_⟩
    · obtain rfl := String.ofList_eq_empty_iff.mp nothing
      rw [← String.toList_inj, whole, String.toList_append]
      rfl
    · rw [← String.toList_inj, whole]
      simp [String.toList_append]

/-- A prefix of a name is followed by a separator, is not empty, and does not end in a separator. -/
theorem prefixAt?_eq_some_iff {characters leading : List Char} {position : Nat} :
    prefixAt? separator characters position = some leading ↔
      characters[position]? = some separator ∧ leading = characters.take position ∧ leading ≠ [] ∧
        leading.getLast? ≠ some separator := by
  rw [prefixAt?]
  split
  · rename_i conditions
    rw [Option.some.injEq]
    constructor
    · rintro rfl
      exact ⟨conditions.1, rfl, conditions.2⟩
    · exact fun found => found.2.1.symm
  · rename_i conditions
    constructor
    · exact nofun
    · rintro ⟨dot, rfl, given, last⟩
      exact absurd ⟨dot, given, last⟩ conditions

/-- What stands before a separator and what begins with it. -/
theorem take_append_separator {characters : List Char} {position : Nat}
    (here : characters[position]? = some separator) :
    characters = characters.take position ++ separator :: characters.drop (position + 1) := by
  obtain ⟨inside, same⟩ := List.getElem?_eq_some_iff.mp here
  rw [← same, List.getElem_cons_drop, List.take_append_drop]

/-- The prefixes of a name are what stands before one of its separators, unless that is empty or ends
in a separator. -/
theorem mem_qualifyingPrefixes_iff : leading ∈ qualifyingPrefixes separator name ↔
    leading ≠ "" ∧ leading.toList.getLast? ≠ some separator ∧ Extends separator leading name := by
  constructor
  · intro listed
    obtain ⟨characters, found, rfl⟩ := List.mem_map.mp listed
    obtain ⟨position, _, here⟩ := List.mem_filterMap.mp found
    obtain ⟨dot, rfl, given, last⟩ := prefixAt?_eq_some_iff.mp here
    exact ⟨by simpa using given, by simpa using last, _, by simpa using take_append_separator dot⟩
  · rintro ⟨given, last, rest, whole⟩
    refine List.mem_map.mpr ⟨leading.toList, List.mem_filterMap.mpr ⟨leading.toList.length, ?_, ?_⟩, ?_⟩
    · simp [whole]
    · exact prefixAt?_eq_some_iff.mpr ⟨by simp [whole], by simp [whole], by simpa using given, last⟩
    · exact String.ofList_toList

/-- A name goes on behind its prefixes. -/
theorem extends_of_mem (listed : leading ∈ qualifyingPrefixes separator name) :
    Extends separator leading name :=
  (mem_qualifyingPrefixes_iff.mp listed).2.2

/-- A prefix of a name is not a label with nothing but the separator behind it. -/
theorem ne_append_of_prefix (listed : leading ∈ qualifyingPrefixes '.' name) (group : String) :
    leading ≠ group ++ "." := by
  rintro rfl
  refine (mem_qualifyingPrefixes_iff.mp listed).2.1 ?_
  rw [String.toList_append, List.getLast?_append]
  rfl

/-- The prefixes of a name go on one behind the other. -/
theorem qualifyingPrefixes_onward (separator : Char) (name : String) :
    (qualifyingPrefixes separator name).Pairwise (Extends separator) := by
  rw [qualifyingPrefixes, List.pairwise_map, List.pairwise_filterMap]
  refine List.pairwise_lt_range.imp (fun before short here long there => ?_)
  obtain ⟨dot, rfl, _⟩ := prefixAt?_eq_some_iff.mp here
  obtain ⟨_, rfl, _⟩ := prefixAt?_eq_some_iff.mp there
  have inside := (List.getElem?_take_of_lt before).trans dot
  have whole := take_append_separator inside
  rw [List.take_take, Nat.min_eq_left (Nat.le_of_lt before)] at whole
  exact ⟨_, by simpa using whole⟩

namespace Clustering

/-- The groups for the prefixes of a name all make a promise. -/
theorem mem_prefixPath {segment : Segment} (listed : segment ∈ prefixPath separator name) :
    segment.label ∈ qualifyingPrefixes separator name ∧ segment.shortens = true := by
  obtain ⟨leading, found, rfl⟩ := List.mem_map.mp listed
  exact ⟨found, rfl⟩

/-- The groups for the prefixes of a name are in a relation to those within them in which the prefixes
are. -/
theorem prefixPath_onward {relates : String → String → Prop}
    (onward : (qualifyingPrefixes separator name).Pairwise relates) :
    (prefixPath separator name).Pairwise
      (fun upper lower => upper.shortens = true → relates upper.label lower.label) := by
  rw [prefixPath, List.pairwise_map]
  refine onward.imp ?_
  intro upper lower related _
  exact related

end Clustering

end DependencyDiagram

import DependencyDiagram.Ordered.Table
import DependencyDiagram.Ordered.Collection
import DependencyDiagram.Ordered.Ascending
import Mathlib.Data.List.Induction
import Mathlib.Data.List.Nodup

/-!
# What filled tables and sets hold

A table filled from a list holds under each key the value that came last for it. A set filled from a list
has the members of the list, and so has their ascending list.

The order is that of first occurrence in both. A value that is put under a key again takes the place of
the old one and does not move to the end.
-/

namespace DependencyDiagram

universe u v
variable {κ : Type u} {ν : Type v}

/-- A value put under a new key is listed at the end. -/
theorem putEntry_of_not_mem [DecidableEq κ] {key : κ} {entries : List (κ × ν)}
    (new : key ∉ entries.map Prod.fst) (value : ν) :
    putEntry key value entries = entries ++ [(key, value)] := by
  induction entries with
  | nil => rfl
  | cons entry rest inductionHypothesis =>
    rw [List.map_cons, List.mem_cons, not_or] at new
    rw [putEntry, if_neg (Ne.symm new.1), inductionHypothesis new.2, List.cons_append]

namespace Table

variable [DecidableEq κ]

/-- What is found under a key is what is listed with it. -/
theorem get?_eq_some_iff {table : Table κ ν} {key : κ} {value : ν} :
    table.get? key = some value ↔ (key, value) ∈ table.entries := by
  rw [get?]
  constructor
  · intro found
    obtain ⟨entry, here, rfl⟩ := Option.map_eq_some_iff.mp found
    have same : entry.1 = key := by simpa using List.find?_some here
    exact same ▸ List.mem_of_find?_eq_some here
  · intro listed
    obtain ⟨entry, here⟩ : ∃ entry, table.entries.find? (fun entry => entry.1 = key) = some entry := by
      rw [← Option.isSome_iff_exists, List.find?_isSome]
      exact ⟨(key, value), listed, by simp⟩
    have same : entry.1 = key := by simpa using List.find?_some here
    have whole : entry = (key, value) :=
      List.inj_on_of_nodup_map table.distinct (List.mem_of_find?_eq_some here) listed same
    rw [here, whole]
    rfl

/-- Filling a table from a list puts the last entry last. -/
theorem ofList_concat (entries : List (κ × ν)) (last : κ × ν) :
    ofList (entries ++ [last]) = (ofList entries).put last.1 last.2 := by
  simp [ofList, List.foldl_append]

/-- A table filled with the entries of a table is the same table. -/
theorem ofList_entries (table : Table κ ν) : ofList table.entries = table := by
  obtain ⟨entries, distinct⟩ := table
  suffices same : (ofList entries).entries = entries by
    cases filled : ofList entries
    simp_all
  induction entries using List.reverseRecOn with
  | nil => rfl
  | append_singleton entries last inductionHypothesis =>
    rw [List.map_append, List.nodup_append] at distinct
    obtain ⟨front, _, apart⟩ := distinct
    have filled := inductionHypothesis front
    have new : last.1 ∉ entries.map Prod.fst :=
      fun listed => apart last.1 listed last.1 (List.mem_singleton_self last.1) rfl
    rw [ofList_concat]
    change putEntry last.1 last.2 (ofList entries).entries = _
    rw [filled, putEntry_of_not_mem new]

/-- A filled table holds under a key what came last for it. -/
theorem get?_ofList (entries : List (κ × ν)) (key : κ) :
    (ofList entries).get? key =
      (entries.reverse.find? (fun entry => entry.1 = key)).map Prod.snd := by
  induction entries using List.reverseRecOn with
  | nil => rfl
  | append_singleton entries last inductionHypothesis =>
    rw [ofList_concat, get?_put, inductionHypothesis, List.reverse_append, List.reverse_singleton,
      List.singleton_append, List.find?_cons]
    by_cases here : last.1 = key <;> simp [here]

/-- An entry that no later one replaces is what the filled table holds. -/
theorem get?_ofList_of_last {before after : List (κ × ν)} {key : κ} {value : ν}
    (last : ∀ entry ∈ after, entry.1 ≠ key) :
    (ofList (before ++ (key, value) :: after)).get? key = some value := by
  have none : after.reverse.find? (fun entry => entry.1 = key) = none := by
    simpa [List.find?_eq_none] using last
  rw [get?_ofList, List.reverse_append, List.reverse_cons, List.append_assoc, List.find?_append, none]
  simp

/-- A filled table lists the keys of the list. -/
theorem mem_keys_ofList {entries : List (κ × ν)} {key : κ} :
    key ∈ (ofList entries).keys ↔ key ∈ entries.map Prod.fst := by
  induction entries using List.reverseRecOn with
  | nil => exact Iff.rfl
  | append_singleton entries last inductionHypothesis =>
    rw [ofList_concat, keys_put, List.map_append, List.mem_append, ← inductionHypothesis,
      List.map_singleton, List.mem_singleton]
    by_cases known : last.1 ∈ (ofList entries).keys
    · rw [if_pos known]
      constructor
      · exact Or.inl
      · rintro (listed | rfl)
        · exact listed
        · exact known
    · rw [if_neg known, List.mem_append, List.mem_singleton]

/-- What a filled table holds was listed. -/
theorem mem_of_get?_ofList {entries : List (κ × ν)} {key : κ} {value : ν}
    (found : (ofList entries).get? key = some value) : (key, value) ∈ entries := by
  rw [get?_ofList] at found
  obtain ⟨entry, last, rfl⟩ := Option.map_eq_some_iff.mp found
  have same : entry.1 = key := by simpa using List.find?_some last
  exact same ▸ List.mem_reverse.mp (List.mem_of_find?_eq_some last)

/-- A filled table holds an entry of the list under each key of the list. -/
theorem exists_get?_ofList {entries : List (κ × ν)} {key : κ}
    (listed : key ∈ entries.map Prod.fst) :
    ∃ value, (ofList entries).get? key = some value ∧ (key, value) ∈ entries := by
  obtain ⟨entry, member, rfl⟩ := List.mem_map.mp listed
  obtain ⟨last, found⟩ : ∃ last, entries.reverse.find? (fun other => other.1 = entry.1) = some last := by
    rw [← Option.isSome_iff_exists, List.find?_isSome]
    exact ⟨entry, List.mem_reverse.mpr member, by simp⟩
  have held : (ofList entries).get? entry.1 = some last.2 := by rw [get?_ofList, found, Option.map_some]
  exact ⟨last.2, held, mem_of_get?_ofList held⟩

end Table

namespace Collection

variable [DecidableEq κ]

/-- A set filled from a list has the list's members. -/
theorem mem_ofList {members : List κ} {member : κ} :
    member ∈ (ofList members).members ↔ member ∈ members := by
  induction members using List.reverseRecOn with
  | nil => simp [ofList, empty]
  | append_singleton members last inductionHypothesis =>
    have step : ofList (members ++ [last]) = (ofList members).add last := by
      simp [ofList, List.foldl_append]
    rw [step, mem_add, inductionHypothesis, List.mem_append, List.mem_singleton]

/-- A set filled with the members of a set is the same set. -/
theorem ofList_members (set : Collection κ) : ofList set.members = set := by
  obtain ⟨members, distinct⟩ := set
  suffices same : (ofList members).members = members by
    cases filled : ofList members
    simp_all
  induction members using List.reverseRecOn with
  | nil => rfl
  | append_singleton members last inductionHypothesis =>
    obtain ⟨front, _, apart⟩ := List.nodup_append.mp distinct
    have filled := inductionHypothesis front
    have new : last ∉ (ofList members).members := by
      rw [filled]
      exact fun listed => apart last listed last (List.mem_singleton_self last) rfl
    have step : ofList (members ++ [last]) = (ofList members).add last := by
      simp [ofList, List.foldl_append]
    rw [step, add, dif_neg new]
    exact congrArg (· ++ [last]) filled

/-- Membership decides what a set contains. -/
theorem contains_iff {set : Collection κ} {member : κ} :
    set.contains member = true ↔ member ∈ set.members := by
  rw [contains, decide_eq_true_eq]

/-- Include a member in a set or leave it out. Filters are changed by this, leaf by leaf and group by
group. -/
def switch (set : Collection κ) (member : κ) (included : Bool) : Collection κ :=
  if included then set.add member else set.remove member

/-- Including or leaving out a member decides about that member alone. -/
theorem contains_switch (set : Collection κ) (member other : κ) (included : Bool) :
    (set.switch member included).contains other =
      if other = member then included else set.contains other := by
  rw [Bool.eq_iff_iff, contains_iff]
  cases included with
  | true =>
    simp only [switch, if_true, mem_add]
    by_cases same : other = member <;> simp [same, contains_iff]
  | false =>
    simp only [switch, Bool.false_eq_true, if_false, mem_remove]
    by_cases same : other = member <;> simp [same, contains_iff]

/-- Including or leaving out several members decides about these members alone. -/
theorem contains_switchAll (set : Collection κ) (members : List κ) (other : κ) (included : Bool) :
    (members.foldl (fun set member => set.switch member included) set).contains other =
      if other ∈ members then included else set.contains other := by
  induction members generalizing set with
  | nil => simp
  | cons first rest inductionHypothesis =>
    rw [List.foldl_cons, inductionHypothesis, contains_switch]
    by_cases later : other ∈ rest <;> simp [later]

end Collection

/-- What is found under a key is listed with it. -/
theorem Ascending.mem_of_get? [Ord κ] [Std.TransOrd κ] [Std.LawfulEqOrd κ] {table : Ascending κ ν}
    {key : κ} {value : ν} (found : table.get? key = some value) : (key, value) ∈ table.entries := by
  obtain ⟨entry, here, rfl⟩ := Option.map_eq_some_iff.mp found
  have same : entry.1 = key :=
    Std.LawfulEqOrd.eq_of_compare (by simpa using List.find?_some here)
  exact same ▸ List.mem_of_find?_eq_some here

/-- No key is listed twice. -/
theorem Ascending.nodup_keys [Ord κ] [Std.TransOrd κ] [Std.LawfulEqOrd κ] (table : Ascending κ ν) :
    (table.entries.map Prod.fst).Nodup := by
  refine table.ascending.imp ?_
  rintro left right less rfl
  cases less.symm.trans (Std.ReflCmp.compare_self (a := left))

/-- What is listed with a key is found under it. -/
theorem Ascending.get?_of_mem [Ord κ] [Std.TransOrd κ] [Std.LawfulEqOrd κ] {table : Ascending κ ν}
    {key : κ} {value : ν} (listed : (key, value) ∈ table.entries) : table.get? key = some value := by
  obtain ⟨entry, here⟩ : ∃ entry,
      table.entries.find? (fun entry => compare entry.1 key == .eq) = some entry := by
    rw [← Option.isSome_iff_exists, List.find?_isSome]
    exact ⟨(key, value), listed, by simp⟩
  have same : entry.1 = key :=
    Std.LawfulEqOrd.eq_of_compare (by simpa using List.find?_some here)
  have whole : entry = (key, value) :=
    List.inj_on_of_nodup_map table.nodup_keys (List.mem_of_find?_eq_some here) listed same
  rw [Ascending.get?, here, whole]
  rfl

/-- The first of ascending keys is none of those behind it. -/
theorem AscendingKeys.head_not_mem [Ord κ] [Std.TransOrd κ] {entry : κ × ν} {rest : List (κ × ν)}
    (ascending : AscendingKeys (entry :: rest)) : entry.1 ∉ rest.map Prod.fst := by
  intro listed
  have less := (List.pairwise_cons.mp ascending).1 entry.1 listed
  cases less.symm.trans (Std.ReflCmp.compare_self (a := entry.1))

/-- A key before the first of ascending keys is none of them. -/
theorem AscendingKeys.not_mem_of_lt [Ord κ] [Std.TransOrd κ] {key : κ} {entry : κ × ν}
    {rest : List (κ × ν)} (ascending : AscendingKeys (entry :: rest))
    (before : compare key entry.1 = .lt) : key ∉ (entry :: rest).map Prod.fst := by
  have longer : AscendingKeys ((key, entry.2) :: entry :: rest) := by
    refine List.pairwise_cons.mpr ⟨?_, ascending⟩
    intro other listed
    rcases List.mem_cons.mp listed with rfl | later
    · exact before
    · exact Std.TransCmp.lt_trans before ((List.pairwise_cons.mp ascending).1 other later)
  exact longer.head_not_mem

/-- A key behind all listed ones is listed at the end. -/
theorem insertEntry_of_last [Ord κ] [Std.TransOrd κ] {key : κ} {entries : List (κ × ν)}
    (last : ∀ entry ∈ entries, compare entry.1 key = .lt) (value : ν) :
    insertEntry key value entries = entries ++ [(key, value)] := by
  induction entries with
  | nil => rfl
  | cons entry rest inductionHypothesis =>
    have behind : compare key entry.1 = .gt :=
      Std.OrientedCmp.gt_of_lt (last entry List.mem_cons_self)
    rw [insertEntry, behind]
    dsimp only
    rw [inductionHypothesis (fun other listed => last other (List.mem_cons_of_mem entry listed)),
      List.cons_append]

/-- A table filled with the entries of a table is the same table. -/
theorem Ascending.ofList_entries [Ord κ] [Std.TransOrd κ] [Std.LawfulEqOrd κ]
    (table : Ascending κ ν) : ofList table.entries = table := by
  obtain ⟨entries, ascending⟩ := table
  suffices same : (ofList entries).entries = entries by
    cases filled : ofList entries
    simp_all
  induction entries using List.reverseRecOn with
  | nil => rfl
  | append_singleton entries last inductionHypothesis =>
    rw [AscendingKeys, List.map_append, List.pairwise_append] at ascending
    obtain ⟨front, _, before⟩ := ascending
    have filled := inductionHypothesis front
    have step : ofList (entries ++ [last]) = (ofList entries).put last.1 last.2 := by
      simp [ofList, List.foldl_append]
    rw [step]
    change insertEntry last.1 last.2 (ofList entries).entries = _
    rw [filled]
    refine insertEntry_of_last (fun entry listed => ?_) last.2
    exact before entry.1 (List.mem_map_of_mem listed) last.1 (List.mem_singleton_self last.1)

/-- The ascending list of members has the members of the list. -/
theorem mem_ascendingMembers [Ord κ] [Std.LawfulEqOrd κ] {members : List κ} {member : κ} :
    member ∈ ascendingMembers members ↔ member ∈ members := by
  induction members using List.reverseRecOn with
  | nil => simp [ascendingMembers]
  | append_singleton members last inductionHypothesis =>
    rw [ascendingMembers, List.map_append, List.foldl_append, List.map_singleton,
      List.foldl_cons, List.foldl_nil, mem_keys_insertEntry]
    rw [ascendingMembers] at inductionHypothesis
    rw [inductionHypothesis, List.mem_append, List.mem_singleton, or_comm]

/-- The ascending list of members ascends. -/
theorem ascendingMembers_ascending [Ord κ] [Std.TransOrd κ] [Std.LawfulEqOrd κ] (members : List κ) :
    (ascendingMembers members).Pairwise (fun left right => compare left right = .lt) := by
  have kept : AscendingKeys ((members.map (fun member => (member, ()))).foldl
      (fun entries entry => insertEntry entry.1 entry.2 entries) []) := by
    induction members using List.reverseRecOn with
    | nil => exact List.Pairwise.nil
    | append_singleton members last inductionHypothesis =>
      rw [List.map_append, List.foldl_append]
      exact ascendingKeys_insertEntry last () _ inductionHypothesis
  exact kept

end DependencyDiagram

/-!
# Tables in ascending order of their keys

A table of this kind holds one value per key and lists the keys in strictly ascending
order, whatever the order of insertion. The order is part of the type, so two tables with
the same values under the same keys are equal.
-/

namespace DependencyDiagram

universe u v
variable {κ : Type u} {ν : Type v}

/-- Put a value under a key at the key's place in ascending order. -/
def insertEntry [Ord κ] (key : κ) (value : ν) : List (κ × ν) → List (κ × ν)
  | [] => [(key, value)]
  | entry :: rest =>
    match compare key entry.1 with
    | .lt => (key, value) :: entry :: rest
    | .eq => (key, value) :: rest
    | .gt => entry :: insertEntry key value rest

/-- A key listed after an insertion is the new key or was listed before. -/
theorem mem_keys_insertEntry [Ord κ] [Std.LawfulEqOrd κ] (key other : κ) (value : ν)
    (entries : List (κ × ν)) :
    other ∈ (insertEntry key value entries).map Prod.fst ↔
      other = key ∨ other ∈ entries.map Prod.fst := by
  induction entries with
  | nil => simp [insertEntry]
  | cons entry rest inductionHypothesis =>
    rw [insertEntry]
    cases comparison : compare key entry.1 with
    | lt => simp
    | eq =>
      have same : key = entry.1 := Std.LawfulEqOrd.eq_of_compare comparison
      simp [← same]
    | gt =>
      simp only [List.map_cons, List.mem_cons, inductionHypothesis]
      constructor <;> rintro (one | two | three) <;> simp_all

/-- Keys in strictly ascending order. -/
def AscendingKeys [Ord κ] (entries : List (κ × ν)) : Prop :=
  (entries.map Prod.fst).Pairwise (fun left right => compare left right = .lt)

/-- Ascending order survives an insertion. -/
theorem ascendingKeys_insertEntry [Ord κ] [Std.TransOrd κ] [Std.LawfulEqOrd κ] (key : κ) (value : ν)
    (entries : List (κ × ν)) (ascending : AscendingKeys entries) :
    AscendingKeys (insertEntry key value entries) := by
  induction entries with
  | nil => simp [insertEntry, AscendingKeys]
  | cons entry rest inductionHypothesis =>
    have split := List.pairwise_cons.mp ascending
    rw [insertEntry]
    cases comparison : compare key entry.1 with
    | lt =>
      refine List.pairwise_cons.mpr ⟨?_, ascending⟩
      intro other listed
      rcases List.mem_cons.mp listed with equal | later
      · rw [equal]
        exact comparison
      · exact Std.TransCmp.lt_trans comparison (split.1 other later)
    | eq =>
      have same : key = entry.1 := Std.LawfulEqOrd.eq_of_compare comparison
      subst same
      exact ascending
    | gt =>
      refine List.pairwise_cons.mpr ⟨?_, inductionHypothesis split.2⟩
      intro other listed
      rcases (mem_keys_insertEntry key other value rest).mp listed with equal | later
      · rw [equal]
        exact Std.OrientedCmp.lt_of_gt comparison
      · exact split.1 other later

/-- One value per key, keys in strictly ascending order. Entering the same pairs in another
order gives the same table, as long as no key repeats. -/
structure Ascending (κ : Type u) (ν : Type v) [Ord κ] where
  entries : List (κ × ν)
  ascending : AscendingKeys entries
deriving DecidableEq, Repr

namespace Ascending

/-- The table without keys. -/
def empty [Ord κ] : Ascending κ ν := ⟨[], by simp [AscendingKeys]⟩

instance [Ord κ] : Inhabited (Ascending κ ν) := ⟨empty⟩

variable [Ord κ] [Std.TransOrd κ] [Std.LawfulEqOrd κ]

/-- The keys in ascending order. -/
def keys (table : Ascending κ ν) : List κ := table.entries.map Prod.fst

/-- The values in the order of their keys. -/
def values (table : Ascending κ ν) : List ν := table.entries.map Prod.snd

/-- The value under a key. -/
def get? (table : Ascending κ ν) (key : κ) : Option ν :=
  (table.entries.find? (fun entry => compare entry.1 key == .eq)).map Prod.snd

/-- Put a value under a key, in place of an earlier one. -/
def put (table : Ascending κ ν) (key : κ) (value : ν) : Ascending κ ν :=
  ⟨insertEntry key value table.entries,
    ascendingKeys_insertEntry key value table.entries table.ascending⟩

/-- The table filled from a list; later values replace earlier ones. -/
def ofList (entries : List (κ × ν)) : Ascending κ ν :=
  entries.foldl (fun table entry => table.put entry.1 entry.2) empty

end Ascending

/-- The distinct members of a list in ascending order. -/
def ascendingMembers [Ord κ] (members : List κ) : List κ :=
  ((members.map (fun member => (member, ()))).foldl
    (fun entries entry => insertEntry entry.1 entry.2 entries) []).map Prod.fst

/-- Texts are ordered by their characters, and a repeated member is listed once. -/
example :
    ascendingMembers ["b", "a.b", "a", "b"] = ["a", "a.b", "b"] := by decide

end DependencyDiagram

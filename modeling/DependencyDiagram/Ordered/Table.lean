/-!
# Tables in order of insertion

A table holds one value per key and lists its keys in the order in which they first came.
Replacing a value keeps the key's position. That no key is listed twice is part of the
type, so every operation that builds a table proves it.
-/

namespace DependencyDiagram

universe u v w
variable {κ : Type u} {ν : Type v} {μ : Type w}

/-- Replace the value of a listed key in place, or list the key at the end. -/
def putEntry [DecidableEq κ] (key : κ) (value : ν) : List (κ × ν) → List (κ × ν)
  | [] => [(key, value)]
  | entry :: rest =>
    if entry.1 = key then (key, value) :: rest else entry :: putEntry key value rest

/-- Putting a value lists the key once more only if it was not listed before. -/
theorem keys_putEntry [DecidableEq κ] (key : κ) (value : ν) (entries : List (κ × ν)) :
    (putEntry key value entries).map Prod.fst =
      if key ∈ entries.map Prod.fst then entries.map Prod.fst else entries.map Prod.fst ++ [key] := by
  induction entries with
  | nil => simp [putEntry]
  | cons entry rest inductionHypothesis =>
    by_cases same : entry.1 = key
    · simp [putEntry, same]
    · have different : ¬ key = entry.1 := fun equal => same equal.symm
      by_cases later : key ∈ rest.map Prod.fst
      · rw [if_pos later] at inductionHypothesis
        rw [putEntry, if_neg same, List.map_cons, List.map_cons, inductionHypothesis,
          if_pos (List.mem_cons_of_mem _ later)]
      · rw [if_neg later] at inductionHypothesis
        rw [putEntry, if_neg same, List.map_cons, List.map_cons, inductionHypothesis,
          if_neg (by simp only [List.mem_cons, not_or]; exact ⟨different, later⟩), List.cons_append]

/-- Distinct keys stay distinct. -/
theorem nodup_keys_putEntry [DecidableEq κ] (key : κ) (value : ν) (entries : List (κ × ν))
    (distinct : (entries.map Prod.fst).Nodup) :
    ((putEntry key value entries).map Prod.fst).Nodup := by
  rw [keys_putEntry]
  split
  · exact distinct
  · next absent =>
    rw [List.nodup_append]
    exact ⟨distinct, by simp, by
      intro left listed right single
      rw [List.mem_singleton] at single
      subst single
      intro equal
      exact absent (equal ▸ listed)⟩

/-- One value per key, keys in the order in which they first came. -/
structure Table (κ : Type u) (ν : Type v) where
  entries : List (κ × ν)
  distinct : (entries.map Prod.fst).Nodup
deriving DecidableEq, Repr

namespace Table

/-- The table without keys. -/
def empty : Table κ ν := ⟨[], by simp⟩

instance : Inhabited (Table κ ν) := ⟨empty⟩

/-- The keys in order of insertion. -/
def keys (table : Table κ ν) : List κ := table.entries.map Prod.fst

/-- The values in the order of their keys. -/
def values (table : Table κ ν) : List ν := table.entries.map Prod.snd

/-- The number of keys. -/
def size (table : Table κ ν) : Nat := table.entries.length

/-- True of the table without keys only. -/
def isEmpty (table : Table κ ν) : Bool := table.entries.isEmpty

section Keyed

variable [DecidableEq κ]

/-- The value under a key. -/
def get? (table : Table κ ν) (key : κ) : Option ν :=
  (table.entries.find? (fun entry => entry.1 = key)).map Prod.snd

/-- A key is listed. -/
def contains (table : Table κ ν) (key : κ) : Bool := table.entries.any (fun entry => entry.1 = key)

/-- Put a value under a key. A listed key keeps its position. -/
def put (table : Table κ ν) (key : κ) (value : ν) : Table κ ν :=
  ⟨putEntry key value table.entries, nodup_keys_putEntry key value table.entries table.distinct⟩

/-- Change the value under a key, if the key is listed. -/
def adjust (table : Table κ ν) (key : κ) (change : ν → ν) : Table κ ν where
  entries := table.entries.map (fun entry =>
    if entry.1 = key then (entry.1, change entry.2) else entry)
  distinct := by
    have same : (table.entries.map (fun entry =>
        if entry.1 = key then (entry.1, change entry.2) else entry)).map Prod.fst =
          table.entries.map Prod.fst := by
      rw [List.map_map]
      apply List.map_congr_left
      intro entry _
      by_cases equal : entry.1 = key <;> simp [equal]
    rw [same]
    exact table.distinct

/-- The value under a key, after listing the key with a given value if need be. -/
def getOrPut (table : Table κ ν) (key : κ) (value : ν) : ν × Table κ ν :=
  match table.get? key with
  | some present => (present, table)
  | none => (value, table.put key value)

/-- All entries of two tables. The second wins where both list a key. -/
def combine (first second : Table κ ν) : Table κ ν :=
  second.entries.foldl (fun table entry => table.put entry.1 entry.2) first

/-- The table filled from a list; later values replace earlier ones. -/
def ofList (entries : List (κ × ν)) : Table κ ν :=
  entries.foldl (fun table entry => table.put entry.1 entry.2) empty

/-- Putting a value lists the key once more only if it was not listed before. -/
theorem keys_put (table : Table κ ν) (key : κ) (value : ν) :
    (table.put key value).keys = if key ∈ table.keys then table.keys else table.keys ++ [key] :=
  keys_putEntry key value table.entries

/-- A key is found exactly where it is listed. -/
theorem contains_iff (table : Table κ ν) (key : κ) : table.contains key = true ↔ key ∈ table.keys := by
  simp [contains, keys]

/-- A value put under a key is the value found there, and no other key is touched. -/
theorem get?_put (table : Table κ ν) (key other : κ) (value : ν) :
    (table.put key value).get? other = if key = other then some value else table.get? other := by
  obtain ⟨entries, distinct⟩ := table
  simp only [get?, put]
  clear distinct
  induction entries with
  | nil => by_cases same : key = other <;> simp [putEntry, same]
  | cons entry rest inductionHypothesis =>
    by_cases here : entry.1 = key
    · by_cases same : key = other <;> simp [putEntry, here, same]
    · by_cases found : entry.1 = other
      · have different : ¬ other = key := fun equal => here (found.trans equal)
        have reversed : ¬ key = other := fun equal => different equal.symm
        simp [putEntry, found, different, reversed]
      · simpa [putEntry, here, found] using inductionHypothesis

end Keyed

end Table

end DependencyDiagram

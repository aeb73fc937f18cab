/-!
# Sets in order of insertion

A set lists its members in the order in which they came. Adding a listed member changes
nothing, removing one keeps the order of the rest, and two sets are alike when they have
the same members in whatever order. That no member is listed twice is part of the type.
-/

namespace DependencyDiagram

universe u

/-- Distinct members in the order in which they came. Equality of sets includes the order;
where it must not matter, the sets are compared by what they answer. -/
structure Collection (α : Type u) where
  members : List α
  distinct : members.Nodup
deriving DecidableEq, Repr

namespace Collection

variable {α : Type u}

/-- The set without members. -/
def empty : Collection α := ⟨[], List.nodup_nil⟩

instance : Inhabited (Collection α) := ⟨empty⟩

/-- The number of members. -/
def size (set : Collection α) : Nat := set.members.length

/-- True of the set without members only. -/
def isEmpty (set : Collection α) : Bool := set.members.isEmpty

variable [DecidableEq α]

/-- Membership. -/
def contains (set : Collection α) (member : α) : Bool := decide (member ∈ set.members)

/-- Add a member at the end, unless it is listed already. -/
def add (set : Collection α) (member : α) : Collection α :=
  if absent : member ∈ set.members then set
  else
    { members := set.members ++ [member]
      distinct := by
        rw [List.nodup_append]
        refine ⟨set.distinct, by simp, ?_⟩
        intro left listed right single equal
        rw [List.mem_singleton] at single
        exact absent (single ▸ equal ▸ listed) }

/-- Remove a member; the others keep their order. -/
def remove (set : Collection α) (member : α) : Collection α :=
  ⟨set.members.filter (· ≠ member), set.distinct.filter _⟩

/-- The members of a list, each at its first place. -/
def ofList (members : List α) : Collection α := members.foldl add empty

/-- Two sets have the same members. -/
def alike (left right : Collection α) : Bool :=
  left.members.all right.contains && right.members.all left.contains

/-- Membership after an addition. -/
theorem mem_add (set : Collection α) (member other : α) :
    other ∈ (set.add member).members ↔ other ∈ set.members ∨ other = member := by
  by_cases listed : member ∈ set.members
  · simp only [add, listed, dite_true]
    constructor
    · exact Or.inl
    · rintro (present | rfl)
      · exact present
      · exact listed
  · simp [add, listed]

/-- Membership after a removal. -/
theorem mem_remove (set : Collection α) (member other : α) :
    other ∈ (set.remove member).members ↔ other ∈ set.members ∧ other ≠ member := by
  simp [remove]

end Collection

end DependencyDiagram

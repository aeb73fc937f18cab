import DependencyDiagram.Json.Fields
import DependencyDiagram.Proofs.Json.RoundTrip

/-!
# Records, lists and maps are read back

Of the members of an object a record takes those that name its fields, and finds each of them as it was
given. A writer and a reader of one kind of values are faithful if whatever the one writes is well
spelled and the other reads it as the value that was written. A writer and a reader that are faithful
give such ones for lists and for the entries of a map. So faithfulness is shown once for each kind of
record, from the faithfulness of its fields.
-/

namespace DependencyDiagram.Json

/-- Members that are each read back are read back one after the other. -/
theorem mapM_read_map {α β : Type} {write : α → β} {read : β → Option α}
    (back : ∀ item, read (write item) = some item) (items : List α) :
    (items.map write).mapM read = some items := by
  have each : read ∘ write = pure := funext back
  rw [List.mapM_map, each, List.mapM_pure, List.map_id']
  rfl

/-- Where no key of an object repeats, a record takes the members that name its fields. -/
theorem fields?_filter {members : List (String × Json)} (distinct : (members.map Prod.fst).Nodup)
    (names : List String) :
    (ofMembers members).fields? names =
      some ⟨members.filter (fun member => names.contains member.1)⟩ := by
  have keyed : (members.map (fun member => (spell member.1, member.2))).mapM
      (fun member => do return (← unspell? member.1, member.2)) = some members :=
    mapM_read_map (fun member => by rw [unspell?_spell]; rfl) members
  have given : ((members.filter (fun member => names.contains member.1)).map Prod.fst).Nodup :=
    distinct.sublist (List.filter_sublist.map Prod.fst)
  change (members.map (fun member => (spell member.1, member.2))).mapM
    (fun member => do return (← unspell? member.1, member.2)) >>= _ = _
  rw [keyed]
  simp only [Option.bind_eq_bind, Option.bind_some, if_pos given]

/-- The members of an object are the fields of a record that names all of them. -/
theorem fields?_ofMembers {names : List String} {members : List (String × Json)}
    (named : ∀ member ∈ members, names.contains member.1 = true)
    (distinct : (members.map Prod.fst).Nodup) : (ofMembers members).fields? names = some ⟨members⟩ := by
  rw [fields?_filter distinct, List.filter_eq_self.mpr named]

/-- A natural number within the bound is read back as a value. -/
theorem nat?_ofNat (bound value : Nat) :
    nat? bound (ofNat value) = if value ≤ bound then some value else none :=
  wholeNumber?_toString bound value

/-- A digit is spelled by itself. -/
theorem spellCharacter_of_isDigit {character : Char} (digit : character.isDigit = true) :
    spellCharacter character = [character] := by
  unfold spellCharacter
  split
  case h_8 =>
    have printable : ¬ character.toNat < 32 := by
      rw [Char.isDigit, Bool.and_eq_true, decide_eq_true_eq] at digit
      have lower : 48 ≤ character.toNat := digit.1
      omega
    rw [if_neg printable]
  all_goals exact absurd digit (by decide)

/-- The text of a number is spelled by itself. -/
theorem spell_toString (value : Nat) : spell (toString value) = toString value := by
  have each : (toString value).toList.flatMap spellCharacter = (toString value).toList.flatMap ([·]) :=
    List.flatMap_congr (fun _ listed => spellCharacter_of_isDigit (isDigit_of_mem_toString listed))
  rw [spell, each, List.flatMap_singleton', String.ofList_toList]

/-- A writer and a reader of values are faithful: whatever is written is well spelled, and it is read
back. Being well spelled is part of it, because only such values survive being written as a text. -/
structure Faithful {α : Type} (write : α → Json) (read : Json → Option α) : Prop where
  wellSpelled : ∀ value, (write value).WellSpelled
  readBack : ∀ value, read (write value) = some value

/-- Texts are read back. -/
theorem faithful_text : Faithful ofText text? := ⟨wellSpelled_ofText, unspell?_spell⟩

/-- A text is read back where there may be none. -/
theorem nullable?_ofText (text : String) : nullable? text? (ofText text) = some (some text) :=
  congrArg (Option.map some) (unspell?_spell text)

namespace Faithful

variable {α : Type} {write : α → Json} {read : Json → Option α}

/-- Lists of values that are read back are read back. -/
theorem list (faithful : Faithful write read) :
    Faithful (fun items => array (items.map write)) (list? read) where
  wellSpelled items := by
    refine .array (fun item listed => ?_)
    obtain ⟨value, _, rfl⟩ := List.mem_map.mp listed
    exact faithful.wellSpelled value
  readBack := mapM_read_map faithful.readBack

/-- The entries of a map are read back if its values are and its keys can be told from their
spelling. -/
theorem entries {κ : Type} {text : κ → String} {readKey : String → Option κ}
    (faithful : Faithful write read) (keys : ∀ key, readKey (spell (text key)) = some key) :
    Faithful (fun entries => ofMembers (entries.map (fun entry => (text entry.1, write entry.2))))
      (entries? readKey read) where
  wellSpelled entries := by
    refine wellSpelled_ofMembers (fun member listed => ?_)
    obtain ⟨entry, _, rfl⟩ := List.mem_map.mp listed
    exact faithful.wellSpelled entry.2
  readBack entries := by
    rw [ofMembers, List.map_map]
    refine mapM_read_map (fun entry => ?_) entries
    simp [keys, faithful.readBack]

end Faithful

end DependencyDiagram.Json

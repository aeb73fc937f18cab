/-!
# Closed vocabularies

Several notions have a fixed list of values, each with one word in text: the tags of
identifiers, the views, the shapes of boxes, the kinds of failure. A vocabulary lists its
values and names them, with proofs that no value is left out and that no word stands for
two values. Reading a word then undoes writing it, and refuses every other text.
-/

namespace DependencyDiagram

/-- A type with finitely many values, each named by a word of its own. To give an instance
is to list the values, and the two proofs are then found by deciding. -/
class Vocabulary (α : Type) where
  values : List α
  word : α → String
  complete : ∀ value : α, value ∈ values
  distinct : ∀ left right : α, word left = word right → left = right

namespace Vocabulary

variable {α : Type} [Vocabulary α]

/-- The value that a word stands for. -/
def read? (text : String) : Option α := values.find? (fun value : α => word value == text)

/-- A word reads back as its own value. -/
theorem read_word (value : α) : read? (word value) = some value := by
  have found : (read? (word value) : Option α).isSome := by
    rw [read?, List.find?_isSome]
    exact ⟨value, complete value, by simp⟩
  obtain ⟨other, reading⟩ := Option.isSome_iff_exists.mp found
  have same : word other = word value := by
    simpa using List.find?_some reading
  rw [reading, distinct other value same]

/-- Reading succeeds on the words of the vocabulary only. -/
theorem word_of_read {text : String} {value : α} (reading : read? text = some value) :
    word value = text := by
  simpa using List.find?_some reading

end Vocabulary

end DependencyDiagram

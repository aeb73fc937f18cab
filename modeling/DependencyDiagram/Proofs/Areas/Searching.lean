import DependencyDiagram.Areas.Area
import Mathlib.Data.List.Infix

/-!
# Searching an image map

A search for the occurrences of a pattern can be followed piece by piece: it passes over a piece
in which no occurrence begins, and behind an occurrence it goes on as if the text began there.

An image map is a sequence of area elements with other text around them. An element may hold any
text that does not close it, and what stands around elements may be any text in which none begins.
The search finds exactly the elements, in order, whatever stands between them.
-/

namespace DependencyDiagram

namespace Text

universe u
variable {α : Type u} {pattern : List Char → Option (α × Nat)} {piece rest : List Char} {value : α}

/-- Reading up to a mark gives what stands in front of it. -/
theorem takeWhile_append_mark {keep : Char → Bool} {mark : Char}
    (kept : ∀ character ∈ piece, keep character = true) (ends : keep mark = false) :
    (piece ++ mark :: rest).takeWhile keep = piece := by
  rw [List.takeWhile_append_of_pos kept, List.takeWhile_cons_of_neg (Bool.not_eq_true _ ▸ ends),
    List.append_nil]

/-- Reading up to a character that a piece does not hold gives the piece in front of it. -/
theorem takeWhile_append_of_not_mem {mark : Char} (without : mark ∉ piece) :
    (piece ++ mark :: rest).takeWhile (· != mark) = piece :=
  takeWhile_append_mark (fun _ listed => bne_iff_ne.mpr (fun same => without (same ▸ listed)))
    (bne_self_eq_false mark)

/-- Behind the characters of an occurrence the search goes on as at the beginning of a text. -/
theorem partsBehind_eq_parts (skipped : Nat) (characters : List Char) :
    partsBehind pattern skipped characters = parts pattern (characters.drop skipped) := by
  induction skipped generalizing characters with
  | zero => rfl
  | succ skipped inductionHypothesis =>
    cases characters with
    | nil => rfl
    | cons character rest =>
      rw [partsBehind, inductionHypothesis]
      rfl

/-- A piece at the beginning of a text that is an occurrence is its first part. -/
theorem parts_of_occurrence (given : piece ≠ [])
    (found : pattern (piece ++ rest) = some (value, piece.length)) :
    parts pattern (piece ++ rest) = .occurrence value :: parts pattern rest := by
  cases piece with
  | nil => exact absurd rfl given
  | cons character further =>
    rw [List.cons_append] at found ⊢
    rw [parts, partsBehind, found]
    dsimp only
    rw [partsBehind_eq_parts, List.length_cons, Nat.add_sub_cancel, List.drop_left]

/-- A character at which no occurrence begins is passed over. -/
theorem parts_cons {character : Char} (passed : pattern (character :: rest) = none) :
    parts pattern (character :: rest) = .passed character :: parts pattern rest := by
  rw [parts, partsBehind, passed]
  rfl

/-- A piece that is an occurrence is the first one. -/
theorem occurrences_of_occurrence (given : piece ≠ [])
    (found : pattern (piece ++ rest) = some (value, piece.length)) :
    occurrences pattern (piece ++ rest) = value :: occurrences pattern rest := by
  rw [occurrences, parts_of_occurrence given found, List.filterMap_cons]
  rfl

/-- A character at which no occurrence begins adds none. -/
theorem occurrences_cons {character : Char} (passed : pattern (character :: rest) = none) :
    occurrences pattern (character :: rest) = occurrences pattern rest := by
  rw [occurrences, parts_cons passed, List.filterMap_cons]
  rfl

/-- No occurrence begins in a piece of text in front of a rest. An occurrence that began in the piece
might reach into the rest, which is why the rest is part of the condition. -/
def Passes (pattern : List Char → Option (α × Nat)) (piece rest : List Char) : Prop :=
  ∀ later, later ≠ [] → later <:+ piece → pattern (later ++ rest) = none

/-- A piece in which no occurrence begins has none. -/
theorem occurrences_of_passes (passes : Passes pattern piece rest) :
    occurrences pattern (piece ++ rest) = occurrences pattern rest := by
  induction piece with
  | nil => rfl
  | cons character further inductionHypothesis =>
    have here := passes (character :: further) (List.cons_ne_nil _ _) List.suffix_rfl
    rw [List.cons_append] at here ⊢
    rw [occurrences_cons here]
    exact inductionHypothesis (fun later given ends =>
      passes later given (ends.trans (List.suffix_cons character further)))

/-- A piece that is an occurrence is replaced. -/
theorem replaceOccurrences_of_occurrence {pattern : List Char → Option (List Char × Nat)}
    {replacement : List Char} (given : piece ≠ [])
    (found : pattern (piece ++ rest) = some (replacement, piece.length)) :
    replaceOccurrences pattern (piece ++ rest) = replacement ++ replaceOccurrences pattern rest := by
  rw [replaceOccurrences, parts_of_occurrence given found, List.flatMap_cons]
  rfl

/-- A character at which no occurrence begins stays. -/
theorem replaceOccurrences_cons {pattern : List Char → Option (List Char × Nat)} {character : Char}
    (passed : pattern (character :: rest) = none) :
    replaceOccurrences pattern (character :: rest) = character :: replaceOccurrences pattern rest := by
  rw [replaceOccurrences, parts_cons passed, List.flatMap_cons]
  rfl

end Text

namespace Areas

/-- An area element: its name ends where the body begins, and nothing in the body closes it. That the
name ends is needed, or the text might be an element with a longer name. -/
structure Element where
  body : List Char
  parted : body.head?.any Text.isWordCharacter = false
  unclosed : '>' ∉ body

namespace Element

/-- An element as it is written. -/
def text (element : Element) : List Char := "<area".toList ++ element.body ++ ['>']

/-- What an element says, with the entities in its values replaced. -/
def attributes (element : Element) : List (String × String) :=
  attributesOf (withoutSlash element.body)

/-- An element in a text is an occurrence. It is matched as a whole, from its name to the bracket that
closes it, since a well-formed body holds no such bracket and does not run on from the name. -/
theorem elementPattern_text (element : Element) (rest : List Char) :
    elementPattern (element.text ++ rest) =
      some (withoutSlash element.body, element.text.length) := by
  have begins : "<area".toList.isPrefixOf? (element.text ++ rest) =
      some (element.body ++ '>' :: rest) := by
    unfold text
    rw [List.isPrefixOf?_eq_some_iff_append_eq]
    simp only [List.append_assoc, List.singleton_append]
  have parted : (element.body ++ '>' :: rest).head?.any Text.isWordCharacter = false := by
    have own := element.parted
    rw [List.head?_append, List.head?_cons]
    cases first : element.body.head? with
    | none => exact (by decide : Text.isWordCharacter '>' = false)
    | some character =>
      rw [first] at own
      exact own
  have body : (element.body ++ '>' :: rest).takeWhile (· != '>') = element.body :=
    Text.takeWhile_append_of_not_mem element.unclosed
  have name : "<area".toList.length = 5 := by decide
  have length : element.text.length = 5 + element.body.length + 1 := by
    unfold text
    rw [List.length_append, List.length_append, List.length_singleton, name]
  simp only [elementPattern, begins, parted, body]
  rw [if_neg Bool.false_ne_true, if_pos (by simp), length]

end Element

/-- Text in which no area element begins. Text without an opening bracket is of this kind, and so
are the elements of other names. -/
def IsGap (text : List Char) : Prop := ¬ "<area".toList <:+: text

instance (text : List Char) : Decidable (IsGap text) := inferInstanceAs (Decidable (¬ _))

/-- Text without an opening bracket is a gap. -/
theorem isGap_of_not_mem {text : List Char} (none : '<' ∉ text) : IsGap text :=
  fun inside => none (inside.subset (by decide))

/-- An image map: elements with gaps around them. -/
inductive Lists : List Element → List Char → Prop where
  | none {gap : List Char} (isGap : IsGap gap) : Lists [] gap
  | next {gap : List Char} {element : Element} {elements : List Element} {markup : List Char}
      (isGap : IsGap gap) (further : Lists elements markup) :
      Lists (element :: elements) (gap ++ (element.text ++ markup))

/-- Elements with nothing between them make an image map. -/
theorem lists_flatMap (elements : List Element) :
    Lists elements (String.ofList (elements.flatMap Element.text)).toList := by
  have gap : IsGap [] := isGap_of_not_mem List.not_mem_nil
  rw [String.toList_ofList]
  induction elements with
  | nil => exact .none gap
  | cons element rest inductionHypothesis => exact .next gap inductionHypothesis

/-- No element begins in a gap, in front of an element or at the end. A gap may end with the beginning of
the name, so that an element could begin in it and go on in the text behind it. It would have to go on
with the bracket that opens the next element, and the name has no second bracket. -/
theorem passes_of_isGap {gap rest : List Char} (isGap : IsGap gap)
    (follows : rest.head?.all (· == '<') = true) : Text.Passes elementPattern gap rest := by
  intro later given ends
  have none : "<area".toList.isPrefixOf? (later ++ rest) = none := by
    rw [← Option.not_isSome_iff_eq_none, List.isSome_isPrefixOf?_eq_isPrefixOf, List.isPrefixOf_iff_prefix]
    intro begins
    rcases List.prefix_or_prefix_of_prefix begins (List.prefix_append later rest) with inside | short
    · exact isGap (inside.isInfix.trans ends.isInfix)
    · obtain ⟨name, whole⟩ := short
      rw [← whole, List.prefix_append_right_inj] at begins
      cases name with
      | nil => exact isGap (whole ▸ (List.append_nil later).symm ▸ ends.isInfix)
      | cons bracket tail =>
        -- the name would have to go on with the bracket that follows the gap
        obtain ⟨more, rfl⟩ := begins
        obtain ⟨first, further, rfl⟩ := List.exists_cons_of_ne_nil given
        obtain rfl : bracket = '<' := by simpa using follows
        have opening : "<area".toList = '<' :: "area".toList := by decide
        have inside : '<' ∈ "area".toList := by
          rw [← (List.cons.inj (whole.trans opening)).2]
          exact List.mem_append_right _ List.mem_cons_self
        exact absurd inside (by decide)
  rw [elementPattern, none]

/-- The occurrences of the pattern in an image map are its elements. -/
theorem occurrences_of_lists {elements : List Element} {characters : List Char}
    (listed : Lists elements characters) : Text.occurrences elementPattern characters =
      elements.map (fun element => withoutSlash element.body) := by
  induction listed with
  | @none gap isGap =>
    have atEnd : ([] : List Char).head?.all (· == '<') = true := rfl
    have passed := Text.occurrences_of_passes (passes_of_isGap isGap atEnd)
    rwa [List.append_nil] at passed
  | @next gap element elements markup isGap further inductionHypothesis =>
    have given : element.text ≠ [] := fun none => by cases none
    rw [Text.occurrences_of_passes (passes_of_isGap isGap rfl),
      Text.occurrences_of_occurrence given (element.elementPattern_text markup), inductionHypothesis,
      List.map_cons]

/-- The search finds what the elements of an image map say, in order. -/
theorem elementsOf_of_lists {elements : List Element} {markup : String}
    (listed : Lists elements markup.toList) : elementsOf markup = elements.map Element.attributes := by
  rw [elementsOf, occurrences_of_lists listed, List.map_map]
  rfl

end Areas

end DependencyDiagram

/-!
# Replacing a character

The replacement of a character in a text passes over the text once. It writes what takes the
character's place wherever the search finds it, and copies the stretches between two findings.
So each character of the text is replaced by itself or kept by itself, whatever stands around it.
-/

namespace DependencyDiagram.Text

open String.Slice.Pattern

/-- What stands in the place of a character after every `old` was replaced by `new`. -/
def substituted (old : Char) (new : String) (character : Char) : List Char :=
  if character = old then new.toList else [character]

/-- Where the replaced character does not occur, nothing changes. -/
theorem flatMap_substituted_of_notMem {old : Char} {new : String} {characters : List Char}
    (absent : old ∉ characters) : characters.flatMap (substituted old new) = characters := by
  induction characters with
  | nil => rfl
  | cons character rest inductionHypothesis =>
    rw [List.mem_cons, not_or] at absent
    rw [List.flatMap_cons, inductionHypothesis absent.2, substituted, if_neg (Ne.symm absent.1),
      List.singleton_append]

variable {slice : String.Slice} {start stop : slice.Pos} {old : Char} {new : String}

/-- The text from a position on is the stretch up to a later position with the text from there. -/
theorem copy_sliceFrom_eq_append (before : start ≤ stop) :
    (slice.sliceFrom start).copy =
      (slice.slice start stop before).copy ++ (slice.sliceFrom stop).copy := by
  obtain ⟨_, _, first, second⟩ := String.Slice.copy_slice_eq_iff_splits.mp ⟨before, rfl⟩
  rw [first.copy_sliceFrom_eq, second.copy_sliceFrom_eq]

/-- A stretch in which no position is found does not hold the character that is sought. -/
theorem notMem_copy_slice (before : start ≤ stop)
    (unfound : ∀ position, start ≤ position → position < stop → ¬ Model.MatchesAt old position) :
    old ∉ (slice.slice start stop before).copy.toList := by
  intro listed
  obtain ⟨position, inside, read⟩ := String.Slice.mem_toList_copy_iff_exists_get.mp listed
  rw [String.Slice.Pos.get_eq_get_ofSlice] at read
  refine unfound (.ofSlice position) String.Slice.Pos.le_ofSlice ?_
    (Model.Char.matchesAt_iff.mpr ⟨_, read⟩)
  refine Std.lt_of_le_of_ne String.Slice.Pos.ofSlice_le (fun atEnd => inside ?_)
  exact (String.Slice.Pos.ofSlice_inj _ _).mp (atEnd.trans String.Slice.Pos.ofSlice_endPos.symm)

/-- Go on with a text by one step of the search: what was found is replaced, what was passed over is
copied. It follows the search of the library, so that nothing has to be assumed about how it replaces. -/
def appendStep (new sofar : String) : SearchStep slice → String
  | .matched _ _ => sofar ++ new
  | .rejected first last => sofar ++ slice.slice! first last

/-- The steps of a search from a position on write the text from there with each character replaced
or kept. -/
theorem toList_foldl_appendStep {steps : List (SearchStep slice)}
    (search : Model.IsValidSearchFrom old start steps) (sofar : String) :
    (steps.foldl (appendStep new) sofar).toList =
      sofar.toList ++ (slice.sliceFrom start).copy.toList.flatMap (substituted old new) := by
  induction search generalizing sofar with
  | endPos => simp
  | matched found _ inductionHypothesis =>
    obtain ⟨inside, rfl, read⟩ := Model.Char.isLongestMatchAt_iff.mp found
    rw [List.foldl_cons, inductionHypothesis,
      (String.Slice.Pos.splits_next_right _ inside).copy_sliceFrom_eq, read]
    simp [appendStep, substituted]
  | @mismatched steps first last apart unfound _ inductionHypothesis =>
    have before : first ≤ last := Std.le_of_lt apart
    have kept : (slice.slice first last before).copy.toList.flatMap (substituted old new) =
        (slice.slice first last before).copy.toList :=
      flatMap_substituted_of_notMem (notMem_copy_slice before unfound)
    rw [List.foldl_cons, inductionHypothesis, copy_sliceFrom_eq_append before,
      String.toList_append, List.flatMap_append, kept, appendStep,
      ← String.Slice.slice_eq_slice! (h := before)]
    simp

/-- A replacement is written step by step as the text is searched. -/
theorem replace_eq_foldl (text : String) (old : Char) (new : String) :
    text.replace old new =
      (ToForwardSearcher.toSearcher old text.toSlice).toList.foldl
        (appendStep new) "" := by
  have copied : (String.ToSlice.toSlice new).copy = new := String.copy_toSlice
  rw [String.replace, String.Slice.replace, ← Std.Iter.foldl_toList]
  congr 1
  funext sofar step
  cases step with
  | matched first last => simp [appendStep, copied]
  | rejected first last => rfl

/-- A character is replaced in a text wherever it stands, and every other character is kept. -/
theorem toList_replace (text : String) (old : Char) (new : String) :
    (text.replace old new).toList = text.toList.flatMap (substituted old new) := by
  have search : Model.IsValidSearchFrom old text.toSlice.startPos
      (ToForwardSearcher.toSearcher old text.toSlice).toList :=
    Model.LawfulToForwardSearcherModel.isValidSearchFrom_toList _
  rw [replace_eq_foldl, toList_foldl_appendStep search, String.toList_empty, List.nil_append,
    String.Slice.sliceFrom_startPos, String.copy_toSlice]

end DependencyDiagram.Text

import DependencyDiagram.Proofs.Areas.Searching
import DependencyDiagram.Proofs.Identity.Spellings
import Mathlib.Data.Bool.AllAny

/-!
# Entities

A renderer writes the value of an attribute character by character: a character stands for itself, unless
it is one of four that could be mistaken for markup, or it is written as an entity. An entity is one of
five names, or the code point in decimal or hexadecimal digits, with zeros in front as one likes and
hexadecimal letters of either case. Whatever is chosen for each character, replacing the entities gives
back the value, and what was written cannot end the value or the element around it.

Which of these ways a renderer takes is not known and differs from one version to the next. So it is left
open for every single character.
-/

namespace DependencyDiagram

namespace Text

/-- A hexadecimal digit has its value in either case. -/
theorem hexDigit?_toLower (character : Char) : hexDigit? character.toLower = hexDigit? character := by
  by_cases upper : 65 ≤ character.toNat ∧ character.toNat ≤ 90
  · have each : ∀ code ≤ 90, 65 ≤ code →
        hexDigit? (Char.ofNat code).toLower = hexDigit? (Char.ofNat code) := by decide
    have here := each character.toNat upper.2 upper.1
    rwa [Char.ofNat_toNat] at here
  · have same : character.toLower = character := dif_neg upper
    rw [same]

/-- The case of hexadecimal digits does not matter. -/
theorem hexadecimal?_map_toLower (characters : List Char) :
    hexadecimal? (characters.map Char.toLower) = hexadecimal? characters := by
  simp only [hexadecimal?, List.map_eq_nil_iff, List.foldlM_map, hexDigit?_toLower]

/-- The hexadecimal digits of a number, with zeros in front, are read as the number. The reader folds
over the digits from the left, and the digits of a number are those of its sixteenth with one digit
behind them, so the induction is on the size of the number; zeros in front leave the fold at zero. -/
theorem hexadecimal?_toDigits (zeros value : Nat) :
    hexadecimal? (List.replicate zeros '0' ++ Nat.toDigits 16 value) = some value := by
  have digits : (Nat.toDigits 16 value).foldlM (fun total character =>
      (hexDigit? character).map (total * 16 + ·)) 0 = some value := by
    have single : ∀ digit < 16, hexDigit? (Nat.digitChar digit) = some digit := by decide
    induction value using Nat.strongRecOn with
    | ind value inductionHypothesis =>
      rw [Nat.toDigits_eq_if (by decide)]
      split
      · next small => simp [single value small]
      · next large =>
        rw [List.foldlM_append, inductionHypothesis (value / 16) (by omega)]
        simp [single (value % 16) (Nat.mod_lt _ (by decide))]
        omega
  have leading : (List.replicate zeros '0').foldlM (fun total character =>
      (hexDigit? character).map (total * 16 + ·)) 0 = some 0 := by
    induction zeros with
    | zero => rfl
    | succ zeros inductionHypothesis => exact inductionHypothesis
  have given : List.replicate zeros '0' ++ Nat.toDigits 16 value ≠ [] :=
    List.append_ne_nil_of_right_ne_nil _ Nat.toDigits_ne_nil
  rw [hexadecimal?, if_neg given, List.foldlM_append, leading]
  exact digits

end Text

namespace Areas

/-- The entities that have a name. -/
def namedEntities : List (String × Char) :=
  [("amp", '&'), ("lt", '<'), ("gt", '>'), ("quot", '"'), ("apos", '\x27')]

/-- The characters that are never written as they are. -/
def reserved : List Char := ['&', '<', '>', '"']

/-- What stands between ampersand and semicolon denotes the character. A character may be written as an
entity even if it need not be. -/
inductive Denotes (character : Char) : List Char → Prop where
  | named (name : String) (known : (name, character) ∈ namedEntities) : Denotes character name.toList
  | decimal (zeros : Nat) :
      Denotes character ('#' :: (List.replicate zeros '0' ++ Nat.toDigits 10 character.toNat))
  | hexadecimal (mark : Char) (isMark : mark ∈ ['x', 'X']) (zeros : Nat) (digits : List Char)
      (code : digits.map Char.toLower = List.replicate zeros '0' ++ Nat.toDigits 16 character.toNat) :
      Denotes character ('#' :: mark :: digits)

/-- A value as a renderer may write it. The first list is the value and the second one its written form;
a value has many of these, and each of them is the form of one value. -/
inductive Written : List Char → List Char → Prop where
  | nothing : Written [] []
  | plain {character : Char} {value text : List Char} (unreserved : character ∉ reserved)
      (further : Written value text) : Written (character :: value) (character :: text)
  | entity {character : Char} {entity value text : List Char} (denotes : Denotes character entity)
      (further : Written value text) :
      Written (character :: value) ('&' :: (entity ++ ';' :: text))

variable {character : Char} {entity value text : List Char}

/-- A value without reserved characters may be written as it is. -/
theorem written_self (plain : value.all (fun character => character ∉ reserved) = true) :
    Written value value := by
  induction value with
  | nil => exact .nothing
  | cons character rest inductionHypothesis =>
    rw [List.all_cons, Bool.and_eq_true, decide_eq_true_iff] at plain
    exact .plain plain.1 (inductionHypothesis plain.2)

/-- The character with the code point of a character is the character. -/
theorem characterOf?_toNat (character : Char) : characterOf? character.toNat = some character := by
  have valid : character.toNat.isValidChar := character.valid
  rw [characterOf?, if_pos valid, Char.ofNat_toNat]

/-- The characters of a decimal numeral are digits. -/
theorem isDigit_of_mem_decimal {zeros number : Nat} {digit : Char}
    (listed : digit ∈ List.replicate zeros '0' ++ Nat.toDigits 10 number) : digit.isDigit = true := by
  rcases List.mem_append.mp listed with zero | own
  · rw [List.eq_of_mem_replicate zero]
    rfl
  · exact Nat.isDigit_of_mem_toDigits (by decide) (by decide) own

/-- The digits of a hexadecimal entity are read as the code point. -/
theorem hexadecimal?_of_code {zeros : Nat} {digits : List Char} (code : digits.map Char.toLower =
    List.replicate zeros '0' ++ Nat.toDigits 16 character.toNat) :
    Text.hexadecimal? digits = some character.toNat := by
  rw [← Text.hexadecimal?_map_toLower, code, Text.hexadecimal?_toDigits]

/-- An entity stands for the character that it denotes. Together with the absence of marks inside an
entity this is all that unescaping has to know about entities, whichever spelling a renderer chooses. -/
theorem entityCharacter?_of_denotes (denotes : Denotes character entity) :
    entityCharacter? entity = some character := by
  cases denotes with
  | named name known =>
    simp only [namedEntities, List.mem_cons, Prod.mk.injEq, List.not_mem_nil, or_false] at known
    rcases known with ⟨rfl, rfl⟩ | ⟨rfl, rfl⟩ | ⟨rfl, rfl⟩ | ⟨rfl, rfl⟩ | ⟨rfl, rfl⟩ <;> decide
  | decimal zeros =>
    have read : Text.digits? (List.replicate zeros '0' ++ Nat.toDigits 10 character.toNat) =
        some character.toNat := Text.digits?_eq_some_iff.mpr ⟨zeros, rfl⟩
    -- a digit is not one of the marks of a hexadecimal entity
    cases digits : List.replicate zeros '0' ++ Nat.toDigits 10 character.toNat with
    | nil => exact absurd digits (List.append_ne_nil_of_right_ne_nil _ Nat.toDigits_ne_nil)
    | cons first further =>
      have digit : first.isDigit = true := isDigit_of_mem_decimal (digits ▸ List.mem_cons_self)
      have unmarked : first ≠ 'x' ∧ first ≠ 'X' := by
        constructor <;> rintro rfl <;> exact absurd digit (by decide)
      rw [digits] at read
      simp [entityCharacter?, unmarked, read, characterOf?_toNat]
  | hexadecimal mark isMark zeros digits code =>
    rcases List.mem_pair.mp isMark with rfl | rfl <;>
      simp [entityCharacter?, hexadecimal?_of_code code, characterOf?_toNat]

/-- Neither ampersand nor semicolon nor any other mark of markup is part of an entity. This is what keeps
an entity together: a search for markup or for the next entity never ends inside one. The named entities
are checked by their table, and numbers consist of digits only. -/
theorem not_mem_of_denotes (denotes : Denotes character entity) :
    ∀ mark ∈ ['&', ';', '<', '>', '"'], mark ∉ entity := by
  cases denotes with
  | named name known =>
    simp only [namedEntities, List.mem_cons, Prod.mk.injEq, List.not_mem_nil, or_false] at known
    rcases known with ⟨rfl, _⟩ | ⟨rfl, _⟩ | ⟨rfl, _⟩ | ⟨rfl, _⟩ | ⟨rfl, _⟩ <;>
      exact List.all_iff_forall_prop.mp (by decide)
  | decimal zeros =>
    intro mark isMark listed
    rcases List.mem_cons.mp listed with rfl | digit
    · exact absurd isMark (by decide)
    · have none : ∀ mark ∈ ['&', ';', '<', '>', '"'], mark.isDigit = false :=
        List.all_iff_forall_prop.mp (by decide)
      exact absurd (isDigit_of_mem_decimal digit) (by simp [none mark isMark])
  | hexadecimal sign isSign zeros digits code =>
    intro mark isMark listed
    have none : ∀ mark ∈ ['&', ';', '<', '>', '"'],
        mark ≠ '#' ∧ mark ∉ ['x', 'X'] ∧ Text.hexDigit? mark = none :=
      List.all_iff_forall_prop.mp (by decide)
    obtain ⟨other, unsigned, noDigit⟩ := none mark isMark
    rcases List.mem_cons.mp listed with same | behind
    · exact other same
    · rcases List.mem_cons.mp behind with rfl | digit
      · exact unsigned isSign
      · obtain ⟨_, read⟩ := Text.exists_hexDigit?_of_hexadecimal? (hexadecimal?_of_code code) digit
        cases noDigit.symm.trans read

/-- An entity in a text is an occurrence. -/
theorem entityPattern_entity (denotes : Denotes character entity) (rest : List Char) :
    entityPattern (('&' :: (entity ++ [';'])) ++ rest) =
      some ([character], ('&' :: (entity ++ [';'])).length) := by
  have within : (entity ++ ';' :: rest).takeWhile (fun other => other != ';' && other != '&') =
      entity := by
    refine Text.takeWhile_append_mark (fun other listed => ?_) (by decide)
    have apart := not_mem_of_denotes denotes
    have noEnd : other ≠ ';' := fun same => apart ';' (by decide) (same ▸ listed)
    have noBegin : other ≠ '&' := fun same => apart '&' (by decide) (same ▸ listed)
    simp [noEnd, noBegin]
  rw [List.cons_append, List.append_assoc, List.singleton_append, entityPattern]
  rw [within, List.drop_left, entityCharacter?_of_denotes denotes]
  simp [Nat.add_comm]

/-- Replacing the entities gives back what was written. -/
theorem replaceOccurrences_of_written (written : Written value text) :
    Text.replaceOccurrences entityPattern text = value := by
  induction written with
  | nothing => rfl
  | @plain character value text unreserved further inductionHypothesis =>
    have passed : entityPattern (character :: text) = none := by
      have other : character ≠ '&' := fun same => unreserved (same ▸ by decide)
      rw [entityPattern]
      exact fun rest same => other (List.cons.inj same).1
    rw [Text.replaceOccurrences_cons passed, inductionHypothesis]
  | @entity character entity value text denotes further inductionHypothesis =>
    have cut : '&' :: (entity ++ ';' :: text) = ('&' :: (entity ++ [';'])) ++ text := by simp
    rw [cut, Text.replaceOccurrences_of_occurrence (List.cons_ne_nil _ _)
      (entityPattern_entity denotes text), inductionHypothesis, List.singleton_append]

/-- A value is read back however it was written. -/
theorem unescape_of_written {value text : String} (written : Written value.toList text.toList) :
    unescape text = value := by
  rw [unescape, replaceOccurrences_of_written written, String.ofList_toList]

/-- What was written neither ends the value nor opens or closes an element. -/
theorem not_mem_of_written (written : Written value text) : ∀ mark ∈ ['<', '>', '"'], mark ∉ text := by
  intro mark isMark
  have isReserved : mark ∈ reserved := List.mem_cons_of_mem _ isMark
  have inEntity : mark ∈ ['&', ';', '<', '>', '"'] :=
    List.mem_cons_of_mem _ (List.mem_cons_of_mem _ isMark)
  have other : mark ≠ '&' ∧ mark ≠ ';' := by
    constructor <;> rintro rfl <;> exact absurd isMark (by decide)
  induction written with
  | nothing => exact List.not_mem_nil
  | plain unreserved further inductionHypothesis =>
    rw [List.mem_cons]
    rintro (rfl | later)
    · exact unreserved isReserved
    · exact inductionHypothesis later
  | entity denotes further inductionHypothesis =>
    simp only [List.mem_cons, List.mem_append, other, false_or]
    rintro (inside | later)
    · exact not_mem_of_denotes denotes mark inEntity inside
    · exact inductionHypothesis later

end Areas

end DependencyDiagram

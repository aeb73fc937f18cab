import DependencyDiagram.Proofs.Identity.Codec
import Mathlib.Data.List.Induction

/-!
# The texts that denote an identifier

A number is spelled by its decimal digits, with zeros in front as one likes and a plus sign before
them if one likes. An identifier is denoted by its written text, and where it ends in a number, by
every text that differs in the spelling of this number alone. Reading finds in a text the identifier
that it denotes. A text that denotes none is refused, and every refusal is of one kind.
-/

namespace DependencyDiagram

namespace Text

/-- A text spells a number: an optional plus sign, any number of zeros, and the number's digits. No sign
and no zeros are among the spellings, so the plain digits are one too. -/
def Spells (value : Nat) (text : String) : Prop :=
  ∃ (signed : Bool) (zeros : Nat), text =
    (if signed then "+" else "") ++ String.ofList (List.replicate zeros '0') ++ toString value

/-- The value of a digit is below ten, and the digit is the one of its value. -/
theorem digitChar_of_isDigit {digit : Char} (decimal : digit.isDigit = true) :
    digit.toNat - '0'.toNat < 10 ∧ Nat.digitChar (digit.toNat - '0'.toNat) = digit := by
  rw [Char.isDigit, Bool.and_eq_true, decide_eq_true_eq, decide_eq_true_eq] at decimal
  have lower : 48 ≤ digit.toNat := decimal.1
  have upper : digit.toNat ≤ 57 := decimal.2
  have same : digit = Char.ofNat digit.toNat := (Char.ofNat_toNat digit).symm
  have each : ∀ code ≤ 57, 48 ≤ code → Nat.digitChar (code - 48) = Char.ofNat code := by decide
  exact ⟨by change digit.toNat - 48 < 10; omega, (each _ upper lower).trans same.symm⟩

/-- Digits are the digits of the number that they denote, with zeros in front. The induction takes the
digits from the end, as the digits of a number are found by division. What stands in front of the last
digit is either a positive number with its own digits or nothing but zeros. -/
theorem exists_zeros {digits : List Char} (given : digits ≠ [])
    (decimal : ∀ digit ∈ digits, digit.isDigit = true) :
    ∃ zeros, digits = List.replicate zeros '0' ++ Nat.toDigits 10 (Nat.ofDigitChars 10 digits 0) := by
  induction digits using List.reverseRecOn with
  | nil => exact absurd rfl given
  | append_singleton front last inductionHypothesis =>
    obtain ⟨bound, same⟩ := digitChar_of_isDigit (decimal last (by simp))
    have single : Nat.toDigits 10 (last.toNat - '0'.toNat) = [last] := by
      rw [Nat.toDigits_of_lt_base bound, same]
    rcases List.eq_nil_or_concat front with rfl | ⟨_, _, concat⟩
    · refine ⟨0, ?_⟩
      rw [List.nil_append, Nat.ofDigitChars_cons, Nat.mul_zero, Nat.zero_add]
      exact single.symm
    · obtain ⟨zeros, whole⟩ := inductionHypothesis (by simp [concat])
        (fun digit listed => decimal digit (List.mem_append_left _ listed))
      have value : Nat.ofDigitChars 10 (front ++ [last]) 0 =
          10 * Nat.ofDigitChars 10 front 0 + (last.toNat - '0'.toNat) := by
        simp [Nat.ofDigitChars]
      rw [value]
      rcases Nat.eq_zero_or_pos (Nat.ofDigitChars 10 front 0) with zero | positive
      · -- all that stands before the last digit are zeros
        refine ⟨zeros + 1, ?_⟩
        rw [zero] at whole ⊢
        rw [Nat.mul_zero, Nat.zero_add, single, List.replicate_succ', whole]
        rfl
      · refine ⟨zeros, ?_⟩
        rw [← Nat.toDigits_append_toDigits (by decide) positive bound, single, ← List.append_assoc,
          ← whole]

/-- Zeros in front of digits add nothing to what the digits denote. -/
theorem ofDigitChars_zeros (zeros : Nat) (digits : List Char) :
    Nat.ofDigitChars 10 (List.replicate zeros '0' ++ digits) 0 = Nat.ofDigitChars 10 digits 0 := by
  induction zeros with
  | zero => rfl
  | succ zeros inductionHypothesis =>
    rw [List.replicate_succ, List.cons_append, Nat.ofDigitChars_cons, ← inductionHypothesis]
    rfl

/-- Characters are read as digits exactly when they are a number's digits with zeros in front. -/
theorem digits?_eq_some_iff {characters : List Char} {value : Nat} :
    digits? characters = some value ↔
      ∃ zeros, characters = List.replicate zeros '0' ++ Nat.toDigits 10 value := by
  constructor
  · intro read
    rw [digits?] at read
    split at read
    · rename_i decimal
      obtain rfl := Option.some.inj read
      exact exists_zeros decimal.1 (List.all_eq_true.mp decimal.2)
    · cases read
  · rintro ⟨zeros, rfl⟩
    have decimal : (List.replicate zeros '0' ++ Nat.toDigits 10 value).all Char.isDigit = true := by
      refine List.all_eq_true.mpr (fun digit listed => ?_)
      rcases List.mem_append.mp listed with zero | own
      · rw [List.eq_of_mem_replicate zero]
        rfl
      · exact isDigit_of_mem_toString (toList_toString value ▸ own)
    have given : List.replicate zeros '0' ++ Nat.toDigits 10 value ≠ [] :=
      List.append_ne_nil_of_right_ne_nil _ Nat.toDigits_ne_nil
    rw [digits?, if_pos ⟨given, decimal⟩, ofDigitChars_zeros, Nat.ofDigitChars_ten_toDigits]

/-- Without their plus sign, if they have one, characters are digits exactly when they are digits
behind an optional plus sign. -/
theorem withoutPlus_eq_iff {characters digits : List Char} (unsigned : digits.head? ≠ some '+') :
    withoutPlus characters = digits ↔ characters = digits ∨ characters = '+' :: digits := by
  unfold withoutPlus
  split
  · rename_i rest
    constructor
    · rintro rfl
      exact Or.inr rfl
    · rintro (rfl | same)
      · exact absurd rfl unsigned
      · exact (List.cons.inj same).2
  · rename_i other
    constructor
    · exact Or.inl
    · rintro (rfl | rfl)
      · rfl
      · exact absurd rfl (other digits)

/-- A text is read as a number within the bound exactly when it spells the number. A sign can be taken
off in one way only, since what stands behind it begins with a digit. -/
theorem natural?_eq_some_iff {bound value : Nat} {text : String} :
    natural? bound text = some value ↔ value ≤ bound ∧ Spells value text := by
  have digits (zeros : Nat) :
      (List.replicate zeros '0' ++ Nat.toDigits 10 value).head? ≠ some '+' := by
    intro plus
    have decimal : Char.isDigit '+' = true := by
      rcases List.mem_append.mp (List.mem_of_head? plus) with zero | own
      · rw [List.eq_of_mem_replicate zero]
        rfl
      · exact isDigit_of_mem_toString (toList_toString value ▸ own)
    exact absurd decimal (by decide)
  rw [natural?, Option.filter_eq_some_iff, digits?_eq_some_iff, decide_eq_true_eq, and_comm]
  refine and_congr_right (fun _ => ?_)
  simp only [withoutPlus_eq_iff (digits _), Spells, ← String.toList_inj, String.toList_append,
    String.toList_ofList, toList_toString]
  constructor
  · rintro ⟨zeros, plain | signed⟩
    · exact ⟨false, zeros, plain⟩
    · exact ⟨true, zeros, signed⟩
  · rintro ⟨signed, zeros, whole⟩
    cases signed with
    | false => exact ⟨zeros, Or.inl whole⟩
    | true => exact ⟨zeros, Or.inr whole⟩

/-- The pieces of a text joined by the separator are the text again. -/
theorem intercalate_pieces (text : String) : "|".intercalate (pieces fieldSeparator text) = text := by
  have separator : "|".toList = [fieldSeparator] := rfl
  rw [← String.toList_inj, String.toList_intercalate, separator, pieces, List.map_map]
  simp [Function.comp_def, List.intercalate_splitOn]

end Text

namespace NodeId

/-- The number with which the written text of an identifier ends. It is always the last field, and no
identifier has two. -/
def number? : NodeId → Option Token
  | named _ _ | layerGroup _ _ => none
  | member _ _ token => some token
  | artificial _ key => some key

/-- A text denotes an identifier: it is the written text, or it differs from it only in how the number at
its end is spelled. The stem is the same in both texts, so fields that are no numbers have to be written
exactly. -/
def Denotes (id : NodeId) (text : String) : Prop :=
  text = id.encode ∨ ∃ number stem spelling, id.number? = some number ∧
    id.encode = stem ++ toString number.value ∧ Text.Spells number.value spelling ∧
    text = stem ++ spelling

/-- Fields denote an identifier: they are its own, up to the spelling of its number. It is the same
condition, taken apart field by field, as a reader meets it after cutting the text. -/
def FieldsDenote : NodeId → List String → Prop
  | named _ name, fields => fields = [name.text]
  | member _ assembly token, fields =>
    ∃ spelling, Text.Spells token.value spelling ∧ fields = [assembly.text, spelling]
  | layerGroup groupBy label, fields => fields = [groupBy.text, label.text]
  | artificial _ key, fields => ∃ spelling, Text.Spells key.value spelling ∧ fields = [spelling]

/-- The text that is written for a number spells it. -/
theorem spells_toString (value : Nat) : Text.Spells value (toString value) :=
  ⟨false, 0, by simp⟩

/-- A spelling of a number holds no separator. -/
theorem unseparated_of_spells {value : Nat} {spelling : String}
    (spells : Text.Spells value spelling) : Unseparated spelling := by
  obtain ⟨signed, zeros, rfl⟩ := spells
  have absent (separator : Char) (noSign : separator ≠ '+') (noDigit : separator.isDigit = false) :
      separator ∉ ((if signed then "+" else "") ++ String.ofList (List.replicate zeros '0') ++
        toString value).toList := by
    intro listed
    simp only [String.toList_append, String.toList_ofList, List.mem_append] at listed
    rcases listed with (sign | zero) | digit
    · cases signed with
      | false => exact List.not_mem_nil sign
      | true => exact noSign (List.mem_singleton.mp sign)
    · rw [List.eq_of_mem_replicate zero] at noDigit
      cases noDigit
    · rw [isDigit_of_mem_toString digit] at noDigit
      cases noDigit
  exact ⟨absent fieldSeparator (by decide) (by decide), absent endpointSeparator (by decide) (by decide)⟩

/-- Fields that denote an identifier hold no field separator. -/
theorem fieldSeparator_not_mem_of_fieldsDenote {id : NodeId} {fields : List String}
    (denote : id.FieldsDenote fields) : ∀ field ∈ fields, fieldSeparator ∉ field.toList := by
  cases id with
  | named kind name =>
    obtain rfl : fields = [name.text] := denote
    simpa using name.unseparated.1
  | layerGroup groupBy label =>
    obtain rfl : fields = [groupBy.text, label.text] := denote
    simpa using ⟨groupBy.unseparated.1, label.unseparated.1⟩
  | member kind assembly token =>
    obtain ⟨spelling, spells, rfl⟩ := denote
    simpa using ⟨assembly.unseparated.1, (unseparated_of_spells spells).1⟩
  | artificial kind key =>
    obtain ⟨spelling, spells, rfl⟩ := denote
    simpa using (unseparated_of_spells spells).1

/-- The texts that denote an identifier with a number are those that have the spellings of the number
behind what stands in front of it. -/
theorem denotes_iff_spells {id : NodeId} {number : Token} {stem text : String}
    (numbered : id.number? = some number) (whole : id.encode = stem ++ toString number.value) :
    id.Denotes text ↔ ∃ spelling, Text.Spells number.value spelling ∧ text = stem ++ spelling := by
  constructor
  · rintro (rfl | ⟨other, front, spelling, same, split, spells, rfl⟩)
    · exact ⟨_, spells_toString number.value, whole⟩
    · obtain rfl := Option.some.inj (numbered.symm.trans same)
      have fronts : stem.toList = front.toList := by
        have texts := congrArg String.toList (whole.symm.trans split)
        rw [String.toList_append, String.toList_append] at texts
        exact List.append_cancel_right texts
      exact ⟨spelling, spells, by rw [String.toList_inj.mp fronts]⟩
  · rintro ⟨spelling, spells, rfl⟩
    exact Or.inr ⟨number, stem, spelling, numbered, whole, spells, rfl⟩

/-- A text denotes an identifier exactly when its fields do. Identifiers without a number have one text
each. In the others the number is the last field, so that a text with another spelling of the number
differs in this field alone. -/
theorem denotes_iff {id : NodeId} {text : String} :
    id.Denotes text ↔ ∃ fields, id.FieldsDenote fields ∧
      text = "|".intercalate (id.tag.word :: fields) := by
  cases id with
  | named kind name => simp [Denotes, FieldsDenote, number?, encode, fields]
  | layerGroup groupBy label => simp [Denotes, FieldsDenote, number?, encode, fields]
  | member kind assembly token =>
    have whole : (member kind assembly token).encode =
        (NodeTag.member kind).word ++ "|" ++ (assembly.text ++ "|") ++ toString token.value := by
      simp [encode, fields, tag, String.append_assoc]
    rw [denotes_iff_spells rfl whole]
    constructor
    · rintro ⟨spelling, spells, rfl⟩
      exact ⟨_, ⟨spelling, spells, rfl⟩, by simp [tag, String.append_assoc]⟩
    · rintro ⟨_, ⟨spelling, spells, rfl⟩, rfl⟩
      exact ⟨spelling, spells, by simp [tag, String.append_assoc]⟩
  | artificial kind key =>
    have whole : (artificial kind key).encode =
        (NodeTag.artificial kind).word ++ "|" ++ toString key.value := by
      simp [encode, fields, tag]
    rw [denotes_iff_spells rfl whole]
    constructor
    · rintro ⟨spelling, spells, rfl⟩
      exact ⟨_, ⟨spelling, spells, rfl⟩, by simp [tag]⟩
    · rintro ⟨_, ⟨spelling, spells, rfl⟩, rfl⟩
      exact ⟨spelling, spells, by simp [tag]⟩

/-- An assembly's name and a spelled token are read as the member that they identify. -/
theorem decodeMember_eq_ok_iff {text assembly spelling : String} {kind : MemberKind} {id : NodeId} :
    decodeMember text kind assembly spelling = .ok id ↔ ∃ (name : Name) (token : Token),
      name.text = assembly ∧ Text.Spells token.value spelling ∧ id = member kind name token := by
  constructor
  · intro read
    rw [decodeMember] at read
    split at read
    · cases read
    · rename_i number spelled
      obtain ⟨name, token, named, rfl, rfl⟩ := ofMember_eq_ok_iff.mp read
      exact ⟨name, token, named, (Text.natural?_eq_some_iff.mp spelled).2, rfl⟩
  · rintro ⟨name, token, named, spells, rfl⟩
    rw [decodeMember, Text.natural?_eq_some_iff.mpr ⟨token.bounded, spells⟩]
    exact ofMember_eq_ok_iff.mpr ⟨name, token, named, rfl, rfl⟩

/-- A spelled number is read as the minted identifier with this number. -/
theorem decodeArtificial_eq_ok_iff {text spelling : String} {kind : ArtificialKind} {id : NodeId} :
    decodeArtificial text kind spelling = .ok id ↔
      ∃ key : Token, Text.Spells key.value spelling ∧ id = artificial kind key := by
  constructor
  · intro read
    rw [decodeArtificial] at read
    split at read
    · cases read
    · rename_i key found
      obtain ⟨number, spelled, admitted⟩ := Option.bind_eq_some_iff.mp found
      obtain rfl := Token.ofNat?_eq_some_iff.mp admitted
      exact ⟨key, (Text.natural?_eq_some_iff.mp spelled).2, (Except.ok.inj read).symm⟩
  · rintro ⟨key, spells, rfl⟩
    rw [decodeArtificial, Text.natural?_eq_some_iff.mpr ⟨key.bounded, spells⟩, Option.bind_some,
      Token.ofNat?_value]

/-- Behind a tag is read the identifier with this tag that the fields denote. There is one case for each
shape of fields that a tag can have. In the last one the number of fields does not fit the tag, which
never happens for fields that an identifier denotes. -/
theorem decodeFields_eq_ok_iff {text : String} {tag : NodeTag} {fields : List String} {id : NodeId} :
    decodeFields text tag fields = .ok id ↔ id.tag = tag ∧ id.FieldsDenote fields := by
  unfold decodeFields
  split
  · rename_i kind field
    rw [ofName_eq_ok_iff]
    constructor
    · rintro ⟨name, rfl, rfl⟩
      exact ⟨rfl, rfl⟩
    · rintro ⟨tagged, denote⟩
      cases id <;> cases tagged
      exact ⟨_, (List.singleton_inj.mp denote).symm, rfl⟩
  · rename_i kind assembly spelling
    rw [decodeMember_eq_ok_iff]
    constructor
    · rintro ⟨name, token, rfl, spells, rfl⟩
      exact ⟨rfl, spelling, spells, rfl⟩
    · rintro ⟨tagged, denote⟩
      cases id <;> cases tagged
      obtain ⟨_, spells, ⟨⟩⟩ := denote
      exact ⟨_, _, rfl, spells, rfl⟩
  · rename_i groupBy label
    rw [ofLayer_eq_ok_iff]
    constructor
    · rintro ⟨first, second, rfl, rfl, rfl⟩
      exact ⟨rfl, rfl⟩
    · rintro ⟨tagged, denote⟩
      cases id <;> cases tagged
      cases denote
      exact ⟨_, _, rfl, rfl, rfl⟩
  · rename_i kind spelling
    rw [decodeArtificial_eq_ok_iff]
    constructor
    · rintro ⟨key, spells, rfl⟩
      exact ⟨rfl, spelling, spells, rfl⟩
    · rintro ⟨tagged, denote⟩
      cases id <;> cases tagged
      obtain ⟨_, spells, ⟨⟩⟩ := denote
      exact ⟨_, spells, rfl⟩
  · -- the number of fields is not the tag's own, but fields that denote have this number
    rename_i named member layer artificial
    refine ⟨nofun, ?_⟩
    rintro ⟨rfl, denote⟩
    cases id with
    | named kind name => exact (named _ _ rfl denote).elim
    | member kind assembly token =>
      obtain ⟨_, _, same⟩ := denote
      exact (member _ _ _ rfl same).elim
    | layerGroup groupBy label => exact (layer _ _ rfl denote).elim
    | artificial kind key =>
      obtain ⟨_, _, same⟩ := denote
      exact (artificial _ _ rfl same).elim

/-- A text is read as the identifier that it denotes. Cutting a text into fields and joining the fields
with bars undo each other, as long as no field holds a bar; fields that denote an identifier hold none. -/
theorem decode_eq_ok_iff {text : String} {id : NodeId} : decode text = .ok id ↔ id.Denotes text := by
  rw [denotes_iff]
  constructor
  · intro read
    rw [decode] at read
    split at read
    · cases read
    · rename_i word fields cut
      split at read
      · cases read
      · rename_i tag known
        obtain ⟨rfl, denote⟩ := decodeFields_eq_ok_iff.mp read
        have joined : text = "|".intercalate (Text.pieces fieldSeparator text) :=
          (Text.intercalate_pieces text).symm
        rw [cut, ← Vocabulary.word_of_read known] at joined
        exact ⟨fields, denote, joined⟩
  · rintro ⟨fields, denote, rfl⟩
    have cut : Text.pieces fieldSeparator ("|".intercalate (id.tag.word :: fields)) =
        id.tag.word :: fields :=
      Text.pieces_intercalate (List.forall_mem_cons.mpr
        ⟨(unseparated_word id.tag).1, fieldSeparator_not_mem_of_fieldsDenote denote⟩)
        (List.cons_ne_nil _ _)
    have known : (Vocabulary.read? id.tag.word : Option NodeTag) = some id.tag :=
      Vocabulary.read_word id.tag
    rw [decode, cut]
    simp only [known]
    exact decodeFields_eq_ok_iff.mpr ⟨rfl, denote⟩

/-- Fields that are refused are refused as a malformed identifier. -/
theorem kind_of_decodeFields {text : String} {tag : NodeTag} {fields : List String}
    {failure : Failure} (refused : decodeFields text tag fields = .error failure) :
    failure.kind = .invalidNodeId := by
  have malformed (message : String) : (Failure.invalidNodeId text message).kind = .invalidNodeId := rfl
  unfold decodeFields at refused
  split at refused
  · exact kind_of_ofName refused
  · rw [decodeMember] at refused
    split at refused
    · exact Except.error.inj refused ▸ malformed _
    · exact kind_of_ofMember refused
  · exact kind_of_ofLayer refused
  · rw [decodeArtificial] at refused
    split at refused
    · exact Except.error.inj refused ▸ malformed _
    · cases refused
  · exact Except.error.inj refused ▸ malformed _

/-- A text that is refused is refused as a malformed identifier. -/
theorem kind_of_decode {text : String} {failure : Failure} (refused : decode text = .error failure) :
    failure.kind = .invalidNodeId := by
  rw [decode] at refused
  split at refused
  · obtain rfl := Except.error.inj refused
    rfl
  · split at refused
    · obtain rfl := Except.error.inj refused
      rfl
    · exact kind_of_decodeFields refused

/-- Reading finds exactly the identifier that a text denotes and refuses every other text as a malformed
identifier; what is written is read back, and different identifiers are written differently. It covers
every text there is. A text with an unknown tag, a missing or an empty field, a number that is zero or
too large, or a separator too many is refused like any other that denotes nothing. -/
theorem reading_exact :
    (∀ (text : String) (id : NodeId), decode text = .ok id ↔ id.Denotes text) ∧
      (∀ text : String, (∀ id : NodeId, ¬ id.Denotes text) →
        ∃ failure, decode text = .error failure ∧ failure.kind = .invalidNodeId) ∧
      (∀ id : NodeId, decode id.encode = .ok id) ∧ Function.Injective encode := by
  refine ⟨fun _ _ => decode_eq_ok_iff, fun text none => ?_, decode_encode, fun _ _ => encode_injective⟩
  cases read : decode text with
  | ok id => exact absurd (decode_eq_ok_iff.mp read) (none id)
  | error failure => exact ⟨failure, rfl, kind_of_decode read⟩

end NodeId

end DependencyDiagram

import DependencyDiagram.Identity.EdgeId
import DependencyDiagram.Proofs.Outcomes
import Mathlib.Data.List.Infix
import Mathlib.Data.List.TakeWhile

/-!
# Reading back what was written

No field of an identifier holds one of the two separators: names exclude them, tags are
fixed words, and numbers are written in digits. Cutting a written identifier at its
separators therefore gives back exactly its fields, and reading it gives back the
identifier. An edge's text is cut at its only endpoint separator, so its endpoints are read
back as well, and the text that a label's identifier adds can be taken away again.
-/

namespace DependencyDiagram

/-- Neither separator occurs in the text. A text of this kind can stand as a field, since cutting at
either separator leaves it whole. -/
def Unseparated (text : String) : Prop :=
  fieldSeparator ∉ text.toList ∧ endpointSeparator ∉ text.toList

/-- The digits of a number are the characters of its text. -/
theorem toList_toString (value : Nat) : (toString value).toList = Nat.toDigits 10 value := by
  rw [Nat.toString_eq_repr, Nat.toList_repr]

/-- A number's text consists of digits. -/
theorem isDigit_of_mem_toString {value : Nat} {character : Char}
    (listed : character ∈ (toString value).toList) : character.isDigit = true := by
  rw [toList_toString] at listed
  exact Nat.isDigit_of_mem_toDigits (by decide) (by decide) listed

/-- A number's text holds no separator. -/
theorem unseparated_toString (value : Nat) : Unseparated (toString value) := by
  constructor
  · intro listed
    exact absurd (isDigit_of_mem_toString listed) (by decide)
  · intro listed
    exact absurd (isDigit_of_mem_toString listed) (by decide)

/-- The digits of a number denote it. -/
theorem digits?_toString (value : Nat) : Text.digits? (toString value).toList = some value := by
  have written : (toString value).toList ≠ [] := by
    rw [toList_toString]
    exact Nat.toDigits_ne_nil
  have allDigits : (toString value).toList.all Char.isDigit = true :=
    List.all_eq_true.mpr (fun _ listed => isDigit_of_mem_toString listed)
  rw [Text.digits?, if_pos ⟨written, allDigits⟩, toList_toString, Nat.ofDigitChars_ten_toDigits]

/-- Different numbers have different texts. -/
theorem toString_injective {first second : Nat} (same : toString first = toString second) :
    first = second := by
  have digits := digits?_toString first
  rw [same, digits?_toString] at digits
  exact (Option.some.inj digits).symm

/-- A number within the bound is read back from its text. -/
theorem natural?_toString {bound value : Nat} (fits : value ≤ bound) :
    Text.natural? bound (toString value) = some value := by
  have unsigned : Text.withoutPlus (toString value).toList = (toString value).toList := by
    cases digits : (toString value).toList with
    | nil => rfl
    | cons first rest =>
      have isDigit : first.isDigit = true :=
        isDigit_of_mem_toString (digits ▸ List.mem_cons_self : first ∈ (toString value).toList)
      have noSign : first ≠ '+' := by
        rintro rfl
        exact absurd isDigit (by decide)
      simp [Text.withoutPlus, noSign]
  rw [Text.natural?, unsigned, digits?_toString]
  simp [fits]

/-- No piece of a text holds the separator. The induction is along the text: a character other than the
separator joins the first of the pieces behind it, and a separator puts an empty piece in front of them. -/
theorem Text.separator_not_mem_piece {separator : Char} {text piece : String}
    (cut : piece ∈ Text.pieces separator text) : separator ∉ piece.toList := by
  rw [Text.pieces, List.mem_map] at cut
  obtain ⟨characters, listed, rfl⟩ := cut
  rw [String.toList_ofList]
  -- the first character joins the first piece unless it is the separator
  generalize text.toList = whole at listed
  induction whole generalizing characters with
  | nil =>
    rw [List.splitOn_nil, List.mem_singleton] at listed
    exact listed ▸ List.not_mem_nil
  | cons first rest inductionHypothesis =>
    rw [List.splitOn_cons_eq_if_modifyHead] at listed
    split at listed
    · rcases List.mem_cons.mp listed with rfl | later
      · exact List.not_mem_nil
      · exact inductionHypothesis characters later
    · rename_i other
      cases pieces : rest.splitOn separator with
      | nil => exact absurd pieces (List.splitOn_ne_nil separator rest)
      | cons head further =>
        rw [pieces] at listed inductionHypothesis
        rcases List.mem_cons.mp listed with rfl | later
        · rw [List.mem_cons, not_or]
          exact ⟨fun same => other (by simp [same]), inductionHypothesis head List.mem_cons_self⟩
        · exact inductionHypothesis characters (List.mem_cons_of_mem head later)

/-- Parts without the separator are the pieces of the text that they are joined to. -/
theorem Text.pieces_joined {separator : Char} {parts : List String}
    (unseparated : ∀ part ∈ parts, separator ∉ part.toList) (given : parts ≠ []) :
    Text.pieces separator ((String.singleton separator).intercalate parts) = parts := by
  rw [Text.pieces, String.toList_intercalate, String.toList_singleton, List.splitOn_intercalate]
  · rw [List.map_map]
    simp
  · intro piece listed
    obtain ⟨part, present, rfl⟩ := List.mem_map.mp listed
    exact unseparated part present
  · simpa using given

/-- Fields without the separator are the pieces of the text that they are joined to. -/
theorem Text.pieces_intercalate {fields : List String}
    (unseparated : ∀ field ∈ fields, fieldSeparator ∉ field.toList) (given : fields ≠ []) :
    Text.pieces fieldSeparator ("|".intercalate fields) = fields :=
  Text.pieces_joined unseparated given

/-- A text is cut into a side that does not hold the separator and whatever follows the first one. -/
theorem Text.cutFirst?_eq_some_iff {separator : Char} {text left right : String} :
    cutFirst? separator text = some (left, right) ↔
      separator ∉ left.toList ∧ text = left ++ String.singleton separator ++ right := by
  have others (characters : List Char) : separator ∉ characters.takeWhile (· != separator) :=
    fun listed => by simpa using List.mem_takeWhile_imp listed
  constructor
  · intro cut
    rw [cutFirst?] at cut
    split at cut
    · cases cut
    · rename_i first after dropped
      obtain ⟨rfl, rfl⟩ := Prod.mk.inj (Option.some.inj cut)
      obtain rfl : first = separator := by
        simpa [dropped] using List.head?_dropWhile_not (· != separator) text.toList
      refine ⟨by simpa using others text.toList, String.toList_inj.mp ?_⟩
      simp [← dropped]
  · rintro ⟨clean, rfl⟩
    have passed : ∀ character ∈ left.toList, (character != separator) = true :=
      fun character listed => bne_iff_ne.mpr (ne_of_mem_of_not_mem listed clean)
    rw [cutFirst?, String.toList_append, String.toList_append, List.append_assoc,
      List.dropWhile_append_of_pos passed, List.takeWhile_append_of_pos passed]
    simp

/-- A text is admitted as the name with this text. -/
theorem Name.ofText_eq_ok_iff {text : String} {name : Name} :
    Name.ofText text = .ok name ↔ name.text = text := by
  constructor
  · exact Name.text_of_ofText
  · rintro rfl
    exact Name.ofText_text name

/-- A text that is no name is refused as a malformed identifier. -/
theorem Name.kind_of_ofText {text : String} {failure : Failure}
    (refused : Name.ofText text = .error failure) : failure.kind = .invalidNodeId := by
  rw [Name.ofText] at refused
  split at refused
  · obtain rfl := Except.error.inj refused
    rfl
  · split at refused
    · obtain rfl := Except.error.inj refused
      rfl
    · cases refused

/-- Names with one text are one. -/
theorem Name.eq_of_text {left right : Name} (same : left.text = right.text) : left = right := by
  cases left
  cases right
  cases same
  rfl

/-- Tokens with one value are one. -/
theorem Token.eq_of_value {left right : Token} (same : left.value = right.value) : left = right := by
  cases left
  cases right
  cases same
  rfl

/-- A number is admitted as the token with this value. -/
theorem Token.ofNat?_eq_some_iff {value : Nat} {token : Token} :
    Token.ofNat? value = some token ↔ token.value = value := by
  constructor
  · intro admitted
    rw [Token.ofNat?] at admitted
    split at admitted
    · obtain rfl := Option.some.inj admitted
      rfl
    · cases admitted
  · rintro rfl
    exact Token.ofNat?_value token

namespace NodeId

/-- A text names what has it as its name. -/
theorem ofName_eq_ok_iff {kind : NamedKind} {text : String} {id : NodeId} :
    ofName kind text = .ok id ↔ ∃ name : Name, name.text = text ∧ id = named kind name := by
  rw [ofName, Outcome.bind_eq_ok_iff]
  simp only [Name.ofText_eq_ok_iff, pure, Except.pure, Except.ok.injEq, @eq_comm _ id]

/-- Texts that name one thing are one. -/
theorem ofName_injective {kind : NamedKind} {left right : String} {id : NodeId}
    (here : ofName kind left = .ok id) (there : ofName kind right = .ok id) : left = right := by
  obtain ⟨name, rfl, rfl⟩ := ofName_eq_ok_iff.mp here
  obtain ⟨other, rfl, same⟩ := ofName_eq_ok_iff.mp there
  rw [(NodeId.named.inj same).2]

/-- A text and a number identify the member of the assembly with this name and token. -/
theorem ofMember_eq_ok_iff {kind : MemberKind} {assembly : String} {number : Nat} {id : NodeId} :
    ofMember kind assembly number = .ok id ↔
      ∃ (name : Name) (token : Token), name.text = assembly ∧ token.value = number ∧
        id = member kind name token := by
  rw [ofMember, Outcome.bind_eq_ok_iff]
  simp only [Name.ofText_eq_ok_iff]
  refine exists_congr (fun name => ?_)
  cases admitted : Token.ofNat? number with
  | none =>
    have none : ∀ token : Token, token.value ≠ number := fun token same =>
      nomatch admitted.symm.trans (Token.ofNat?_eq_some_iff.mpr same)
    simp [throw, throwThe, MonadExceptOf.throw, none]
  | some token =>
    have only : ∀ other : Token, other.value = number ↔ other = token := fun other => by
      rw [← Token.ofNat?_eq_some_iff, admitted, Option.some.injEq, eq_comm]
    simp [only, pure, Except.pure, eq_comm]

/-- Two texts identify the layer with these names. -/
theorem ofLayer_eq_ok_iff {groupBy label : String} {id : NodeId} :
    ofLayer groupBy label = .ok id ↔
      ∃ first second : Name, first.text = groupBy ∧ second.text = label ∧
        id = layerGroup first second := by
  rw [ofLayer, Outcome.bind_eq_ok_iff]
  simp only [Outcome.bind_eq_ok_iff, Name.ofText_eq_ok_iff, pure, Except.pure, Except.ok.injEq,
    @eq_comm _ id, exists_and_left]

/-- A text that names nothing is refused as a malformed identifier. -/
theorem kind_of_ofName {kind : NamedKind} {text : String} {failure : Failure}
    (refused : ofName kind text = .error failure) : failure.kind = .invalidNodeId := by
  rcases Outcome.bind_eq_error_iff.mp refused with name | ⟨_, _, ⟨⟩⟩
  exact Name.kind_of_ofText name

/-- A text and a number that identify no member are refused as a malformed identifier. -/
theorem kind_of_ofMember {kind : MemberKind} {assembly : String} {number : Nat} {failure : Failure}
    (refused : ofMember kind assembly number = .error failure) : failure.kind = .invalidNodeId := by
  rcases Outcome.bind_eq_error_iff.mp refused with name | ⟨_, _, token⟩
  · exact Name.kind_of_ofText name
  · split at token
    · cases token
    · exact Except.error.inj token ▸ rfl

/-- Two texts that identify no layer are refused as a malformed identifier. -/
theorem kind_of_ofLayer {groupBy label : String} {failure : Failure}
    (refused : ofLayer groupBy label = .error failure) : failure.kind = .invalidNodeId := by
  rcases Outcome.bind_eq_error_iff.mp refused with name | ⟨_, _, further⟩
  · exact Name.kind_of_ofText name
  · rcases Outcome.bind_eq_error_iff.mp further with name | ⟨_, _, ⟨⟩⟩
    exact Name.kind_of_ofText name

/-- The word of a tag holds no separator. -/
theorem unseparated_word (tag : NodeTag) : Unseparated tag.word := by
  rcases tag with kind | kind | _ | kind <;> (try cases kind) <;> constructor <;> decide

/-- The tag and the fields of an identifier hold no separator. -/
theorem unseparated_fields (id : NodeId) : ∀ field ∈ id.tag.word :: id.fields, Unseparated field := by
  intro field listed
  rcases List.mem_cons.mp listed with rfl | listed
  · exact unseparated_word id.tag
  · cases id with
    | named kind name =>
      rw [List.mem_singleton.mp listed]
      exact name.unseparated
    | member kind assembly token =>
      rcases (by simpa [fields] using listed) with rfl | rfl
      · exact assembly.unseparated
      · exact unseparated_toString token.value
    | layerGroup groupBy label =>
      rcases (by simpa [fields] using listed) with rfl | rfl
      · exact groupBy.unseparated
      · exact label.unseparated
    | artificial kind key =>
      rw [List.mem_singleton.mp listed]
      exact unseparated_toString key.value

/-- A written identifier is cut into its tag and its fields. -/
theorem pieces_encode (id : NodeId) :
    Text.pieces fieldSeparator id.encode = id.tag.word :: id.fields :=
  Text.pieces_intercalate (fun field listed => (unseparated_fields id field listed).1)
    (List.cons_ne_nil _ _)

/-- The fields of an identifier are read back behind its tag. -/
theorem decodeFields_fields (text : String) (id : NodeId) :
    decodeFields text id.tag id.fields = .ok id := by
  cases id with
  | named kind name =>
    change ofName kind name.text = _
    rw [ofName, Name.ofText_text]
    rfl
  | member kind assembly token =>
    change decodeMember text kind assembly.text (toString token.value) = _
    rw [decodeMember, natural?_toString token.bounded]
    change ofMember kind assembly.text token.value = _
    rw [ofMember, Name.ofText_text, Token.ofNat?_value]
    rfl
  | layerGroup groupBy label =>
    change ofLayer groupBy.text label.text = _
    rw [ofLayer, Name.ofText_text, Name.ofText_text]
    rfl
  | artificial kind key =>
    change decodeArtificial text kind (toString key.value) = _
    rw [decodeArtificial, natural?_toString key.bounded, Option.bind_some, Token.ofNat?_value]

/-- A written identifier is read back. -/
theorem decode_encode (id : NodeId) : decode id.encode = .ok id := by
  have tagged : Vocabulary.read? id.tag.word = some id.tag := Vocabulary.read_word id.tag
  rw [decode, pieces_encode]
  simp only [tagged]
  exact decodeFields_fields id.encode id

/-- Different identifiers are written differently. -/
theorem encode_injective {left right : NodeId} (same : left.encode = right.encode) : left = right := by
  have read := (decode_encode left).symm.trans (same ▸ decode_encode right)
  exact Except.ok.inj read

/-- Fields without separators give a text without the endpoint separator. -/
theorem endpointSeparator_not_mem_intercalate (fields : List String)
    (unseparated : ∀ field ∈ fields, Unseparated field) :
    endpointSeparator ∉ ("|".intercalate fields).toList := by
  induction fields with
  | nil => simp
  | cons field rest inductionHypothesis =>
    have first : endpointSeparator ∉ field.toList := (unseparated field List.mem_cons_self).2
    have later := inductionHypothesis
      (fun other listed => unseparated other (List.mem_cons_of_mem _ listed))
    have bar : endpointSeparator ∉ "|".toList := by decide
    cases rest with
    | nil => simpa using first
    | cons next further =>
      rw [String.intercalate_cons_cons, String.toList_append, String.toList_append,
        List.mem_append, List.mem_append, not_or, not_or]
      exact ⟨⟨first, bar⟩, later⟩

/-- A written identifier does not hold the endpoint separator. -/
theorem endpointSeparator_not_mem_encode (id : NodeId) : endpointSeparator ∉ id.encode.toList :=
  endpointSeparator_not_mem_intercalate _ (unseparated_fields id)

/-- A written identifier does not have the form of an edge. -/
theorem isEdgeText_encode (id : NodeId) : isEdgeText id.encode = false := by
  rw [isEdgeText, List.contains_eq_mem, decide_eq_false_iff_not]
  exact id.endpointSeparator_not_mem_encode

end NodeId

namespace EdgeId

/-- The characters of an edge's text: the client, the separator, the server. -/
theorem toList_ofEndpoints (client server : NodeId) :
    (ofEndpoints client server).text.toList =
      client.encode.toList ++ endpointSeparator :: server.encode.toList := by
  simp [ofEndpoints, String.toList_append, endpointSeparator]

/-- The endpoints of an edge are read back from its text. -/
theorem readEndpoints_ofEndpoints (client server : NodeId) :
    readEndpoints (ofEndpoints client server).text = .ok (client, server) := by
  have cut : Text.cutFirst? endpointSeparator (ofEndpoints client server).text =
      some (client.encode, server.encode) :=
    Text.cutFirst?_eq_some_iff.mpr ⟨client.endpointSeparator_not_mem_encode, rfl⟩
  rw [readEndpoints, cut]
  simp only [NodeId.decode_encode]
  rfl

/-- An edge's identifier is accepted as it was written. -/
theorem parse_ofEndpoints (client server : NodeId) :
    parse (ofEndpoints client server).text = .ok (ofEndpoints client server) := by
  rw [parse, readEndpoints_ofEndpoints]
  rfl

/-- Edges with the same identifier have the same endpoints. -/
theorem ofEndpoints_injective {client server otherClient otherServer : NodeId}
    (same : ofEndpoints client server = ofEndpoints otherClient otherServer) :
    client = otherClient ∧ server = otherServer := by
  have read := readEndpoints_ofEndpoints client server
  rw [same, readEndpoints_ofEndpoints, Except.ok.injEq, Prod.mk.injEq] at read
  exact ⟨read.1.symm, read.2.symm⟩

/-- Identifiers of edges with one text are one. -/
theorem eq_of_text {left right : EdgeId} (same : left.text = right.text) : left = right := by
  cases left
  cases right
  exact congrArg EdgeId.mk same

/-- Taking the suffix away from the identifier of an edge's label gives the edge's text. -/
theorem beforeTrailing_labelId (edge : EdgeId) :
    Text.beforeTrailing? labelSuffix edge.labelId = some edge.text := by
  have found : labelSuffix.toList.isSuffixOf? edge.labelId.toList = some edge.text.toList := by
    rw [List.isSuffixOf?_eq_some_iff_append_eq, labelId, String.toList_append]
  rw [Text.beforeTrailing?, found, Option.map_some, String.ofList_toList]

end EdgeId

namespace ElementId

/-- A written node identifier is read as that node. -/
theorem decode_encode (id : NodeId) : decode id.encode = .ok (node id) := by
  rw [decode, id.isEdgeText_encode, NodeId.decode_encode]
  rfl

/-- An edge's identifier is read as that edge. -/
theorem decode_ofEndpoints (client server : NodeId) :
    decode (EdgeId.ofEndpoints client server).text = .ok (edge (.ofEndpoints client server)) := by
  have divided : isEdgeText (EdgeId.ofEndpoints client server).text = true := by
    rw [isEdgeText, List.contains_eq_mem, decide_eq_true_eq, EdgeId.toList_ofEndpoints]
    exact List.mem_append_right _ List.mem_cons_self
  rw [decode, divided, EdgeId.parse_ofEndpoints]
  rfl

/-- The identifier of an edge's label is read as the label of that edge. -/
theorem decodeEdgeLabel_labelId (client server : NodeId) :
    decodeEdgeLabel (EdgeId.ofEndpoints client server).labelId =
      .ok (edgeLabel (.ofEndpoints client server)) := by
  rw [decodeEdgeLabel, EdgeId.beforeTrailing_labelId]
  simp only [EdgeId.parse_ofEndpoints]
  rfl

end ElementId

end DependencyDiagram

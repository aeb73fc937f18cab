import DependencyDiagram.Json.Value
import DependencyDiagram.Proofs.Json.Scanning

/-!
# Written values are read back

A value has its tokens, however it is spaced. Where every number, string and key of a value is spelled as
such, the compact form is scanned as these tokens, and so is the indented form, whose line breaks and
blanks are separators only. Reading the tokens gives the value again: whatever containers are open around
it, the value is complete behind its last token. So reading undoes writing.

The statement is about values and their texts. What a record makes of its members is another matter and
needs nothing of tokens any more.
-/

namespace DependencyDiagram.Json

/-- Every number, string and key of a value is spelled as such. Numbers and strings are kept as they are
spelled, so a value that no text can hold is one that breaks this condition. -/
inductive WellSpelled : Json → Prop where
  | null : WellSpelled null
  | bool (value : Bool) : WellSpelled (bool value)
  | number {spelling : String} (isNumber : isNumber spelling.toList = true) : WellSpelled (number spelling)
  | string {spelling : String} (wellFormed : isWellFormed spelling = true) :
    WellSpelled (string spelling)
  | array {items : List Json} (each : ∀ item ∈ items, WellSpelled item) : WellSpelled (array items)
  | object {members : List (String × Json)} (keys : ∀ member ∈ members, isWellFormed member.1 = true)
    (values : ∀ member ∈ members, WellSpelled member.2) : WellSpelled (object members)

/-- A text as a value is well spelled. -/
theorem wellSpelled_ofText (text : String) : WellSpelled (ofText text) := .string (isWellFormed_spell text)

/-- A natural number as a value is well spelled. -/
theorem wellSpelled_ofNat (value : Nat) : WellSpelled (ofNat value) := .number (isNumber_toString value)

/-- An object with texts as its keys is well spelled if its values are. -/
theorem wellSpelled_ofMembers {members : List (String × Json)}
    (values : ∀ member ∈ members, WellSpelled member.2) : WellSpelled (ofMembers members) := by
  refine .object ?_ ?_
  · intro member listed
    obtain ⟨other, _, rfl⟩ := List.mem_map.mp listed
    exact isWellFormed_spell other.1
  · intro member listed
    obtain ⟨other, present, rfl⟩ := List.mem_map.mp listed
    exact values other present

mutual

/-- The tokens of a value. -/
def tokens : Json → List Token
  | null => [.null]
  | bool value => [.bool value]
  | number spelling => [.number spelling]
  | string spelling => [.string spelling]
  | array items => [.openBracket] ++ [.comma].intercalate (itemTokens items) ++ [.closeBracket]
  | object members => [.openBrace] ++ [.comma].intercalate (memberTokens members) ++ [.closeBrace]

/-- The tokens of each item of an array. -/
def itemTokens : List Json → List (List Token)
  | [] => []
  | item :: rest => tokens item :: itemTokens rest

/-- The tokens of each member of an object. -/
def memberTokens : List (String × Json) → List (List Token)
  | [] => []
  | (key, value) :: rest => ([.string key] ++ [.colon] ++ tokens value) :: memberTokens rest

end

/-- The items of an array have their tokens one by one. -/
theorem itemTokens_eq_map (items : List Json) : itemTokens items = items.map tokens := by
  induction items with
  | nil => rfl
  | cons item rest inductionHypothesis => rw [itemTokens, inductionHypothesis, List.map_cons]

/-- The members of an object have their tokens one by one. -/
theorem memberTokens_eq_map (members : List (String × Json)) :
    memberTokens members =
      members.map (fun member => [.string member.1] ++ [.colon] ++ tokens member.2) := by
  induction members with
  | nil => rfl
  | cons member rest inductionHypothesis => rw [memberTokens, inductionHypothesis, List.map_cons]

/-- The items of an array are written one by one. -/
theorem compactItems_eq_map (items : List Json) : compactItems items = items.map compact := by
  induction items with
  | nil => rfl
  | cons item rest inductionHypothesis => rw [compactItems, inductionHypothesis, List.map_cons]

/-- The members of an object are written one by one. -/
theorem compactMembers_eq_map (members : List (String × Json)) :
    compactMembers members =
      members.map (fun member => literal member.1 ++ ":" ++ compact member.2) := by
  induction members with
  | nil => rfl
  | cons member rest inductionHypothesis => rw [compactMembers, inductionHypothesis, List.map_cons]

/-- The compact form of a value is scanned as the value's tokens. -/
theorem scans_compact {value : Json} (wellSpelled : WellSpelled value) :
    Scans value.compact value.tokens := by
  induction wellSpelled with
  | null => exact scans_word rfl rfl
  | bool value => cases value <;> exact scans_word rfl rfl
  | number isNumber => exact scans_number isNumber
  | string wellFormed => exact scans_literal wellFormed
  | array each inductionHypothesis =>
    rw [compact, tokens, compactItems_eq_map, itemTokens_eq_map]
    exact scans_enclosed rfl rfl (scans_intercalate rfl inductionHypothesis)
  | object keys values inductionHypothesis =>
    rw [compact, tokens, compactMembers_eq_map, memberTokens_eq_map]
    refine scans_enclosed rfl rfl (scans_intercalate rfl ?_)
    exact fun member listed =>
      scans_joined rfl (scans_literal (keys member listed)) (inductionHypothesis member listed)

/-- A line break with its indentation consists of separators. -/
theorem isSeparator_of_mem_lineAt {depth : Nat} {character : Char}
    (listed : character ∈ (lineAt depth).toList) : isSeparator character = true := by
  rw [lineAt, String.toList_append, String.toList_join, List.mem_append, List.mem_flatMap] at listed
  rcases listed with here | ⟨blanks, repeated, here⟩
  · obtain rfl : character = '\n' := by simpa using here
    rfl
  · rw [List.eq_of_mem_replicate repeated] at here
    obtain rfl : character = ' ' := by simpa using here
    rfl

/-- A line break with its indentation consists of marks, and it leaves no token. -/
theorem isMarks_lineAt (depth : Nat) : isMarks (lineAt depth) = true ∧ marks (lineAt depth) = [] := by
  constructor
  · rw [isMarks, Bool.and_eq_true]
    constructor
    · simp [lineAt]
    · refine List.all_eq_true.mpr (fun character listed => ?_)
      rw [isMark, isSeparator_of_mem_lineAt listed, Bool.true_or]
  · refine List.filterMap_eq_nil_iff.mpr (fun character listed => ?_)
    exact ofPunctuation?_of_isSeparator (isSeparator_of_mem_lineAt listed)

/-- Two texts of marks make a text of marks. -/
theorem isMarks_append {first second : String} (before : isMarks first = true)
    (after : isMarks second = true) : isMarks (first ++ second) = true := by
  rw [isMarks, Bool.and_eq_true] at before after ⊢
  rw [String.toList_append, List.all_append, before.2, after.2]
  simp_all

/-- Two texts of marks have their tokens one after the other. -/
theorem marks_append (first second : String) : marks (first ++ second) = marks first ++ marks second := by
  rw [marks, String.toList_append, List.filterMap_append]
  rfl

/-- A container is scanned part by part, each of them on a line of its own. Line breaks and indentation
count as marks that stand for no token, so the brackets and commas together with the lines around them
are still nothing but marks. -/
theorem scans_indentedParts {α : Type} {parts : List α} {opening closing : String} {text : α → String}
    {tokens : α → List Token} (opens : isMarks opening = true) (closes : isMarks closing = true)
    (depth : Nat) (each : ∀ part ∈ parts, Scans (text part) (tokens part)) :
    Scans (indentedParts opening closing depth (parts.map text))
      (marks opening ++ [.comma].intercalate (parts.map tokens) ++ marks closing) := by
  cases parts with
  | nil =>
    have together := scans_enclosed opens closes scans_empty
    rwa [String.append_empty] at together
  | cons part rest =>
    obtain ⟨first, silent⟩ := isMarks_lineAt (depth + 1)
    obtain ⟨last, mute⟩ := isMarks_lineAt depth
    have between : isMarks ("," ++ lineAt (depth + 1)) = true := isMarks_append rfl first
    have comma : marks ("," ++ lineAt (depth + 1)) = [.comma] := by
      rw [marks_append, silent]
      rfl
    have inside := scans_intercalate between each
    rw [comma] at inside
    have whole := scans_enclosed (isMarks_append opens first) (isMarks_append last closes) inside
    rw [marks_append, marks_append, silent, mute, List.append_nil, List.nil_append] at whole
    rw [indentedParts, List.map_cons, List.isEmpty_cons, if_neg Bool.false_ne_true,
      String.append_assoc]
    exact whole

/-- The items of an array are indented one by one. -/
theorem indentedItems_eq_map (depth : Nat) (items : List Json) :
    indentedItems depth items = items.map (indentedAt depth) := by
  induction items with
  | nil => rfl
  | cons item rest inductionHypothesis => rw [indentedItems, inductionHypothesis, List.map_cons]

/-- The members of an object are indented one by one. -/
theorem indentedMembers_eq_map (depth : Nat) (members : List (String × Json)) :
    indentedMembers depth members =
      members.map (fun member => literal member.1 ++ ": " ++ indentedAt depth member.2) := by
  induction members with
  | nil => rfl
  | cons member rest inductionHypothesis => rw [indentedMembers, inductionHypothesis, List.map_cons]

/-- The indented form of a value is scanned as the value's tokens, at whatever depth it stands. -/
theorem scans_indentedAt {value : Json} (wellSpelled : WellSpelled value) (depth : Nat) :
    Scans (value.indentedAt depth) value.tokens := by
  induction wellSpelled generalizing depth with
  | null =>
    rw [indentedAt, tokens]
    exact scans_word rfl rfl
  | bool value =>
    rw [indentedAt, tokens]
    cases value <;> exact scans_word rfl rfl
  | number isNumber => exact scans_number isNumber
  | string wellFormed => exact scans_literal wellFormed
  | array each inductionHypothesis =>
    rw [indentedAt, tokens, indentedItems_eq_map, itemTokens_eq_map]
    exact scans_indentedParts rfl rfl depth
      (fun item listed => inductionHypothesis item listed (depth + 1))
  | object keys values inductionHypothesis =>
    rw [indentedAt, tokens, indentedMembers_eq_map, memberTokens_eq_map]
    refine scans_indentedParts rfl rfl depth (fun member listed => ?_)
    exact scans_joined rfl (scans_literal (keys member listed))
      (inductionHypothesis member listed (depth + 1))

section Parts

variable {α : Type} (tokensOf : α → List Token) (awaiting : List α → Expected)
  (taken : α → List α → Expected) (finished : List α → Expected) (closing : Token)

/-- The parts of a container are taken one by one, from commas to the closing token. -/
theorem run_parts {part : α} {parts : List α}
    (comma : ∀ part before, (taken part before).step .comma = some (awaiting (part :: before)))
    (closes : ∀ part before, (taken part before).step closing = some (finished (part :: before).reverse))
    (each : ∀ other ∈ part :: parts, ∀ before rest,
      (awaiting before).run (tokensOf other ++ rest) = (taken other before).run rest)
    (before : List α) (rest : List Token) :
    (awaiting before).run ([.comma].intercalate ((part :: parts).map tokensOf) ++ closing :: rest) =
      (finished (before.reverse ++ part :: parts)).run rest := by
  have here := each part List.mem_cons_self before
  induction parts generalizing part before with
  | nil =>
    rw [List.map_cons, List.map_nil, List.intercalate_singleton, here, Expected.run, closes]
    simp
  | cons next others inductionHypothesis =>
    have further := fun other listed => each other (List.mem_cons_of_mem part listed)
    have resumed := inductionHypothesis further (part :: before) (further next List.mem_cons_self _)
    rw [List.map_cons, List.map_cons, List.intercalate_cons_cons, List.append_assoc, List.append_assoc,
      here, List.singleton_append, Expected.run, comma, ← List.map_cons]
    dsimp only
    rw [resumed]
    simp

end Parts

/-- A value is complete behind its tokens, whatever containers are open around it. The stack is
arbitrary, which is what makes the induction over nested values go through. -/
def Completes (value : Json) : Prop :=
  ∀ stack rest, (Expected.anyValue stack).run (value.tokens ++ rest) =
    (Expected.follow value stack).run rest

/-- No value begins with a closing bracket. -/
theorem tokens_eq_cons (value : Json) :
    ∃ first later, value.tokens = first :: later ∧ first ≠ .closeBracket := by
  cases value <;> exact ⟨_, _, rfl, nofun⟩

/-- Where an array may end, any other token is taken as that of its first item. -/
theorem run_firstItem {first : Token} (noEnd : first ≠ .closeBracket) (stack : List Unfinished)
    (rest : List Token) :
    (Expected.firstItem stack).run (first :: rest) =
      (Expected.anyValue (.array [] :: stack)).run (first :: rest) := by
  have same : (Expected.firstItem stack).step first =
      (Expected.anyValue (.array [] :: stack)).step first := by
    cases first <;> first | rfl | exact absurd rfl noEnd
  rw [Expected.run, Expected.run, same]

/-- An array of complete items is complete. -/
theorem completes_array {items : List Json} (each : ∀ item ∈ items, Completes item) :
    Completes (array items) := by
  intro stack rest
  rw [tokens, itemTokens_eq_map, List.append_assoc, List.append_assoc]
  change (Expected.firstItem stack).run _ = _
  cases items with
  | nil => rfl
  | cons item others =>
    obtain ⟨first, later, begins, noEnd⟩ := tokens_eq_cons item
    have items := run_parts tokens (fun before => .anyValue (.array before :: stack))
      (fun item before => .follow item (.array before :: stack)) (fun items => .follow (array items) stack)
      .closeBracket (fun _ _ => rfl) (fun _ _ => rfl)
      (fun other listed before more => each other listed (.array before :: stack) more) [] rest
    rw [List.map_cons, begins, List.intercalate_cons_cons_left] at items ⊢
    exact (run_firstItem noEnd stack _).trans items

/-- An object of complete values is complete. -/
theorem completes_object {members : List (String × Json)}
    (each : ∀ member ∈ members, Completes member.2) : Completes (object members) := by
  intro stack rest
  rw [tokens, memberTokens_eq_map, List.append_assoc, List.append_assoc]
  change (Expected.firstKey stack).run _ = _
  cases members with
  | nil => rfl
  | cons member others =>
    have taken : ∀ other ∈ member :: others, ∀ before more,
        (Expected.key before stack).run ([.string other.1] ++ [.colon] ++ tokens other.2 ++ more) =
          (Expected.follow other.2 (.object before other.1 :: stack)).run more :=
      fun other listed before more => each other listed (.object before other.1 :: stack) more
    have members := run_parts _ (fun before => .key before stack)
      (fun member before => .follow member.2 (.object before member.1 :: stack))
      (fun members => .follow (object members) stack) .closeBrace (fun _ _ => rfl) (fun _ _ => rfl) taken
      [] rest
    rw [List.map_cons, List.append_assoc, List.singleton_append, List.intercalate_cons_cons_left]
      at members ⊢
    exact members

mutual

/-- Every value is complete behind its tokens. -/
theorem completes : ∀ value : Json, Completes value
  | null | bool _ | number _ | string _ => fun _ _ => rfl
  | array items => completes_array (items_complete items)
  | object members => completes_object (members_complete members)

/-- The items of an array are complete behind their tokens. -/
theorem items_complete : ∀ items : List Json, ∀ item ∈ items, Completes item
  | [] => fun _ listed => nomatch listed
  | item :: rest => List.forall_mem_cons.mpr ⟨completes item, items_complete rest⟩

/-- The values of an object's members are complete behind their tokens. -/
theorem members_complete : ∀ members : List (String × Json), ∀ member ∈ members, Completes member.2
  | [] => fun _ listed => nomatch listed
  | (_, value) :: rest => List.forall_mem_cons.mpr ⟨completes value, members_complete rest⟩

end

/-- The tokens of a value form the value. -/
theorem ofTokens?_tokens (value : Json) : ofTokens? value.tokens = some value := by
  have whole := completes value [] []
  rw [List.append_nil] at whole
  rw [ofTokens?, whole]
  rfl

/-- A well-spelled value is read back from its compact form. -/
theorem read?_compact {value : Json} (wellSpelled : WellSpelled value) :
    read? value.compact = some value := by
  rw [read?, tokens?_of_scans (scans_compact wellSpelled), Option.bind_some, ofTokens?_tokens]

/-- A well-spelled value is read back from its indented form. -/
theorem read?_indented {value : Json} (wellSpelled : WellSpelled value) :
    read? value.indented = some value := by
  rw [read?, indented, tokens?_of_scans (scans_indentedAt wellSpelled 0), Option.bind_some,
    ofTokens?_tokens]

end DependencyDiagram.Json

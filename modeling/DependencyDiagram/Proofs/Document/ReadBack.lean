import DependencyDiagram.Document.Reflection
import DependencyDiagram.Proofs.Json.Records
import DependencyDiagram.Proofs.Ordered.Contents

/-!
# Documents are read back

Types, assemblies, methods and their calls are read back from their JSON forms, and so are the maps of a
document, since their entries are written in the order of their keys. So a document is read back from its
text. What reading makes of the text depends on the version alone: the header is found whatever else the
text holds, and a document of another version is reported with its version.

That the version is looked at first makes it possible to replace the form of documents. A text of an
older version need not have any of the members that a document has now.
-/

namespace DependencyDiagram

namespace Json

/-- A word of thirty-two bits is within the bound. -/
theorem toNat_le_maxWord32 (word : UInt32) : word.toNat ≤ Text.maxWord32 :=
  Nat.le_of_lt_succ word.toNat_lt

/-- Whole numbers of thirty-two bits are read back. -/
theorem faithful_word32 : Faithful (fun word : UInt32 => ofNat word.toNat) word32? where
  wellSpelled word := wellSpelled_ofNat word.toNat
  readBack word := by
    rw [word32?, nat?_ofNat, if_pos (toNat_le_maxWord32 word), Option.map_some,
      UInt32.ofNat_toNat]

/-- A whole number of thirty-two bits is read back from its spelling as a key. -/
theorem word32Key?_spell (word : UInt32) : word32Key? (spell (toString word.toNat)) = some word := by
  rw [word32Key?, spell_toString, wholeNumber?_toString,
    if_pos (toNat_le_maxWord32 word), Option.map_some, UInt32.ofNat_toNat]

/-- Tables in ascending order are read back if their values are and their keys can be told from their
spelling. -/
theorem Faithful.ascending {κ ν : Type} [Ord κ] [Std.TransOrd κ] [Std.LawfulEqOrd κ]
    {write : ν → Json} {read : Json → Option ν} {text : κ → String} {readKey : String → Option κ}
    (faithful : Faithful write read) (keys : ∀ key, readKey (spell (text key)) = some key) :
    Faithful (fun table : Ascending κ ν =>
        ofMembers (table.entries.map (fun entry => (text entry.1, write entry.2))))
      (Reflection.ascending? readKey read) where
  wellSpelled table := (faithful.entries keys).wellSpelled table.entries
  readBack table := by
    rw [Reflection.ascending?, (faithful.entries keys).readBack, Option.map_some, table.ofList_entries]

end Json

/-- Types are read back. -/
theorem TypeInfo.faithful : Json.Faithful toJson ofJson? where
  wellSpelled info := by
    refine Json.wellSpelled_ofMembers ?_
    cases info.nameSpace <;> simp [Json.wellSpelled_ofText, Json.wellSpelled_ofNat]
  readBack info := by
    obtain ⟨nameSpace, name, token⟩ := info
    cases nameSpace with
    | none =>
      rw [ofJson?, toJson, Json.fields?_ofMembers (by simp) (by simp)]
      simp [Json.Fields.withDefault, Json.Fields.required, Json.Fields.find?,
        Json.faithful_text.readBack, Json.faithful_word32.readBack]
    | some text =>
      rw [ofJson?, toJson, Json.fields?_ofMembers (by simp) (by simp)]
      simp [Json.Fields.withDefault, Json.Fields.required, Json.Fields.find?, Json.nullable?_ofText,
        Json.faithful_text.readBack, Json.faithful_word32.readBack]

/-- Assemblies are read back. -/
theorem AssemblyInfo.faithful : Json.Faithful toJson ofJson? where
  wellSpelled info := by
    refine Json.wellSpelled_ofMembers ?_
    simp [Json.faithful_text.list.wellSpelled info.references,
      TypeInfo.faithful.list.wellSpelled info.types]
  readBack info := by
    rw [ofJson?, toJson, Json.fields?_ofMembers (by simp) (by simp)]
    simp [Json.Fields.withDefault, Json.Fields.find?, Json.faithful_text.list.readBack,
      TypeInfo.faithful.list.readBack]

/-- Calls are read back. -/
theorem MethodRef.faithful : Json.Faithful toJson ofJson? where
  wellSpelled reference := by
    refine Json.wellSpelled_ofMembers ?_
    simp [Json.wellSpelled_ofText, Json.wellSpelled_ofNat]
  readBack reference := by
    rw [ofJson?, toJson, Json.fields?_ofMembers (by simp) (by simp)]
    simp [Json.Fields.required, Json.Fields.find?, Json.faithful_text.readBack,
      Json.faithful_word32.readBack]

/-- Methods are read back. -/
theorem MethodInfo.faithful : Json.Faithful toJson ofJson? where
  wellSpelled info := by
    refine Json.wellSpelled_ofMembers ?_
    simp [Json.wellSpelled_ofText, Json.wellSpelled_ofNat,
      MethodRef.faithful.list.wellSpelled info.calls]
  readBack info := by
    rw [ofJson?, toJson, Json.fields?_ofMembers (by simp) (by simp)]
    simp [Json.Fields.withDefault, Json.Fields.required, Json.Fields.find?,
      Json.faithful_text.readBack, Json.faithful_word32.readBack, MethodRef.faithful.list.readBack]

namespace Reflection

/-- The methods of an assembly are read back. -/
theorem faithful_methods :
    Json.Faithful methodsToJson (ascending? Json.word32Key? MethodInfo.ofJson?) :=
  MethodInfo.faithful.ascending Json.word32Key?_spell

/-- Documents are read back, whatever their version. -/
theorem faithful : Json.Faithful toJson ofJson? where
  wellSpelled document := by
    refine Json.wellSpelled_ofMembers ?_
    simp [Json.wellSpelled_ofNat, Json.faithful_text.list.wellSpelled document.executables,
      (AssemblyInfo.faithful.ascending Json.unspell?_spell).wellSpelled document.assemblies,
      (faithful_methods.ascending Json.unspell?_spell).wellSpelled document.methods]
  readBack document := by
    rw [ofJson?, toJson, Json.fields?_ofMembers (by simp) (by simp)]
    simp [Json.Fields.withDefault, Json.Fields.find?, Json.faithful_word32.readBack,
      Json.faithful_text.list.readBack,
      (AssemblyInfo.faithful.ascending Json.unspell?_spell).readBack,
      (faithful_methods.ascending Json.unspell?_spell).readBack]

/-- The header of a document states its version. -/
theorem versionOf?_toJson (document : Reflection) :
    versionOf? document.toJson = some document.version := by
  rw [versionOf?, toJson, Json.fields?_filter (by simp)]
  simp [Json.Fields.withDefault, Json.Fields.find?, Json.faithful_word32.readBack]

/-- The text of a document is read as the document if it is of the present version, and is otherwise
found to be of the version that the document has. The documents are arbitrary: names may be of any
characters, maps of any size, and calls may lead to methods that are not there. -/
theorem document_read_back (explain : String → String) (document : Reflection) :
    parse explain document.toText = .ok (if document.version = presentVersion then .current document
      else .stale document.version) := by
  have read : (Json.read? document.toText).bind (fun value => (versionOf? value).map (value, ·)) =
      some (document.toJson, document.version) := by
    rw [toText, Json.read?_compact (faithful.wellSpelled document), Option.bind_some,
      versionOf?_toJson, Option.map_some]
  rw [parse_eq_ok_iff, content, read]
  simp only [faithful.readBack document]
  split <;> rfl

/-- A text of another version says nothing but its version. -/
example : content "\x7b\"version\":0,\"assemblies\":5\x7d" = .ok (.stale 0) := by decide +kernel

end Reflection

end DependencyDiagram

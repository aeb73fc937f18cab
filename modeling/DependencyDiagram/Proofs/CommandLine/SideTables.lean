import DependencyDiagram.CommandLine.Run
import DependencyDiagram.Proofs.Json.Records
import DependencyDiagram.Proofs.Ordered.Contents

/-!
# Written side tables are read back

A run writes the side table of its view in indented form. The attributes of an element are read back
whether they have a tooltip or not, and the rows stand in the text in the order of the table. Since no
element is listed twice, reading the text gives the table again, row by row. What is written for a
message reads as the table without rows.
-/

namespace DependencyDiagram

/-- The attributes of elements are read back. -/
theorem ElementAttributes.faithful : Json.Faithful toJson ofJson? where
  wellSpelled attributes := by
    refine Json.wellSpelled_ofMembers ?_
    cases attributes.tooltip <;> simp [Json.wellSpelled_ofText]
  readBack attributes := by
    obtain ⟨className, tooltip⟩ := attributes
    cases tooltip with
    | none =>
      change (Json.ofMembers [("className", Json.ofText className)]).fields?
        ["className", "tooltip"] >>= _ = _
      rw [Json.fields?_ofMembers (by simp) (by simp)]
      simp [Json.Fields.withDefault, Json.Fields.required, Json.Fields.find?,
        Json.faithful_text.readBack]
    | some text =>
      change (Json.ofMembers [("className", Json.ofText className),
        ("tooltip", Json.ofText text)]).fields? ["className", "tooltip"] >>= _ = _
      rw [Json.fields?_ofMembers (by simp) (by simp)]
      simp [Json.Fields.withDefault, Json.Fields.required, Json.Fields.find?, Json.nullable?_ofText,
        Json.faithful_text.readBack]

/-- Side tables are read back. -/
theorem SideTable.faithful : Json.Faithful toJson ofJson? where
  wellSpelled side := (ElementAttributes.faithful.entries Json.unspell?_spell).wellSpelled side.entries
  readBack side := by
    rw [ofJson?, Json.table?, toJson, (ElementAttributes.faithful.entries Json.unspell?_spell).readBack,
      Option.map_some, Table.ofList_entries]

/-- The text that a run writes for a view reads as the side table of the view's diagram, with the same
rows in the same order. For a message it reads as the table without rows. The rows have the same
attributes in the same order. A program that handles clicks can therefore work from the text, as the run
itself would from the table. -/
theorem side_table_read_back (view : ViewDescription) :
    SideTable.read? (Run.sideText view) = some (match view.content with
      | .diagram _ side _ => side
      | .message _ => Table.empty) := by
  rw [Run.sideText, ViewDescription.side?]
  cases view.content with
  | diagram text side image =>
    rw [SideTable.read?, Json.read?_indented (SideTable.faithful.wellSpelled side), Option.bind_some,
      SideTable.faithful.readBack]
  | message text =>
    have blank : (Json.object []).WellSpelled := .object nofun nofun
    rw [SideTable.read?, Json.read?_indented blank]
    rfl

/-- An element is named by any text, and a tooltip that is absent is left out. -/
example :
    (SideTable.toJson (Table.ofList [("a\"\\", ⟨"leaf", none⟩)])).indented =
      "\x7b\n  \"a\\\"\\\\\": \x7b\n    \"className\": \"leaf\"\n  \x7d\n\x7d" := by decide +kernel

end DependencyDiagram

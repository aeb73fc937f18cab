import DependencyDiagram.Proofs.Areas.Entities
import Mathlib.Data.List.Forall2

/-!
# Areas read back

A renderer writes an area as an element with six attributes, their values written in any of the ways that
entities allow, and it puts any text without elements between them. The search for attributes finds these
six one behind the other, whatever their values look like, for no written value holds a quotation mark.
So reading an image map gives back exactly the areas that the side table knows, in order, with what was
written in them.

Identifiers, shapes and titles are arbitrary texts. They may read like attributes, like entities or like
the end of an element, and none of this confuses the search.
-/

namespace DependencyDiagram

namespace Text

/-- Without a sign in front of them, digits are read as they are. -/
theorem withoutPlus_toDigits (value : Nat) :
    withoutPlus (Nat.toDigits 10 value) = Nat.toDigits 10 value := by
  refine (withoutPlus_eq_iff (fun sign => ?_)).mpr (Or.inl rfl)
  have digit : Char.isDigit '+' = true :=
    Nat.isDigit_of_mem_toDigits (by decide) (by decide) (List.mem_of_head? sign)
  exact absurd digit (by decide)

/-- An integer within the bounds is read back from its text. -/
theorem integer?_toString {bound : Nat} {value : Int} (low : -(bound + 1 : Int) ≤ value)
    (high : value ≤ bound) : integer? bound (toString value) = some value := by
  rw [integer?, Int.toString_eq_repr, Int.repr_eq_if]
  by_cases positive : 0 ≤ value
  · rw [if_pos positive, Nat.toList_repr]
    split
    · next rest minus =>
      have digit : Char.isDigit '-' = true :=
        Nat.isDigit_of_mem_toDigits (by decide) (by decide) (minus ▸ List.mem_cons_self)
      exact absurd digit (by decide)
    · rw [withoutPlus_toDigits, ← toList_toString, digits?_toString]
      have fits : value.toNat ≤ bound := by omega
      rw [Option.filter_some, decide_eq_true fits, if_pos rfl, Option.map_some]
      exact congrArg some (Int.toNat_of_nonneg positive)
  · have minus : ("-" ++ (-value).toNat.repr).toList = '-' :: (toString (-value).toNat).toList := by
      rw [String.toList_append, Nat.toString_eq_repr]
      rfl
    have fits : (-value).toNat ≤ bound + 1 := by omega
    simp only [if_neg positive, minus, digits?_toString, Option.filter_some, decide_eq_true fits, if_true]
    refine congrArg some ?_
    change -((-value).toNat : Int) = value
    omega

end Text

namespace Areas

variable {value text rest : List Char} {side : SideTable} {markup : String}

/-- The coordinates of an area as one text. -/
def coordinatesText (coords : List Int32) : String :=
  ",".intercalate (coords.map (fun coordinate => toString coordinate.toInt))

/-- A coordinate is written without separators, and not as an empty text. -/
theorem toString_coordinate (coordinate : Int) : (toString coordinate).toList ≠ [] ∧
    ∀ character ∈ (toString coordinate).toList, separatesCoordinates character = false := by
  have digits (value : Nat) : ∀ character ∈ value.repr.toList, separatesCoordinates character = false := by
    have each : ∀ digit < 10, separatesCoordinates (Nat.digitChar digit) = false := by decide
    intro character listed
    rw [Nat.toList_repr] at listed
    obtain ⟨small, same⟩ := Text.digitChar_of_isDigit
      (Nat.isDigit_of_mem_toDigits (by decide) (by decide) listed)
    rw [← same]
    exact each _ small
  rw [Int.toString_eq_repr, Int.repr_eq_if]
  split
  · exact ⟨by rw [Nat.toList_repr]; exact Nat.toDigits_ne_nil, digits _⟩
  · rw [String.toList_append]
    refine ⟨List.append_ne_nil_of_left_ne_nil (by decide) _, fun character listed => ?_⟩
    rcases List.mem_append.mp listed with sign | digit
    · obtain rfl := List.mem_singleton.mp sign
      decide
    · exact digits _ character digit

/-- Words with commas between them are the parts of the text. -/
theorem coordinateParts_intercalate {words : List String} (each : ∀ word ∈ words, word.toList ≠ [] ∧
    ∀ character ∈ word.toList, separatesCoordinates character = false) :
    coordinateParts (",".intercalate words) = words := by
  induction words with
  | nil => decide
  | cons word rest inductionHypothesis =>
    obtain ⟨given, unseparated⟩ := each word List.mem_cons_self
    have further := inductionHypothesis (fun other listed => each other (List.mem_cons_of_mem word listed))
    cases rest with
    | nil =>
      rw [coordinateParts, String.intercalate_singleton, List.splitOnP_eq_singleton unseparated]
      simp [given]
    | cons next rest =>
      have cut : (",".intercalate (word :: next :: rest)).toList =
          word.toList ++ ',' :: (",".intercalate (next :: rest)).toList := by
        rw [String.intercalate_cons_cons]
        simp
      rw [coordinateParts, cut, List.splitOnP_append_cons_of_forall_mem unseparated _ (by decide),
        List.filter_cons_of_pos (by simpa using given), List.map_cons, String.ofList_toList]
      exact congrArg (word :: ·) further

/-- Coordinates are read back from their text. -/
theorem readCoordinates_text (coords : List Int32) :
    readCoordinates (coordinatesText coords) = .ok (coords.map Int32.toInt) := by
  have words : coordinateParts (coordinatesText coords) =
      coords.map (fun coordinate => toString coordinate.toInt) := by
    refine coordinateParts_intercalate (fun word listed => ?_)
    obtain ⟨coordinate, _, rfl⟩ := List.mem_map.mp listed
    exact toString_coordinate coordinate.toInt
  rw [readCoordinates, words, Outcome.mapM_eq_ok_iff, List.forall₂_map_left_iff,
    List.forall₂_map_right_iff, List.forall₂_same]
  intro coordinate _
  have low := coordinate.le_toInt
  have high := coordinate.toInt_lt
  rw [Text.integer?_toString (by rw [maxCoordinate]; omega) (by rw [maxCoordinate]; omega)]

/-- An attribute as it is written, given the written form of its value. -/
def attributeText (name : String) (text : List Char) : List Char :=
  name.toList ++ '=' :: '"' :: (text ++ ['"'])

/-- A word that may name an attribute. -/
def IsName (name : String) : Prop :=
  ∃ first further, name.toList = first :: further ∧ beginsName first = true ∧
    ∀ character ∈ further, continuesName character = true

/-- An attribute in a text is an occurrence. -/
theorem attributePattern_attribute {name : String} (named : IsName name) (unquoted : '"' ∉ text)
    (rest : List Char) :
    attributePattern (attributeText name text ++ rest) =
      some (some (name, String.ofList text), (attributeText name text).length) := by
  obtain ⟨first, further, spelled, begins, continues⟩ := named
  have whole : attributeText name text ++ rest =
      first :: (further ++ '=' :: '"' :: (text ++ '"' :: rest)) := by simp [attributeText, spelled]
  have word : (further ++ '=' :: '"' :: (text ++ '"' :: rest)).takeWhile continuesName = further :=
    Text.takeWhile_append_mark continues (by decide)
  have behind : (further ++ '=' :: '"' :: (text ++ '"' :: rest)).dropWhile continuesName =
      '=' :: '"' :: (text ++ '"' :: rest) := by
    rw [List.dropWhile_append_of_pos continues, List.dropWhile_cons_of_neg (by decide)]
  have quoted : (text ++ '"' :: rest).takeWhile (· != '"') = text :=
    Text.takeWhile_append_of_not_mem unquoted
  have length : (attributeText name text).length = (first :: further).length + 2 + text.length + 1 := by
    simp [attributeText, spelled]
    omega
  rw [whole, attributePattern, if_pos begins, word, behind]
  simp only [quoted]
  rw [if_pos (by simp), ← spelled, String.ofList_toList, length, spelled]

/-- A blank is no part of an attribute. -/
theorem attributePattern_blank (rest : List Char) : attributePattern (' ' :: rest) = none := rfl

/-- A body that begins with an attribute has it, with its value as it was before it was written. -/
theorem attributesOf_attribute {name value : String} {text : List Char} (named : IsName name)
    (written : Written value.toList text) (rest : List Char) :
    attributesOf (' ' :: (attributeText name text ++ rest)) = (name, value) :: attributesOf rest := by
  have given : attributeText name text ≠ [] := by
    rw [attributeText]
    exact List.append_ne_nil_of_right_ne_nil _ (List.cons_ne_nil _ _)
  have read : unescape (String.ofList text) = value :=
    unescape_of_written (by rwa [String.toList_ofList])
  rw [attributesOf, Text.occurrences_cons (attributePattern_blank _),
    Text.occurrences_of_occurrence given
      (attributePattern_attribute named (not_mem_of_written written '"' (by decide)) rest),
    List.filterMap_cons, id_eq]
  exact congrArg (fun found => (name, found) :: attributesOf rest) read

/-- What a renderer writes of one area. The identifier is any text, since areas are written for elements
which the side table does not know as well. -/
structure Region where
  id : String
  shape : String
  title : String
  coords : List Int32
deriving DecidableEq

namespace Region

variable {region : Region} {element : Element}

/-- The element is one that a renderer may write for the area: six attributes in a fixed order, with
their values written in any way, and a slash at the end. The value of each attribute may be written in a
way of its own, and so may each of its characters. -/
def Writes (region : Region) (element : Element) : Prop :=
  ∃ shape id anchor title coords : List Char,
    Written region.shape.toList shape ∧ Written region.id.toList id ∧ Written "#".toList anchor ∧
    Written region.title.toList title ∧ Written (coordinatesText region.coords).toList coords ∧
    element.body = [("shape", shape), ("id", id), ("href", anchor), ("title", title), ("alt", []),
      ("coords", coords)].flatMap (fun pair => ' ' :: attributeText pair.1 pair.2) ++ ['/']

/-- What an area says of itself. -/
def outline (region : Region) : Outline :=
  ⟨some region.id, region.shape, region.coords.map Int32.toInt, some region.title⟩

/-- The area as it is to be read: if the side table has a row for it, with the class of that row, and
with the tooltip of that row or else its own title. The class is always that of the row, for the markup
does not say it. -/
def area? (side : SideTable) (region : Region) : Option Area :=
  (side.get? region.id).map (fun row =>
    ⟨region.id, region.shape, region.coords.map Int32.toInt, row.className,
      some (row.tooltip.getD region.title)⟩)

/-- The attributes of a written area are the six that were written. -/
theorem attributes_of_writes (writes : region.Writes element) :
    element.attributes = [("shape", region.shape), ("id", region.id), ("href", "#"),
      ("title", region.title), ("alt", ""), ("coords", coordinatesText region.coords)] := by
  obtain ⟨shape, id, anchor, title, coords, ofShape, ofId, ofAnchor, ofTitle, ofCoords, body⟩ := writes
  have named : ∀ name ∈ ["shape", "id", "href", "title", "alt", "coords"], IsName name := by
    intro name listed
    simp only [List.mem_cons, List.not_mem_nil, or_false] at listed
    rcases listed with rfl | rfl | rfl | rfl | rfl | rfl <;>
      exact ⟨_, _, rfl, by decide, List.all_eq_true.mp (by decide)⟩
  have ofNothing : Written "".toList [] := .nothing
  rw [Element.attributes, body, withoutSlash, List.getLast?_concat, if_pos rfl, List.dropLast_concat]
  simp only [List.flatMap_cons, List.flatMap_nil, List.cons_append]
  rw [attributesOf_attribute (named "shape" (by decide)) ofShape,
    attributesOf_attribute (named "id" (by decide)) ofId,
    attributesOf_attribute (named "href" (by decide)) ofAnchor,
    attributesOf_attribute (named "title" (by decide)) ofTitle,
    attributesOf_attribute (named "alt" (by decide)) ofNothing,
    attributesOf_attribute (named "coords" (by decide)) ofCoords]
  rfl

/-- A written area says what it said before it was written. -/
theorem outline_of_writes (writes : region.Writes element) :
    Outline.ofAttributes element.attributes = .ok region.outline := by
  rw [attributes_of_writes writes, Outline.ofAttributes]
  simp only [List.foldlM_cons, List.foldlM_nil, Outline.accept, readCoordinates_text]
  rfl

/-- The side table makes of what an area says the area as it is to be read. -/
theorem area?_outline (side : SideTable) (region : Region) :
    Outline.area? side region.outline = region.area? side := by
  rw [Outline.area?, area?, outline, Option.bind_eq_bind, Option.bind_some]
  cases side.get? region.id with
  | none => rfl
  | some row => cases given : row.tooltip <;> simp [given]

end Region

/-- A text is what a renderer may write for areas: an element for each, in order, with text around them
in which no element begins. Around the elements there may be other markup, such as the element that holds
the map. -/
def Renders (regions : List Region) (markup : String) : Prop :=
  ∃ elements, List.Forall₂ Region.Writes regions elements ∧ Lists elements markup.toList

/-- Reading an image map gives back, in order, exactly the written areas that the side table knows, with
their identifiers, shapes and coordinates, their classes, and their tooltips or titles. Areas without a
row are passed over, and those with one come back in the order in which they were written, one for each
element. The coordinates are those that fit into a word of thirty-two bits, with either sign. -/
theorem written_areas_recovered {regions : List Region} (side : SideTable)
    (rendered : Renders regions markup) :
    ofImageMap markup side = .ok (regions.filterMap (Region.area? side)) := by
  obtain ⟨elements, writes, listed⟩ := rendered
  have outlines : (elements.map Element.attributes).mapM Outline.ofAttributes =
      .ok (regions.map Region.outline) := by
    rw [Outcome.mapM_eq_ok_iff, List.forall₂_map_left_iff, List.forall₂_map_right_iff]
    exact writes.flip.imp (fun _ _ here => Region.outline_of_writes here)
  rw [ofImageMap, elementsOf_of_lists listed]
  refine (Outcome.bind_of_ok outlines).trans (congrArg Except.ok ?_)
  rw [List.filterMap_map]
  exact List.filterMap_congr (fun region _ => Region.area?_outline side region)

namespace Sample

/-- A side table with a row for a node and one, without a tooltip, for an edge. -/
def elementRows : SideTable := .ofList [("assembly|A", ⟨"leaf", some "A"⟩),
  ("assembly|A~assembly|B", ⟨"leaf-edge", none⟩)]

/-- Two areas of the table and one that it does not list. -/
def regions : List Region := [
  ⟨"assembly|A", "poly", "", [10, -20]⟩,
  ⟨"assembly|A~assembly|B", "poly", "A -> B", [1, 2, 3]⟩,
  ⟨"assembly|C", "rect", "C", []⟩]

/-- An element for the first area. -/
def nodeElement : Element :=
  ⟨" shape=\"poly\" id=\"assembly|A\" href=\"#\" title=\"\" alt=\"\" coords=\"10,-20\"/".toList,
    by decide, by decide⟩

/-- An element for the second area, with entities of each kind. -/
def edgeElement : Element :=
  ⟨" shape=\"p&#x6F;ly\" id=\"assembly|A~assembly|B\" href=\"#\" title=\"A &#45;&gt; B\"".toList ++
    " alt=\"\" coords=\"1,2,3\"/".toList, by decide, by decide⟩

/-- An element for the third area. -/
def otherElement : Element :=
  ⟨" shape=\"rect\" id=\"assembly|C\" href=\"&#0035;\" title=\"C\" alt=\"\" coords=\"\"/".toList,
    by decide, by decide⟩

/-- An image map of these elements. -/
def renderedMap : List Char := "<map>\n".toList ++ (nodeElement.text ++ ("\n".toList ++
  (edgeElement.text ++ ("\n".toList ++ (otherElement.text ++ "\n</map>".toList)))))

/-- The image map is one of what a renderer writes for the areas. -/
theorem renders_renderedMap : Renders regions (String.ofList renderedMap) := by
  have plain (value : String)
      (unreserved : value.toList.all (fun character => character ∉ reserved) = true) :
      Written value.toList value.toList := written_self unreserved
  refine ⟨[nodeElement, edgeElement, otherElement], .cons ?_ (.cons ?_ (.cons ?_ .nil)), ?_⟩
  · exact ⟨_, _, _, _, _, plain "poly" (by decide), plain "assembly|A" (by decide), plain "#" (by decide),
      .nothing, plain "10,-20" (by decide), by decide⟩
  · have shape : Written ['p', 'o', 'l', 'y'] ("p&#x6F;ly".toList) :=
      .plain (by decide) (.entity (.hexadecimal 'x' (by decide) 0 ['6', 'F'] (by decide))
        (written_self (by decide)))
    have title : Written ['A', ' ', '-', '>', ' ', 'B'] ("A &#45;&gt; B".toList) :=
      .plain (by decide) (.plain (by decide) (.entity (.decimal 0) (.entity (.named "gt" (by decide))
        (written_self (by decide)))))
    exact ⟨_, _, _, _, _, shape, plain "assembly|A~assembly|B" (by decide), plain "#" (by decide), title,
      plain "1,2,3" (by decide), by decide⟩
  · have anchor : Written ['#'] ("&#0035;".toList) := .entity (.decimal 2) .nothing
    exact ⟨_, _, _, _, _, plain "rect" (by decide), plain "assembly|C" (by decide), anchor,
      plain "C" (by decide), .nothing, by decide⟩
  · rw [String.toList_ofList]
    have line : IsGap "\n".toList := isGap_of_not_mem (by decide)
    exact .next (by decide) (.next line (.next line (.none (by decide))))

end Sample

/-- The two areas that the table lists are read back from the image map. -/
theorem renderedMap_recovered : Renders Sample.regions (String.ofList Sample.renderedMap) ∧
    ofImageMap (String.ofList Sample.renderedMap) Sample.elementRows = .ok [
      ⟨"assembly|A", "poly", [10, -20], "leaf", some "A"⟩,
      ⟨"assembly|A~assembly|B", "poly", [1, 2, 3], "leaf-edge", some "A -> B"⟩] :=
  ⟨Sample.renders_renderedMap,
    (written_areas_recovered Sample.elementRows Sample.renders_renderedMap).trans
      (congrArg Except.ok (by decide))⟩

end Areas

end DependencyDiagram

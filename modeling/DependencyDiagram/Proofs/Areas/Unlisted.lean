import DependencyDiagram.Proofs.Areas.Searching
import DependencyDiagram.Proofs.Outcomes
import Mathlib.Data.List.Forall2

/-!
# Elements without a row

An element of the image map without an identifier, or with one that the side table does not list, is
no area. But its attributes are read like those of any other, before it is known whether it is one.
So such an element leaves the outcome of reading as it is exactly when all its coordinates can be
read, wherever it stands; otherwise reading fails on the first of them that cannot, unless it fails
on an earlier element.
-/

namespace DependencyDiagram.Areas

variable {side : SideTable} {element : Element} {elements before after : List Element}
  {attributes : List (String × String)} {outline : Outline} {failure : Failure}

/-- The value of the last attribute with a name, which replaces the others. Attributes are read in order,
and each replaces what an earlier one of its name said. -/
def lastValue? (name : String) (attributes : List (String × String)) : Option String :=
  ((attributes.filter (fun pair => pair.1 = name)).getLast?).map Prod.snd

/-- The coordinates of an attribute can be read, if it has any. An attribute with another name is
readable whatever its value is. One with this name has to be readable even where a later one replaces it. -/
def Readable (pair : String × String) : Prop :=
  pair.1 = "coords" → ∀ part ∈ coordinateParts pair.2,
    (Text.integer? maxCoordinate part).isSome = true

instance (pair : String × String) : Decidable (Readable pair) := inferInstanceAs (Decidable (_ → _))

namespace Element

/-- The element has no identifier, or one for which the side table has no row. Only the last identifier
counts, and an element that has none is of this kind for any table. -/
def Unlisted (side : SideTable) (element : Element) : Prop :=
  ∀ id, lastValue? "id" element.attributes = some id → side.get? id = none

/-- An element whose identifier has no row is unlisted. -/
theorem unlisted_of_lastValue? {id : String} (own : lastValue? "id" element.attributes = some id)
    (unknown : side.get? id = none) : element.Unlisted side := by
  intro other found
  obtain rfl := Option.some.inj (own.symm.trans found)
  exact unknown

/-- All coordinates of the element can be read. -/
def CoordinatesReadable (element : Element) : Prop := ∀ pair ∈ element.attributes, Readable pair

instance (element : Element) : Decidable element.CoordinatesReadable :=
  inferInstanceAs (Decidable (∀ pair ∈ element.attributes, Readable pair))

end Element

/-- Reading coordinates fails on one of them that is no integer in range. -/
theorem exists_part_of_readCoordinates {text : String} (failed : readCoordinates text = .error failure) :
    ∃ part ∈ coordinateParts text, Text.integer? maxCoordinate part = none ∧
      failure = badCoordinate part := by
  obtain ⟨part, listed, here⟩ := Outcome.exists_of_mapM_eq_error failed
  refine ⟨part, listed, ?_⟩
  cases read : Text.integer? maxCoordinate part with
  | some value => simp [read] at here
  | none => simpa [read, eq_comm] using here

/-- Coordinates are read exactly when each of them is an integer in range. -/
theorem readCoordinates_succeeds_iff {text : String} :
    (∃ coords, readCoordinates text = .ok coords) ↔
      ∀ part ∈ coordinateParts text, (Text.integer? maxCoordinate part).isSome = true := by
  constructor
  · rintro ⟨coords, read⟩ part listed
    obtain ⟨value, _, here⟩ := Outcome.exists_of_mem_left (Outcome.mapM_eq_ok_iff.mp read) listed
    cases found : Text.integer? maxCoordinate part with
    | some value => rfl
    | none => simp [found] at here
  · intro each
    refine Outcome.mapM_succeeds (fun part listed => ?_)
    obtain ⟨value, found⟩ := Option.isSome_iff_exists.mp (each part listed)
    exact ⟨value, by rw [found]⟩

namespace Outline

/-- Coordinates are accepted as far as they can be read. -/
theorem accept_coords (outline : Outline) (text : String) : outline.accept ("coords", text) =
    (readCoordinates text).map (fun coords => { outline with coords := coords }) := by
  have other : "coords" ≠ "id" ∧ "coords" ≠ "shape" := by decide
  rw [accept, if_neg other.1, if_neg other.2, if_pos rfl]
  cases readCoordinates text <;> rfl

/-- Every other attribute is accepted. -/
theorem exists_accept {pair : String × String} (other : pair.1 ≠ "coords") (outline : Outline) :
    ∃ next, outline.accept pair = .ok next := by
  rw [accept]
  split_ifs
  · exact ⟨_, rfl⟩
  · exact ⟨_, rfl⟩
  · exact ⟨_, rfl⟩
  · exact ⟨_, rfl⟩

/-- An attribute is accepted exactly when its coordinates can be read. -/
theorem accept_succeeds_iff (outline : Outline) {pair : String × String} :
    (∃ next, outline.accept pair = .ok next) ↔ Readable pair := by
  by_cases own : pair.1 = "coords"
  · obtain ⟨name, text⟩ := pair
    obtain rfl : name = "coords" := own
    rw [accept_coords, Readable, ← readCoordinates_succeeds_iff]
    simp [Outcome.map_eq_ok_iff]
  · exact ⟨fun _ same => absurd same own, fun _ => exists_accept own outline⟩

/-- An attribute that is not accepted has a coordinate that cannot be read. -/
theorem exists_part_of_accept {pair : String × String} (failed : outline.accept pair = .error failure) :
    pair.1 = "coords" ∧ ∃ part ∈ coordinateParts pair.2, Text.integer? maxCoordinate part = none ∧
      failure = badCoordinate part := by
  by_cases own : pair.1 = "coords"
  · obtain ⟨name, text⟩ := pair
    obtain rfl : name = "coords" := own
    rw [accept_coords, Outcome.map_eq_error_iff] at failed
    exact ⟨rfl, exists_part_of_readCoordinates failed⟩
  · obtain ⟨next, accepted⟩ := exists_accept own outline
    cases accepted.symm.trans failed

/-- An accepted attribute changes the identifier exactly when it is one. -/
theorem id_of_accept {next : Outline} {pair : String × String} (accepted : outline.accept pair = .ok next) :
    next.id = if pair.1 = "id" then some pair.2 else outline.id := by
  by_cases own : pair.1 = "coords"
  · obtain ⟨name, text⟩ := pair
    obtain rfl : name = "coords" := own
    rw [accept_coords] at accepted
    obtain ⟨_, _, rfl⟩ := Outcome.map_eq_ok_iff.mp accepted
    rfl
  · rw [accept, if_neg own] at accepted
    split_ifs at accepted ⊢ <;> exact (Except.ok.inj accepted) ▸ rfl

/-- What attributes say has the last identifier among them. -/
theorem id_of_ofAttributes (read : ofAttributes attributes = .ok outline) :
    outline.id = lastValue? "id" attributes := by
  refine Outcome.foldlM_along (fun done state => state.id = lastValue? "id" done) ?_ rfl read
  intro done pair rest state next _ held accepted
  rw [id_of_accept accepted, lastValue?, List.filter_append]
  by_cases own : pair.1 = "id"
  · simp [own]
  · simp [own, held, lastValue?]

/-- Attributes are read exactly when all their coordinates can be. -/
theorem ofAttributes_succeeds_iff :
    (∃ outline, ofAttributes attributes = .ok outline) ↔ ∀ pair ∈ attributes, Readable pair := by
  constructor
  · rintro ⟨outline, read⟩
    refine Outcome.foldlM_along (fun done _ => ∀ pair ∈ done, Readable pair) ?_ nofun read
    intro done pair rest state next _ held accepted other listed
    rcases List.mem_append.mp listed with earlier | last
    · exact held other earlier
    · rw [List.mem_singleton.mp last]
      exact (accept_succeeds_iff state).mp ⟨next, accepted⟩
  · intro readable
    refine Outcome.foldlM_succeeds (fun _ _ => True) ?_ trivial
    rintro done pair rest state rfl _
    obtain ⟨next, accepted⟩ := (accept_succeeds_iff state).mpr (readable pair (by simp))
    exact ⟨next, accepted, trivial⟩

end Outline

/-- The areas that the side table knows among elements. All elements are read before any of them is
looked up. -/
def areasOf (side : SideTable) (elements : List Element) : Except Failure (List Area) :=
  ((elements.map Element.attributes).mapM Outline.ofAttributes).map
    (List.filterMap (Outline.area? side))

/-- Reading an image map is reading its elements. -/
theorem ofImageMap_of_lists {markup : String} (listed : Lists elements markup.toList) :
    ofImageMap markup side = areasOf side elements := by
  rw [ofImageMap, elementsOf_of_lists listed, areasOf]
  cases (elements.map Element.attributes).mapM Outline.ofAttributes <;> rfl

/-- Elements are read one part after the other. -/
theorem areasOf_append (side : SideTable) (first second : List Element) :
    areasOf side (first ++ second) = (do
      let areas ← areasOf side first
      return areas ++ (← areasOf side second)) := by
  rw [areasOf, areasOf, areasOf, List.map_append, List.mapM_append]
  cases (first.map Element.attributes).mapM Outline.ofAttributes with
  | error failure => rfl
  | ok outlines =>
    cases (second.map Element.attributes).mapM Outline.ofAttributes with
    | error failure => rfl
    | ok further => exact congrArg Except.ok List.filterMap_append

/-- A single element is at most one area. -/
theorem areasOf_singleton (side : SideTable) (element : Element) : areasOf side [element] =
    (Outline.ofAttributes element.attributes).map
      (fun outline => (Outline.area? side outline).toList) := by
  rw [areasOf, List.map_singleton, List.mapM_cons, List.mapM_nil]
  cases Outline.ofAttributes element.attributes with
  | error failure => rfl
  | ok outline =>
    refine congrArg Except.ok ?_
    cases found : Outline.area? side outline <;> simp [found]

/-- An unlisted element whose coordinates can be read adds no area. -/
theorem areasOf_of_readable (unlisted : element.Unlisted side) (readable : element.CoordinatesReadable) :
    areasOf side [element] = .ok [] := by
  obtain ⟨outline, read⟩ := Outline.ofAttributes_succeeds_iff.mpr readable
  have none : Outline.area? side outline = none := by
    have own := Outline.id_of_ofAttributes read
    rw [Outline.area?]
    cases found : outline.id with
    | none => rfl
    | some id =>
      have row := unlisted id (own.symm.trans found)
      simp [row]
  rw [areasOf_singleton, read]
  exact congrArg (fun area => Except.ok (Option.toList area)) none

/-- An element with a coordinate that cannot be read makes reading fail on such a coordinate. -/
theorem areasOf_of_unreadable (side : SideTable) (unreadable : ¬ element.CoordinatesReadable) :
    ∃ pair ∈ element.attributes, pair.1 = "coords" ∧ ∃ part ∈ coordinateParts pair.2,
      Text.integer? maxCoordinate part = none ∧ areasOf side [element] = .error (badCoordinate part) := by
  obtain ⟨failure, failed⟩ := Outcome.fails_iff_no_value.mpr
    (fun read => unreadable (Outline.ofAttributes_succeeds_iff.mp read))
  obtain ⟨state, pair, listed, refused⟩ := Outcome.exists_of_foldlM_eq_error failed
  obtain ⟨named, part, within, unread, rfl⟩ := Outline.exists_part_of_accept refused
  exact ⟨pair, listed, named, part, within, unread, by rw [areasOf_singleton, failed]; rfl⟩

/-- An element that adds no area may be left out. -/
theorem areasOf_insert (nothing : areasOf side [element] = .ok []) (before after : List Element) :
    areasOf side (before ++ element :: after) = areasOf side (before ++ after) := by
  have cut : before ++ element :: after = before ++ ([element] ++ after) := rfl
  rw [cut, areasOf_append, areasOf_append side before after, areasOf_append side [element], nothing]
  cases areasOf side after <;> rfl

/-- An element on which reading fails makes it fail, unless it fails on an earlier element. -/
theorem areasOf_insert_error (failed : areasOf side [element] = .error failure)
    (before after : List Element) :
    areasOf side (before ++ element :: after) = areasOf side (before ++ after) ∨
      areasOf side (before ++ element :: after) = .error failure := by
  have cut : before ++ element :: after = before ++ ([element] ++ after) := rfl
  rw [cut, areasOf_append, areasOf_append side before after, areasOf_append side [element], failed]
  cases areasOf side before with
  | error earlier => exact Or.inl rfl
  | ok areas => exact Or.inr rfl

/-- An element that the side table does not list leaves the outcome of reading as it is, wherever it is
inserted and whatever stands around it, exactly when all its coordinates can be read. In any case reading
gives what it gives without the element, or it fails on a coordinate of the element. The element may
stand first, last or between others, and the elements around it may fail themselves. So the condition is
on the element alone: neither its neighbours nor the table can make up for a coordinate that is no
number. -/
theorem unlisted_element_exact (unlisted : element.Unlisted side) :
    ((∀ (before after : List Element) (shorter longer : String),
        Lists (before ++ after) shorter.toList → Lists (before ++ element :: after) longer.toList →
        ofImageMap longer side = ofImageMap shorter side) ↔ element.CoordinatesReadable) ∧
      ∀ (before after : List Element) (shorter longer : String),
        Lists (before ++ after) shorter.toList → Lists (before ++ element :: after) longer.toList →
        ofImageMap longer side = ofImageMap shorter side ∨
          ∃ pair ∈ element.attributes, pair.1 = "coords" ∧ ∃ part ∈ coordinateParts pair.2,
            Text.integer? maxCoordinate part = none ∧
              ofImageMap longer side = .error (badCoordinate part) := by
  -- A readable element yields nothing of its own, and reading goes on behind it.
  have kept (readable : element.CoordinatesReadable) (before after : List Element)
      (shorter longer : String) (without : Lists (before ++ after) shorter.toList)
      (given : Lists (before ++ element :: after) longer.toList) :
      ofImageMap longer side = ofImageMap shorter side := by
    rw [ofImageMap_of_lists given, ofImageMap_of_lists without,
      areasOf_insert (areasOf_of_readable unlisted readable)]
  refine ⟨⟨fun same => ?_, kept⟩, fun before after shorter longer without given => ?_⟩
  · -- it is enough to look at the map of the element alone
    by_contra unreadable
    obtain ⟨_, _, _, part, _, _, failed⟩ := areasOf_of_unreadable side unreadable
    have equal := same [] [] _ _ (lists_flatMap []) (lists_flatMap [element])
    rw [ofImageMap_of_lists (lists_flatMap []), ofImageMap_of_lists (lists_flatMap [element])] at equal
    cases failed.symm.trans equal
  · by_cases readable : element.CoordinatesReadable
    · exact Or.inl (kept readable before after shorter longer without given)
    · obtain ⟨pair, listed, named, part, within, unread, failed⟩ :=
        areasOf_of_unreadable side readable
      rw [ofImageMap_of_lists given, ofImageMap_of_lists without]
      exact (areasOf_insert_error failed before after).imp id
        (fun fails => ⟨pair, listed, named, part, within, unread, fails⟩)

namespace Sample

/-- A side table with a single row. -/
def singleRow : SideTable := .ofList [("assembly|A", ⟨"leaf", none⟩)]

/-- An element that the table lists. -/
def listedElement : Element := ⟨" id=\"assembly|A\" coords=\"1,2\"/".toList, by decide, by decide⟩

/-- An element that the table does not list. -/
def unknownElement : Element :=
  ⟨" coords=\"0,0 1,1\" id=\"assembly|Unknown\"/".toList, by decide, by decide⟩

/-- An element that the table does not list either, with a coordinate that is no number. -/
def unreadableElement : Element :=
  ⟨" id=\"assembly|Unknown\" coords=\"1,x\"/".toList, by decide, by decide⟩

end Sample

/-- The unknown element is passed over behind the listed one. -/
theorem unknownElement_passed_over :
    Sample.unknownElement.Unlisted Sample.singleRow ∧ Sample.unknownElement.CoordinatesReadable ∧
      ofImageMap (String.ofList ([Sample.listedElement, Sample.unknownElement].flatMap Element.text))
          Sample.singleRow =
        ofImageMap (String.ofList ([Sample.listedElement].flatMap Element.text)) Sample.singleRow := by
  have unlisted : Sample.unknownElement.Unlisted Sample.singleRow :=
    Element.unlisted_of_lastValue?
      (by decide : lastValue? "id" Sample.unknownElement.attributes = some "assembly|Unknown") (by decide)
  have readable : Sample.unknownElement.CoordinatesReadable := by decide
  exact ⟨unlisted, readable, (unlisted_element_exact unlisted).1.mpr readable [Sample.listedElement] []
    _ _ (lists_flatMap _) (lists_flatMap _)⟩

/-- The element with the unreadable coordinate is not: reading fails on it. -/
theorem unreadableElement_not_passed_over :
    ¬ ∀ (side : SideTable) (element : Element) (before after : List Element) (shorter longer : String),
      element.Unlisted side → Lists (before ++ after) shorter.toList →
      Lists (before ++ element :: after) longer.toList →
      ofImageMap longer side = ofImageMap shorter side := by
  intro same
  have own : lastValue? "id" Sample.unreadableElement.attributes = some "assembly|Unknown" := by decide
  have equal := same Sample.singleRow Sample.unreadableElement [] [] _ _
    (Element.unlisted_of_lastValue? own (by decide)) (lists_flatMap [])
    (lists_flatMap [Sample.unreadableElement])
  exact absurd (congrArg Except.isOk equal) (by decide)

end DependencyDiagram.Areas

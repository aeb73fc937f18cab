import DependencyDiagram.Text.Occurrences
import DependencyDiagram.Text.WordCharacter
import DependencyDiagram.Text.Numeral
import DependencyDiagram.Text.Pieces

/-!
# Area elements in markup

The renderer's image map is searched for area elements; all other markup is passed over.
An element reaches from its name to the next closing angle bracket, and the name must end
there and not go on as a longer word. Its attributes are names directly followed by an
equals sign and a value in double quotation marks.

In values five named and all numeric entities are replaced by their characters. An entity
that denotes no character stays as it is written.
-/

namespace DependencyDiagram.Areas

/-- The characters of a body without one slash at its end. -/
def withoutSlash (body : List Char) : List Char :=
  if body.getLast? = some '/' then body.dropLast else body

/-- An area element at the beginning of the characters: what lies between its name and its
closing bracket, and how many characters it takes. -/
def elementPattern (characters : List Char) : Option (List Char × Nat) :=
  match "<area".toList.isPrefixOf? characters with
  | none => none
  | some rest =>
    if rest.head?.any Text.isWordCharacter then none
    else
      let body := rest.takeWhile (· != '>')
      if body.length < rest.length then some (withoutSlash body, 5 + body.length + 1) else none

/-- A letter of the ASCII range. -/
def isLetter (character : Char) : Bool :=
  ('a' ≤ character && character ≤ 'z') || ('A' ≤ character && character ≤ 'Z')

/-- A character that can begin the name of an attribute. -/
def beginsName (character : Char) : Bool :=
  isLetter character || character == '_' || character == ':'

/-- A character that can go on with the name of an attribute. -/
def continuesName (character : Char) : Bool :=
  beginsName character || character.isDigit || character == '-' || character == '.'

/-- A word at the beginning of the characters: the attribute that it names, if a value follows,
and how many characters it takes. A word without a value is taken whole, since no attribute can
begin inside it: it would end where the word ends. -/
def attributePattern (characters : List Char) : Option (Option (String × String) × Nat) :=
  match characters with
  | [] => none
  | first :: rest =>
    if beginsName first then
      let name := first :: rest.takeWhile continuesName
      match rest.dropWhile continuesName with
      | '=' :: '"' :: behind =>
        let value := behind.takeWhile (· != '"')
        if value.length < behind.length then
          some (some (String.ofList name, String.ofList value), name.length + 2 + value.length + 1)
        else some (none, name.length)
      | _ => some (none, name.length)
    else none

/-- The character with a code point, if there is one. -/
def characterOf? (code : Nat) : Option Char :=
  if code.isValidChar then some (Char.ofNat code) else none

/-- The character that an entity denotes, given by what lies between ampersand and
semicolon. -/
def entityCharacter? (entity : List Char) : Option Char :=
  if entity = "amp".toList then some '&'
  else if entity = "lt".toList then some '<'
  else if entity = "gt".toList then some '>'
  else if entity = "quot".toList then some '"'
  else if entity = "apos".toList then some '\x27'
  else match entity with
    | '#' :: 'x' :: digits | '#' :: 'X' :: digits => (Text.hexadecimal? digits).bind characterOf?
    | '#' :: digits => (Text.digits? digits).bind characterOf?
    | _ => none

/-- An entity at the beginning of the characters, with the character it denotes. No entity
holds a second ampersand. -/
def entityPattern (characters : List Char) : Option (List Char × Nat) :=
  match characters with
  | '&' :: rest =>
    let entity := rest.takeWhile (fun character => character != ';' && character != '&')
    match rest.drop entity.length with
    | ';' :: _ =>
      (entityCharacter? entity).map (fun character => ([character], 1 + entity.length + 1))
    | _ => none
  | _ => none

/-- Replace the entities in a value. -/
def unescape (text : String) : String :=
  String.ofList (Text.replaceOccurrences entityPattern text.toList)

/-- The attributes in the body of an element, with their entities replaced. -/
def attributesOf (body : List Char) : List (String × String) :=
  ((Text.occurrences attributePattern body).filterMap id).map
    (fun (name, value) => (name, unescape value))

/-- The attributes of every area element in a text. -/
def elementsOf (markup : String) : List (List (String × String)) :=
  (Text.occurrences elementPattern markup.toList).map attributesOf

/-- Replaced text is not searched again, and what denotes no character stays. -/
example :
    unescape "&amp;lt; &#65;&#x1F600; &nope; &#xD800;" = "&lt; A😀 &nope; &#xD800;" := by
  decide +kernel

end DependencyDiagram.Areas

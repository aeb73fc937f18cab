import DependencyDiagram.Json.Token

/-!
# JSON values and their reading

A value keeps the spelling of its strings and numbers, so that what a literal denotes is
decided by whoever needs to know. Members of an object stay in order and may repeat a key.

Reading runs over the tokens with a stack of unfinished containers. It needs no depth
limit, and it ends because every step takes one token. Exactly one value must be written,
and nothing may follow it.
-/

namespace DependencyDiagram

/-- A JSON value. Strings, keys and numbers are given by their spelling. Two values that
denote the same may be spelled differently, and they are then different values here. -/
inductive Json where
  | null
  | bool (value : Bool)
  | number (spelling : String)
  | string (spelling : String)
  | array (items : List Json)
  | object (members : List (String × Json))
deriving Inhabited

namespace Json

/-- A text as a value. -/
def ofText (text : String) : Json := string (spell text)

/-- A natural number as a value. -/
def ofNat (value : Nat) : Json := number (toString value)

/-- An object with the given keys, which are texts and not spellings. -/
def ofMembers (members : List (String × Json)) : Json :=
  object (members.map (fun member => (spell member.1, member.2)))

/-- A container whose end has not been read. Its parts come latest first. The containers
around a value form a stack of these, innermost first, so that nesting needs no recursion in
the reader. -/
inductive Unfinished where
  | array (before : List Json)
  | object (before : List (String × Json)) (key : String)

/-- What may come next. -/
inductive Expected where
  /-- Any value. -/
  | anyValue (stack : List Unfinished)
  /-- The first item of an array, or its end. -/
  | firstItem (stack : List Unfinished)
  /-- The first key of an object, or its end. -/
  | firstKey (stack : List Unfinished)
  /-- A further key. -/
  | key (before : List (String × Json)) (stack : List Unfinished)
  /-- The colon behind a key. -/
  | colon (before : List (String × Json)) (key : String) (stack : List Unfinished)
  /-- Whatever follows a value that is complete. -/
  | follow (value : Json) (stack : List Unfinished)

namespace Expected

/-- Begin a value with a token. -/
def beginValue (stack : List Unfinished) : Token → Option Expected
  | .null => some (follow Json.null stack)
  | .bool value => some (follow (Json.bool value) stack)
  | .number spelling => some (follow (Json.number spelling) stack)
  | .string spelling => some (follow (Json.string spelling) stack)
  | .openBracket => some (firstItem stack)
  | .openBrace => some (firstKey stack)
  | _ => none

/-- Take one token. -/
def step : Expected → Token → Option Expected
  | anyValue stack, token => beginValue stack token
  | firstItem stack, .closeBracket => some (follow (Json.array []) stack)
  | firstItem stack, token => beginValue (.array [] :: stack) token
  | firstKey stack, .closeBrace => some (follow (Json.object []) stack)
  | firstKey stack, .string spelling => some (colon [] spelling stack)
  | key before stack, .string spelling => some (colon before spelling stack)
  | colon before spelling stack, .colon => some (anyValue (.object before spelling :: stack))
  | follow last (.array before :: stack), .comma => some (anyValue (.array (last :: before) :: stack))
  | follow last (.array before :: stack), .closeBracket =>
    some (follow (Json.array (last :: before).reverse) stack)
  | follow last (.object before spelling :: stack), .comma =>
    some (key ((spelling, last) :: before) stack)
  | follow last (.object before spelling :: stack), .closeBrace =>
    some (follow (Json.object ((spelling, last) :: before).reverse) stack)
  | _, _ => none

/-- Take tokens one after the other. -/
def run (expected : Expected) : List Token → Option Expected
  | [] => some expected
  | token :: rest =>
    match expected.step token with
    | none => none
    | some next => next.run rest

/-- The value read, if it is complete and no container is open. -/
def finish : Expected → Option Json
  | follow value [] => some value
  | _ => none

end Expected

/-- The value that tokens form. -/
def ofTokens? (tokens : List Token) : Option Json :=
  ((Expected.anyValue []).run tokens).bind Expected.finish

/-- Read the one value that a text holds. -/
def read? (text : String) : Option Json := (tokens? text).bind ofTokens?

end Json

end DependencyDiagram

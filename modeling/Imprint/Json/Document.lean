/-
Module: Imprint.Json.Document
Purpose: JSON documents, which are what the grammar of JSON accepts, and the values they denote. A
  document denotes no value when a string in it has half of a surrogate pair, when a number exceeds
  every finite one, or when arrays and objects nest too deeply. A reader that skips a part of a
  document asks nothing of that part beyond the grammar.
Main exports: Document, Document.ofTokens?, Document.ofText?, Document.value?, Json.ofText?,
  Document.keepMembers, Document.mapMember
-/
import Imprint.Json.Token

namespace Imprint

/-- A JSON document. Strings and numbers keep whether they denote anything. -/
inductive Document where
  | null
  | bool (value : Bool)
  | number (value : Option Number)
  | text (content : Option String)
  | array (items : List Document)
  | object (members : List (Option String × Document))
deriving Repr

namespace Document

/-! ### From tokens to documents -/

/-- An array or object that is still open, with its last part first. A member is open while its value
is awaited. -/
inductive Frame where
  | array (reversed : List Document)
  | object (reversed : List (Option String × Document))
  | member (reversed : List (Option String × Document)) (key : Option String)

/-- What may come next, under the open arrays and objects, the innermost first. -/
inductive Stage where
  | value (frames : List Frame)
  | firstItem (frames : List Frame)
  | firstKey (frames : List Frame)
  | key (reversed : List (Option String × Document)) (frames : List Frame)
  | colon (frames : List Frame)
  | next (frames : List Frame)
  | done (document : Document)

/-- A value is complete: it goes into the innermost open array or member. -/
def complete? (document : Document) : List Frame → Option Stage
  | [] => some (.done document)
  | .array reversed :: frames => some (.next (.array (document :: reversed) :: frames))
  | .member reversed key :: frames => some (.next (.object ((key, document) :: reversed) :: frames))
  | .object _ :: _ => none

/-- One token where a value may begin. -/
def begin? (frames : List Frame) : Token → Option Stage
  | .null => complete? .null frames
  | .bool value => complete? (.bool value) frames
  | .number value => complete? (.number value) frames
  | .text content => complete? (.text content) frames
  | .openArray => some (.firstItem (.array [] :: frames))
  | .openObject => some (.firstKey (.object [] :: frames))
  | _ => none

/-- One token after a complete item or member. -/
def next? : List Frame → Token → Option Stage
  | .array reversed :: frames, .comma => some (.value (.array reversed :: frames))
  | .array reversed :: frames, .closeArray => complete? (.array reversed.reverse) frames
  | .object reversed :: frames, .comma => some (.key reversed frames)
  | .object reversed :: frames, .closeObject => complete? (.object reversed.reverse) frames
  | _, _ => none

/-- One token. -/
def step? : Stage → Token → Option Stage
  | .value frames, token => begin? frames token
  | .firstItem frames, .closeArray => next? frames .closeArray
  | .firstItem frames, token => begin? frames token
  | .firstKey frames, .closeObject => next? frames .closeObject
  | .firstKey (.object reversed :: frames), .text key =>
      some (.colon (.member reversed key :: frames))
  | .key reversed frames, .text key => some (.colon (.member reversed key :: frames))
  | .colon frames, .colon => some (.value frames)
  | .next frames, token => next? frames token
  | _, _ => none

/-- The document that the tokens spell, all of them used. -/
def ofTokens? (tokens : List Token) : Option Document :=
  match tokens.foldlM step? (.value []) with
  | some (.done document) => some document
  | _ => none

/-- The document of a text. -/
def ofText? (source : String) : Option Document :=
  (Token.ofChars? source.toList).bind ofTokens?

/-! ### The value of a document -/

mutual

/-- The value of a document, with at most the given number of arrays and objects inside each
other. -/
def value? : Nat → Document → Option Json
  | _, .null => some .null
  | _, .bool value => some (.bool value)
  | _, .number value => value.map .number
  | _, .text content => content.map .text
  | 0, .array _ => none
  | depth + 1, .array items => (values? depth items).map .array
  | 0, .object _ => none
  | depth + 1, .object members => (memberValues? depth members).map .object

/-- The values of all items. -/
def values? : Nat → List Document → Option (List Json)
  | _, [] => some []
  | depth, item :: rest =>
      match value? depth item, values? depth rest with
      | some value, some values => some (value :: values)
      | _, _ => none

/-- The values of all members, whose keys must denote something too. -/
def memberValues? : Nat → List (Option String × Document) → Option (List (String × Json))
  | _, [] => some []
  | depth, (key, item) :: rest =>
      match key, value? depth item, memberValues? depth rest with
      | some key, some value, some members => some ((key, value) :: members)
      | _, _, _ => none

end

/-- How many arrays and objects may stand inside each other. -/
def depthLimit : Nat := 127

/-! ### Skipping members -/

/-- The document without the members of an object that a reader skips. A member whose key denotes
nothing is kept, so that the document still has no value. -/
def keepMembers (known : List String) : Document → Document
  | .object members =>
      .object (members.filter fun (key, _) => (key.map known.contains).getD true)
  | document => document

/-- Change the values of one key of an object. -/
def mapMember (key : String) (change : Document → Document) : Document → Document
  | .object members =>
      .object (members.map fun (other, value) =>
        (other, if other = some key then change value else value))
  | document => document

end Document

/-- The JSON value of a text. -/
def Json.ofText? (source : String) : Option Json :=
  (Document.ofText? source).bind (Document.value? Document.depthLimit)

end Imprint

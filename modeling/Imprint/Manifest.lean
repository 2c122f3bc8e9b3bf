/-
Module: Imprint.Manifest
Purpose: Project manifests and what a manifest file says: nothing at all, a manifest, or something
  malformed.
Main exports: Manifest, Manifest.Content, Manifest.content
-/
import Imprint.Json.Document

namespace Imprint

/-- A project manifest: its name and version, and every other field as it stands. -/
structure Manifest where
  name : Option String
  version : Option String
  fields : List (String × Json)
deriving Repr

namespace Manifest

/-- What a manifest file can say. -/
inductive Content where
  | nothing
  | manifest (manifest : Manifest)
  | malformed
deriving Repr

mutual

/-- A JSON value in which every key of an object stands once, with its last value in its first
place. -/
def distinct : Json → Json
  | .array items => .array (distinctItems items)
  | .object members => .object (Json.lastWins (distinctMembers members))
  | json => json

/-- Every item with distinct keys. -/
def distinctItems : List Json → List Json
  | [] => []
  | item :: rest => distinct item :: distinctItems rest

/-- Every member with distinct keys inside. -/
def distinctMembers : List (String × Json) → List (String × Json)
  | [] => []
  | (key, value) :: rest => (key, distinct value) :: distinctMembers rest

end

/-- An optional text: a field that is left out or `null` has none, and any other value is wrong. -/
def optionalText? (key : String) (members : List (String × Json)) : Option (Option String) :=
  match Json.member? key members with
  | none => some none
  | some .null => some none
  | some (.text content) => some (some content)
  | some _ => none

/-- The manifest of an object with distinct keys. -/
def ofMembers (members : List (String × Json)) : Content :=
  match optionalText? "name" members, optionalText? "version" members with
  | some name, some version =>
      .manifest ⟨name, version, members.filter fun (key, _) => key != "name" && key != "version"⟩
  | _, _ => .malformed

/-- What a JSON value says as a manifest. Values without keys of their own say nothing; texts and
arrays that are not empty stand for a manifest without any field. -/
def ofJson (json : Json) : Content :=
  match distinct json with
  | .object [] => .nothing
  | .object members => ofMembers members
  | .text content => if content.isEmpty then .nothing else .manifest ⟨none, none, []⟩
  | .array [] => .nothing
  | .array _ => .manifest ⟨none, none, []⟩
  | _ => .nothing

/-- What a manifest text says. -/
def content (source : String) : Content :=
  match Json.ofText? source with
  | none => .malformed
  | some json => ofJson json

end Manifest

end Imprint

/-
Module: Imprint.Json
Purpose: JSON values. Integers of up to 64 bits are told apart from all other numbers, and objects keep
  every member in the order it was written.
Main exports: Number, Number.toBinary64, Json, Json.lastWins, Json.member?, Json.required?,
  Json.defaulted?
-/
import Imprint.Binary64

namespace Imprint

/-- A JSON number: an integer that fits 64 bits, or a floating point number. -/
inductive Number where
  | whole (value : Int)
  | real (value : Binary64)
deriving DecidableEq, Repr

/-- The floating point number nearest to a number. -/
def Number.toBinary64 : Number → Binary64
  | .whole value => Binary64.ofInt value
  | .real value => value

/-- A JSON value. The members of an object stand in written order and may repeat a key. -/
inductive Json where
  | null
  | bool (value : Bool)
  | number (value : Number)
  | text (content : String)
  | array (items : List Json)
  | object (members : List (String × Json))
deriving Repr, BEq

namespace Json

/-- A natural number as a JSON integer. -/
def ofNat (n : Nat) : Json := .number (.whole n)

/-- A text, or `null` when there is none. -/
def ofOption : Option String → Json
  | some content => .text content
  | none => .null

/-- Give a key the value, at the place of its first mention or else at the end. -/
def setMember {α : Type} (key : String) (value : α) : List (String × α) → List (String × α)
  | [] => [(key, value)]
  | (other, old) :: rest =>
      if other = key then (key, value) :: rest else (other, old) :: setMember key value rest

/-- One member per key: the last value mentioned stands at the place of the first mention. -/
def lastWins {α : Type} (members : List (String × α)) : List (String × α) :=
  members.foldl (fun kept (key, value) => setMember key value kept) []

/-- The value of a key in an object, the first one if there are several. -/
def member? {α : Type} (key : String) (members : List (String × α)) : Option α :=
  (members.find? fun (other, _) => other == key).map (·.2)

/-- The value of a key that must not be repeated: nothing if it is, and otherwise the value, if there
is one. -/
def only? {α : Type} (key : String) (members : List (String × α)) : Option (Option α) :=
  match members.filter fun (other, _) => other == key with
  | [] => some none
  | [(_, value)] => some (some value)
  | _ => none

/-- The value of a key that must be there exactly once. -/
def required? {α β : Type} (key : String) (read : α → Option β) (members : List (String × α)) :
    Option β :=
  match only? key members with
  | some (some value) => read value
  | _ => none

/-- The value of a key that may be left out. -/
def defaulted? {α β : Type} (key : String) (default : β) (read : α → Option β)
    (members : List (String × α)) : Option β :=
  match only? key members with
  | some (some value) => read value
  | some none => some default
  | none => none

/-- The content of a text. -/
def text? : Json → Option String
  | .text content => some content
  | _ => none

/-- The value of a boolean. -/
def bool? : Json → Option Bool
  | .bool value => some value
  | _ => none

/-- The value of a number as a floating point number. -/
def real? : Json → Option Binary64
  | .number value => some value.toBinary64
  | _ => none

end Json

end Imprint

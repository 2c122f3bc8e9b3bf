/-
Module: Imprint.Json.Printer
Purpose: The text of a JSON value, on one line or indented. Only quotes, backslashes and control
  characters are escaped. A floating point number always shows that it is one: it has a point or an
  exponent, and the numbers that are not finite are written `null`.
Main exports: Number.text, Json.compact, Json.pretty
-/
import Imprint.Json
import Imprint.Binary64.Decimal

namespace Imprint

/-! ### Numbers -/

namespace Number

/-- The magnitude of a finite number: written out while its first digit stands between the fifth
decimal place and the sixteenth digit before the point, and with an exponent otherwise. -/
def magnitudeText (x : Binary64) : String :=
  if x.isZero then "0.0"
  else
    let decimal := x.shortest .toEven
    if -5 ≤ decimal.leadingExponent ∧ decimal.leadingExponent ≤ 15 then
      if 0 ≤ decimal.exponent then decimal.positional ++ ".0" else decimal.positional
    else
      decimal.scientific

/-- The text of a number. -/
def text : Number → String
  | .whole value => toString value
  | .real value =>
      if value.isFinite then
        if value.negative then "-" ++ magnitudeText value else magnitudeText value
      else
        "null"

end Number

namespace Json

/-! ### Strings -/

/-- A lower-case hexadecimal digit. -/
def hexDigit (value : Nat) : Char := Nat.digitChar (value % 16)

/-- A character inside quotes. -/
def escape (c : Char) : List Char :=
  if c = '"' then ['\\', '"']
  else if c = '\\' then ['\\', '\\']
  else if c = '\x08' then ['\\', 'b']
  else if c = '\x0c' then ['\\', 'f']
  else if c = '\n' then ['\\', 'n']
  else if c = '\r' then ['\\', 'r']
  else if c = '\t' then ['\\', 't']
  else if c < ' ' then ['\\', 'u', '0', '0', hexDigit (c.toNat / 16), hexDigit c.toNat]
  else [c]

/-- A string in quotes. -/
def quoted (content : String) : String :=
  String.ofList ('"' :: content.toList.flatMap escape ++ ['"'])

/-! ### One line -/

mutual

/-- The text of a value without any white space. -/
def compact : Json → String
  | .null => "null"
  | .bool value => if value then "true" else "false"
  | .number value => value.text
  | .text content => quoted content
  | .array items => "[" ++ compactItems items ++ "]"
  | .object members => "\x7b" ++ compactMembers members ++ "\x7d"

/-- Items with commas between them. -/
def compactItems : List Json → String
  | [] => ""
  | [item] => compact item
  | item :: rest => compact item ++ "," ++ compactItems rest

/-- Members with commas between them. -/
def compactMembers : List (String × Json) → String
  | [] => ""
  | [(key, value)] => quoted key ++ ":" ++ compact value
  | (key, value) :: rest => quoted key ++ ":" ++ compact value ++ "," ++ compactMembers rest

end

/-! ### Indented -/

/-- A new line at a depth of indentation, two spaces for each level. -/
def newLine (depth : Nat) : String := String.ofList ('\n' :: List.replicate (2 * depth) ' ')

mutual

/-- The text of a value that stands at a depth of indentation: every item and member on a line of its
own, and nothing between the brackets of empty arrays and objects. -/
def indented (depth : Nat) : Json → String
  | .null => "null"
  | .bool value => if value then "true" else "false"
  | .number value => value.text
  | .text content => quoted content
  | .array [] => "[]"
  | .array (item :: rest) =>
      "[" ++ indentedItems (depth + 1) (item :: rest) ++ newLine depth ++ "]"
  | .object [] => "\x7b\x7d"
  | .object (member :: rest) =>
      "\x7b" ++ indentedMembers (depth + 1) (member :: rest) ++ newLine depth ++ "\x7d"

/-- Items, each on a line of its own. -/
def indentedItems (depth : Nat) : List Json → String
  | [] => ""
  | [item] => newLine depth ++ indented depth item
  | item :: rest => newLine depth ++ indented depth item ++ "," ++ indentedItems depth rest

/-- Members, each on a line of its own. -/
def indentedMembers (depth : Nat) : List (String × Json) → String
  | [] => ""
  | [(key, value)] => newLine depth ++ quoted key ++ ": " ++ indented depth value
  | (key, value) :: rest =>
      newLine depth ++ quoted key ++ ": " ++ indented depth value ++ "," ++
        indentedMembers depth rest

end

/-- The indented text of a value. -/
def pretty (value : Json) : String := indented 0 value

end Json

end Imprint

/-
Module: Imprint.Text.IdentifierName
Purpose: Which texts can stand as a bare name, for instance as an unquoted object key.
Main exports: Text.isIdentifierName
-/
import Imprint.Text.Alphabetic
import Imprint.Text.Numeric

namespace Imprint.Text

/-- The first character of a bare name: a letter, an underscore or a dollar sign. -/
def startsIdentifier (c : Char) : Bool :=
  isAlphabetic c || c == '_' || c == '$'

/-- The further characters of a bare name may also be numbers. -/
def continuesIdentifier (c : Char) : Bool :=
  startsIdentifier c || isNumeric c

/-- A bare name: one starting character and any number of continuing ones. -/
def isIdentifierName (name : String) : Bool :=
  match name.toList with
  | [] => false
  | first :: rest => startsIdentifier first && rest.all continuesIdentifier

end Imprint.Text

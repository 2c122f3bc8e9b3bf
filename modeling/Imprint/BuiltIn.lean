/-
Module: Imprint.BuiltIn
Purpose: The seven built-in constants. Source text spells them with two underscores on either side,
  settings by their bare keys.
Main exports: BuiltIn, BuiltIn.key, BuiltIn.identifier, BuiltIn.ofKey?, BuiltIn.ofIdentifier?,
  fileHash
-/
import Imprint.Digest.Sha256

namespace Imprint

/-- A built-in constant. -/
inductive BuiltIn where
  | filename
  | fileHash
  | dirname
  | now
  | timestamp
  | packageName
  | packageVersion
deriving DecidableEq, Repr

namespace BuiltIn

/-- Every built-in, in order. -/
def all : List BuiltIn :=
  [.filename, .fileHash, .dirname, .now, .timestamp, .packageName, .packageVersion]

/-- The key of a built-in in settings. -/
def key : BuiltIn → String
  | .filename => "filename"
  | .fileHash => "filehash"
  | .dirname => "dirname"
  | .now => "now"
  | .timestamp => "timestamp"
  | .packageName => "packagename"
  | .packageVersion => "packageversion"

/-- The spelling of a built-in in source text. -/
def identifier (builtIn : BuiltIn) : String := "__" ++ builtIn.key ++ "__"

/-- The built-in of a key. -/
def ofKey? (key : String) : Option BuiltIn := all.find? fun builtIn => builtIn.key == key

/-- The built-in that an identifier spells; the bare key spells none. -/
def ofIdentifier? (name : String) : Option BuiltIn :=
  all.find? fun builtIn => builtIn.identifier == name

/-- The constant depends on the project that the file belongs to. -/
def requiresManifest : BuiltIn → Bool
  | .now => false
  | .timestamp => false
  | _ => true

/-- Every built-in is found by its key. -/
theorem ofKey?_key (builtIn : BuiltIn) : ofKey? builtIn.key = some builtIn := by
  cases builtIn <;> rfl

/-- Every built-in is found by its spelling. -/
theorem ofIdentifier?_identifier (builtIn : BuiltIn) :
    ofIdentifier? builtIn.identifier = some builtIn := by
  cases builtIn <;> decide

end BuiltIn

/-- A word as eight lower-case hexadecimal digits. -/
def hexWord (word : UInt32) : String :=
  String.ofList ((List.range 8).map fun i => Nat.digitChar (word.toNat >>> (4 * (7 - i)) % 16))

/-- The hash that tells a file apart within its package: the first eight digits of the SHA-256 of the
file name, after the package name and an exclamation mark if there is one. Backslashes count as
slashes. -/
def fileHash (filename : String) (packageName : Option String) : String :=
  let label :=
    match packageName with
    | some package => package ++ "!" ++ filename
    | none => filename
  let normal := label.map fun c => if c = '\\' then '/' else c
  hexWord (Sha256.digest normal.toUTF8.data.toList).a

end Imprint

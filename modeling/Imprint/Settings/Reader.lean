/-
Module: Imprint.Settings.Reader
Purpose: Settings from JSON text and from files. The settings and the switches may also be written as
  arrays of their fields in order, the last ones left out. What they do not know is skipped unread.
Main exports: Settings.ofText?, Settings.load, Settings.discover, SettingsError
-/
import Imprint.Files.FileSystem
import Imprint.Json.Document
import Imprint.Settings

namespace Imprint

/-- Why there are no settings. -/
inductive SettingsError where
  | malformedText
  | unreadable (path : Path)
  | malformed (path : Path)
deriving DecidableEq, Repr

/-- The message of a failure. -/
def SettingsError.message : SettingsError → String
  | .malformedText => "Failed to parse define options"
  | .unreadable path => "Failed to read " ++ path.text
  | .malformed path => "Failed to parse " ++ path.text

namespace Settings

/-! ### From JSON -/

/-- The switches as fields: those that are left out are on. -/
def switchesOfMembers? (members : List (String × Json)) : Option (BuiltIn → Bool) := do
  let states ← BuiltIn.all.mapM fun builtIn =>
    (Json.defaulted? builtIn.key true Json.bool? members).map fun state => (builtIn, state)
  return fun builtIn => (states.lookup builtIn).getD true

/-- The switches in order: those that are left out at the end are on. -/
def switchesOfItems? (items : List Json) : Option (BuiltIn → Bool) := do
  let states ← items.mapM Json.bool?
  if states.length ≤ BuiltIn.all.length then
    return fun builtIn => ((BuiltIn.all.zip states).lookup builtIn).getD true
  else
    none

/-- The switches of the built-ins. -/
def switches? : Json → Option (BuiltIn → Bool)
  | .object members => switchesOfMembers? members
  | .array items => switchesOfItems? items
  | _ => none

/-- The defines; a name that is repeated has its last value. -/
def defines? : Json → Option (List (String × Value))
  | .object members => some (Json.lastWins (Value.entriesOfJson members))
  | _ => none

/-- The settings of the fields, each of which may be left out. -/
def ofFields? (defines switches manifestFile : Option Json) : Option Settings := do
  let defines ← match defines with
    | some json => defines? json
    | none => some initial.defines
  let isEnabled ← match switches with
    | some json => switches? json
    | none => some initial.isEnabled
  let manifestFile ← match manifestFile with
    | some json => json.text?
    | none => some initial.manifestFile
  return ⟨defines, isEnabled, manifestFile⟩

/-- The settings of a JSON value. -/
def ofJson? : Json → Option Settings
  | .object members => do
      let defines ← Json.only? "defines" members
      let switches ← Json.only? "builtIns" members
      let manifestFile ← Json.only? "manifest" members
      ofFields? defines switches manifestFile
  | .array [] => some initial
  | .array [defines] => ofFields? defines none none
  | .array [defines, switches] => ofFields? defines switches none
  | .array [defines, switches, manifestFile] => ofFields? defines switches manifestFile
  | _ => none

/-- The document without the members that settings and switches do not know. -/
def trimmed (document : Document) : Document :=
  let trimSwitches := Document.keepMembers (BuiltIn.all.map BuiltIn.key)
  match document with
  | .array (defines :: switches :: rest) => .array (defines :: trimSwitches switches :: rest)
  | _ =>
      (document.keepMembers ["defines", "builtIns", "manifest"]).mapMember "builtIns" trimSwitches

/-- The settings of a JSON text. -/
def ofText? (source : String) : Option Settings :=
  ((Document.ofText? source).bind fun document =>
    (trimmed document).value? Document.depthLimit).bind ofJson?

/-! ### From files -/

/-- The settings of a JSON text, or the failure. -/
def parse (source : String) : Except SettingsError Settings :=
  match ofText? source with
  | some settings => .ok settings
  | none => .error .malformedText

/-- The settings of a file. -/
def load (host : Host) (path : Path) : Except SettingsError Settings :=
  match host.readText? path with
  | none => .error (.unreadable path)
  | some source =>
      match ofText? source with
      | some settings => .ok settings
      | none => .error (.malformed path)

/-- The settings file in the working directory that is used when none is named. -/
def usualFile : Path := ⟨"defines.json"⟩

/-- The environment variable that names the settings file. -/
def environmentVariable : String := "BUILD_DEFINES_CONFIG"

/-- The settings of the named file, or else of the usual file if there is one, or else the initial
ones. -/
def discover (host : Host) (named : Option Path) : Except SettingsError Settings :=
  match named with
  | some path => load host path
  | none => if host.isFile usualFile then load host usualFile else .ok initial

end Settings

end Imprint

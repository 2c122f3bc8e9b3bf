/-
Module: Imprint.Substitution.Rules
Purpose: What stands in for a name. A define with a literal form comes first, whatever the switches
  say; then a built-in that is switched on and has a value for the file.
Main exports: Rules, Rules.ofSettings, Constants.literal?
-/
import Imprint.Constants
import Imprint.Settings

namespace Imprint

/-- The literal of a built-in for a file: none when the file lacks what it depends on. -/
def Constants.literal? (constants : Constants) (clock : Int) (builtIn : BuiltIn) : Option Node :=
  if builtIn.requiresManifest && constants.isOutside then none
  else
    match builtIn with
    | .filename => constants.filename.map Node.string
    | .dirname => constants.dirname.map Node.string
    | .now => some (Node.string constants.now)
    | .timestamp => some (Node.number (Binary64.ofInt clock))
    | .fileHash =>
        constants.filename.map fun filename =>
          Node.string (fileHash filename (constants.manifest.bind Manifest.name))
    | .packageName => (constants.manifest.bind Manifest.name).map Node.string
    | .packageVersion => (constants.manifest.bind Manifest.version).map Node.string

/-- The rules of a walk: the literal for a name that is read, the literal for the call of the package
version without arguments, and the versions of packages. -/
structure Rules where
  literal? : String → Option Node
  bareCall? : Option Node
  version : String → String

namespace Rules

/-- No rule at all. -/
def silent : Rules := ⟨fun _ => none, none, fun _ => ""⟩

/-- The literal of a built-in that is switched on. -/
def builtIn? (settings : Settings) (constants : Constants) (clock : Int) (builtIn : BuiltIn) :
    Option Node :=
  if settings.isEnabled builtIn then constants.literal? clock builtIn else none

/-- The literal for a name: that of its define, or else that of the built-in it spells. -/
def lookup (settings : Settings) (constants : Constants) (clock : Int) (name : String) :
    Option Node :=
  match (settings.define? name).bind Value.literal? with
  | some literal => some literal
  | none => (BuiltIn.ofIdentifier? name).bind (builtIn? settings constants clock)

/-- The rules for a file, given the versions of the packages that its tree asks for. A package without
a version has an empty one. -/
def ofSettings (settings : Settings) (constants : Constants) (clock : Int)
    (versions : List (String × Option String)) : Rules where
  literal? := lookup settings constants clock
  bareCall? := builtIn? settings constants clock .packageVersion
  version package := ((versions.lookup package).bind id).getD ""

end Rules

end Imprint

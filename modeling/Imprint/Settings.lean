/-
Module: Imprint.Settings
Purpose: The settings of a build: the defines, which are named values, the switches of the built-ins,
  and the name of the manifest file.
Main exports: Settings, Settings.withDefine, Settings.withBuiltIn, Settings.withManifest
-/
import Imprint.BuiltIn
import Imprint.Value

namespace Imprint

/-- The settings of a build. Every name has at most one define. -/
structure Settings where
  defines : List (String × Value)
  isEnabled : BuiltIn → Bool
  manifestFile : String

namespace Settings

/-- The name of the manifest file unless another one is set. -/
def usualManifestFile : String := "package.json"

/-- No defines, and every built-in switched on. -/
def initial : Settings := ⟨[], fun _ => true, usualManifestFile⟩

/-- The settings with a value for a name, in place of an earlier one. -/
def withDefine (settings : Settings) (name : String) (value : Value) : Settings :=
  { settings with defines := Json.setMember name value settings.defines }

/-- The settings with a built-in switched on or off. -/
def withBuiltIn (settings : Settings) (builtIn : BuiltIn) (enabled : Bool) : Settings :=
  { settings with
    isEnabled := fun other => if other = builtIn then enabled else settings.isEnabled other }

/-- The settings with another name of the manifest file. -/
def withManifest (settings : Settings) (manifestFile : String) : Settings :=
  { settings with manifestFile := manifestFile }

/-- The value that is defined for a name. -/
def define? (settings : Settings) (name : String) : Option Value :=
  Json.member? name settings.defines

end Settings

end Imprint

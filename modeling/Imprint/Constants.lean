/-
Module: Imprint.Constants
Purpose: The constants of a file: the manifest of its project, the directory of the project, the time
  of the build, and the file and its directory as seen from the project.
Main exports: Constants, Constants.ofFile
-/
import Imprint.Manifest.Lookup

namespace Imprint

/-- The constants of a file. -/
structure Constants where
  manifest : Option Manifest
  directory : Option Path
  now : String
  filename : Option String
  dirname : Option String
deriving Repr

namespace Constants

/-- A file outside every project has the time only. -/
def outside (now : String) : Constants := ⟨none, none, now, none, none⟩

/-- The constants of a file in the project of a manifest at a path. -/
def inside (now : String) (manifest : Manifest) (manifestPath : Path) (file : Location) :
    Constants :=
  let directory := manifestPath.parent
  { manifest := some manifest
    directory := some directory
    now := now
    filename := some (file.relativeText directory)
    dirname := file.parent?.map fun parent => parent.relativeText directory }

/-- There is no project. -/
def isOutside (constants : Constants) : Bool := constants.manifest.isNone

/-- The constants of a located file. The manifest file itself, and every file whose nearest manifest
says nothing, counts as outside every project. -/
def ofLocation (host : Host) (manifestFile now : String) (memo : Memo) (file : Location) :
    Lookup Constants :=
  match Manifest.nearest? host manifestFile file with
  | none => (.ok (outside now), memo)
  | some path =>
      if path.steps = file.names then (.ok (outside now), memo)
      else
        match Manifest.load host memo path with
        | (.ok (some manifest), memo) => (.ok (inside now manifest path file), memo)
        | (.ok none, memo) => (.ok (outside now), memo)
        | (.error error, memo) => (.error error, memo)

/-- The constants of a file. -/
def ofFile (host : Host) (manifestFile now : String) (memo : Memo) (file : Path) :
    Lookup Constants :=
  match host.locate? file with
  | none => (.error (.noWorkingDirectory file), memo)
  | some location => ofLocation host manifestFile now memo location

end Constants

end Imprint

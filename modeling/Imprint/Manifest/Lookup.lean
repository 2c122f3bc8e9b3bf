/-
Module: Imprint.Manifest.Lookup
Purpose: Finding and loading manifests. A manifest that was loaded once is remembered by its path for
  good; whether the file is there is looked up every time. The manifest of a project is the nearest
  one above a file; that of a dependency lies in the nearest `node_modules` directory that has it,
  and a project can also be found under its own name.
Main exports: Memo, LookupError, Manifest.load, Manifest.nearest?, Manifest.isPackageName,
  Manifest.ofPackage
-/
import Imprint.Files.FileSystem
import Imprint.Manifest

namespace Imprint

/-- Why a lookup failed. -/
inductive LookupError where
  | unreadable (path : Path)
  | malformed (path : Path)
  | noWorkingDirectory (path : Path)
deriving DecidableEq, Repr

/-- The message of a failure. -/
def LookupError.message : LookupError → String
  | .unreadable path => "failed to read manifest " ++ path.text
  | .malformed path => "failed to parse manifest " ++ path.text
  | .noWorkingDirectory path =>
      "cannot resolve " ++ path.text ++ " against the working directory"

/-- The remembered manifests by the steps of their paths. -/
abbrev Memo := List (List RawText × Manifest)

namespace Memo

/-- The manifest that is remembered for a path. -/
def find? (memo : Memo) (path : Path) : Option Manifest := memo.lookup path.steps

/-- The memory with one more manifest. -/
def remember (memo : Memo) (path : Path) (manifest : Manifest) : Memo :=
  memo ++ [(path.steps, manifest)]

end Memo

/-- The answer of a lookup, and what is remembered after it. -/
abbrev Lookup (α : Type) := Except LookupError α × Memo

namespace Manifest

/-! ### Loading -/

/-- The manifest at a path: the remembered one, or else that of the file. A file that says nothing
has none, and neither that nor a failure is remembered. -/
def load (host : Host) (memo : Memo) (path : Path) : Lookup (Option Manifest) :=
  match memo.find? path with
  | some manifest => (.ok (some manifest), memo)
  | none =>
      match host.readText? path with
      | none => (.error (.unreadable path), memo)
      | some source =>
          match content source with
          | .nothing => (.ok none, memo)
          | .malformed => (.error (.malformed path), memo)
          | .manifest manifest => (.ok (some manifest), memo.remember path manifest)

/-! ### The project of a file -/

/-- The manifest paths in the directories that a file lies in, the innermost first. -/
def pathsAbove (manifestFile : String) (file : Location) : List Path :=
  match file.parent? with
  | none => []
  | some directory =>
      directory.ancestors.map fun ancestor => ancestor.path.join ⟨manifestFile⟩

/-- The path of the nearest manifest file in the directories that a file lies in. -/
def nearest? (host : Host) (manifestFile : String) (file : Location) : Option Path :=
  (pathsAbove manifestFile file).find? host.isFile

/-! ### Dependencies -/

/-- A segment of a package name: not empty, no step that stays or goes up, and no backslash. -/
def isPackageSegment (segment : String) : Bool :=
  segment != "" && segment != "." && segment != ".." && !segment.toList.contains '\\'

/-- The segment starts like a scope. -/
def isScope (segment : String) : Bool := segment.toList.head? == some '@'

/-- A package name: one segment, or a scope and one segment. -/
def isPackageName (name : String) : Bool :=
  match Text.split '/' name with
  | [package] => isPackageSegment package && !isScope package
  | [scope, package] => isScope scope && isPackageSegment scope && isPackageSegment package
  | _ => false

/-- The manifest path of a dependency in the `node_modules` directory of a directory. -/
def dependencyPath (manifestFile name : String) (directory : Location) : Path :=
  ((directory.path.join ⟨"node_modules"⟩).join ⟨name⟩).join ⟨manifestFile⟩

/-- The manifest paths of a dependency as seen from a file, the innermost first. -/
def dependencyPaths (manifestFile name : String) (file : Location) : List Path :=
  (file.parent?.getD file).ancestors.map (dependencyPath manifestFile name)

/-- The path of the nearest manifest file of a dependency, as seen from a file. -/
def dependency? (host : Host) (manifestFile name : String) (file : Location) : Option Path :=
  (dependencyPaths manifestFile name file).find? host.isFile

/-- The manifest of a package as seen from a located file. -/
def ofPackageFrom (host : Host) (manifestFile : String) (memo : Memo) (name : String)
    (file : Location) : Lookup (Option Manifest) :=
  match dependency? host manifestFile name file with
  | some path => load host memo path
  | none =>
      match nearest? host manifestFile file with
      | none => (.ok none, memo)
      | some path =>
          match load host memo path with
          | (.ok (some manifest), memo) =>
              (.ok (if manifest.name = some name then some manifest else none), memo)
          | answer => answer

/-- The manifest of a package as seen from a file. What is no package name names no package. -/
def ofPackage (host : Host) (manifestFile : String) (memo : Memo) (name : String) (file : Path) :
    Lookup (Option Manifest) :=
  if isPackageName name then
    match host.locate? file with
    | none => (.error (.noWorkingDirectory file), memo)
    | some location => ofPackageFrom host manifestFile memo name location
  else
    (.ok none, memo)

end Manifest

end Imprint

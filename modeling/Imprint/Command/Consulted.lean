/-
Module: Imprint.Command.Consulted
Purpose: What a run may look at, so that it can be gathered before the run: the settings file, the
  standard input, and the manifest files of the project and of the packages that the tree asks for.
  Anything that a run finds missing among these makes it end early or go without, so a list that is
  too short because of a failure changes nothing.
Main exports: Request.settingsPath?, Request.readsInput, Request.manifestPaths, Host.withFile
-/
import Imprint.Command

namespace Imprint

namespace Request

/-- The path of the settings file. -/
def settingsPath? : Request → Option Path
  | .transform _ _ named | .inspect _ named => some (named.getD Settings.usualFile)
  | .canonicalText _ => none

/-- The request takes its tree from the standard input. -/
def readsInput : Request → Bool
  | .transform _ tree _ | .canonicalText tree => tree.isNone
  | .inspect _ _ => false

/-- The tree of a request, if it can be read. -/
def tree? (input : Input) : Request → Option Node
  | .transform _ tree _ | .canonicalText tree =>
      ((Command.treeText input tree).bind Command.parseTree).toOption
  | .inspect _ _ => none

/-- The manifest paths of the project of a file, and of the packages that a tree asks for. -/
def manifestPathsFor (host : Host) (file : Path) (named : Option Path) (root : Option Node) :
    List Path :=
  match Settings.discover host named, host.locate? file with
  | .ok settings, some location =>
      let packages := (root.map Rules.packagesOf).getD []
      Manifest.pathsAbove settings.manifestFile location ++
        (packages.filter Manifest.isPackageName).flatMap fun name =>
          Manifest.dependencyPaths settings.manifestFile name location
  | _, _ => []

/-- Every manifest path that a request may look at, on a host that has the settings file. -/
def manifestPaths (host : Host) (input : Input) (request : Request) : List Path :=
  match request with
  | .transform file _ named => manifestPathsFor host file named (request.tree? input)
  | .inspect file named => manifestPathsFor host file named none
  | .canonicalText _ => []

end Request

/-- The host with a file that was found at a path. Every place on the way to it is a directory. -/
def Host.withFile (host : Host) (path : Path) (file : File) : Host :=
  let passed := (Location.beginnings path.steps.dropLast).filterMap fun steps =>
    host.locate? ⟨(if path.isAbsolute then "/" else "") ++ RawText.join "/" steps⟩
  match host.locate? path with
  | none => host
  | some location =>
      { host with files := (passed.foldl FileSystem.makeDirectory host.files).place location file }

end Imprint

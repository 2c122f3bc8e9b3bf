/-
Module: Imprint.Files.Location
Purpose: Paths and the locations they name. A path is kept as it was written; a location is a list of
  names from the root down, without any `.` or `..`. A path names a location by reading it from left
  to right: `.` and empty parts stay, `..` goes up and stays at the root. Paths and names are bytes;
  only what is shown of them is text.
Main exports: Path, Path.steps, Path.join, Path.parent, Location, Location.resolve,
  Location.ancestors, Location.relativeText
-/
import Imprint.Files.RawText

namespace Imprint

/-- A path as it was written, with slashes between its parts. -/
structure Path where
  ofRaw ::
  raw : RawText
deriving DecidableEq, Repr

namespace Path

/-- The path that a text spells. -/
def mk (text : String) : Path := ⟨text⟩

/-- The path as it is shown. -/
def text (path : Path) : String := path.raw.shown

/-- The parts between the slashes, empty ones included. -/
def parts (path : Path) : List RawText := path.raw.split

/-- A part that leads nowhere. -/
def isIdle (part : RawText) : Bool := part == "" || part == "."

/-- The parts that lead somewhere. -/
def steps (path : Path) : List RawText := path.parts.filter fun part => !isIdle part

/-- The path starts at the root. -/
def isAbsolute (path : Path) : Bool := path.raw.bytes.head? = some RawText.slash

/-- The second path as seen from the first; an absolute one replaces it. -/
def join (base path : Path) : Path :=
  if path.isAbsolute then path
  else if base.raw.isEmpty || base.raw.bytes.getLast? = some RawText.slash then
    ⟨base.raw ++ path.raw⟩
  else
    ⟨base.raw ++ "/" ++ path.raw⟩

/-- The path of the directory that holds the last step: what stands before that step, without the
slashes and idle parts in between. -/
def parent (path : Path) : Path :=
  let before := (path.parts.reverse.dropWhile isIdle).drop 1
  match (before.dropWhile isIdle).reverse with
  | [] => ⟨if path.isAbsolute then "/" else ""⟩
  | kept => ⟨RawText.join "/" kept⟩

end Path

/-- A place in the file tree: the names from the root down. -/
structure Location where
  names : List RawText
deriving DecidableEq, Repr

namespace Location

/-- The root of the file tree. -/
def root : Location := ⟨[]⟩

/-- One step: up for `..`, and down otherwise. -/
def step (names : List RawText) (part : RawText) : List RawText :=
  if part = ".." then names.dropLast else names ++ [part]

/-- The location that a path names as seen from another one. -/
def resolve (base : Location) (path : Path) : Location :=
  ⟨path.steps.foldl step (if path.isAbsolute then [] else base.names)⟩

/-- The location as an absolute path. -/
def path (location : Location) : Path := ⟨"/" ++ RawText.join "/" location.names⟩

/-- The directory that holds a location; the root is in none. -/
def parent? (location : Location) : Option Location :=
  if location.names.isEmpty then none else some ⟨location.names.dropLast⟩

/-- The beginnings of a list, the longest first. -/
def beginnings : List RawText → List (List RawText)
  | [] => [[]]
  | name :: rest => (beginnings rest).map (name :: ·) ++ [[]]

/-- The location itself and everything it is in, the innermost first. -/
def ancestors (location : Location) : List Location := (beginnings location.names).map .mk

/-- What follows a beginning in a list. -/
def after? : List RawText → List RawText → Option (List RawText)
  | [], names => some names
  | _ :: _, [] => none
  | first :: rest, name :: names => if first = name then after? rest names else none

/-- The location as seen from a directory, with a slash in front and between the names as they are
shown. A location that is not inside the directory is written out from the root. -/
def relativeText (directory : Path) (location : Location) : String :=
  "/" ++ Text.join "/" (((after? directory.steps location.names).getD location.names).map
    RawText.shown)

end Location

end Imprint

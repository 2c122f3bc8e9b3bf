/-
Module: Imprint.Files.FileSystem
Purpose: A file tree as a value, and how the operating system follows a path in it: every part before
  the last must lead to a directory, also before `.`, `..` and a final slash.
Main exports: File, FileSystem, FileSystem.isFile, FileSystem.readText?, FileSystem.place,
  FileSystem.makeDirectory, FileSystem.remove, Host
-/
import Imprint.Files.Location

namespace Imprint

/-- A file: its bytes, and whether they can be read. -/
structure File where
  bytes : ByteArray
  isReadable : Bool

namespace File

/-- A file that can be read. -/
def readable (bytes : ByteArray) : File := ⟨bytes, true⟩

instance : Coe ByteArray File := ⟨readable⟩

/-- The text of a file, if the file can be read and its bytes are well-formed. -/
def text? (file : File) : Option String :=
  if file.isReadable then String.fromUTF8? file.bytes else none

end File

/-- What a location holds. -/
inductive Entry where
  | file (file : File)
  | directory

/-- A file tree: what every location below the root holds. The root itself is a directory. -/
structure FileSystem where
  entry? : List RawText → Option Entry

namespace FileSystem

/-- Nothing but the root. -/
def empty : FileSystem := ⟨fun _ => none⟩

/-- A location is a directory. -/
def isDirectory (files : FileSystem) (names : List RawText) : Bool :=
  names.isEmpty ||
    match files.entry? names with
    | some .directory => true
    | _ => false

/-- The longest name, in bytes. -/
def nameLimit : Nat := 255

/-- The longest path, in bytes. -/
def pathLimit : Nat := 4095

/-- One part of a path, taken from a location that must be a directory. -/
def follow? (files : FileSystem) (names : List RawText) (part : RawText) :
    Option (List RawText) :=
  if !files.isDirectory names then none
  else if Path.isIdle part then some names
  else if part = ".." then some names.dropLast
  else if part.size ≤ nameLimit then some (names ++ [part])
  else none

/-- The file that a path leads to from a working directory; a relative path leads nowhere without
one. -/
def file? (files : FileSystem) (workingDirectory : Option Location) (path : Path) : Option File :=
  if path.raw.isEmpty || pathLimit < path.raw.size || path.raw.bytes.contains RawText.nul then none
  else
    let start? := if path.isAbsolute then some [] else workingDirectory.map Location.names
    match start?.bind fun start => path.parts.foldlM files.follow? start with
    | none => none
    | some names =>
        match files.entry? names with
        | some (.file file) => some file
        | _ => none

/-- A path leads to a file. -/
def isFile (files : FileSystem) (workingDirectory : Option Location) (path : Path) : Bool :=
  (files.file? workingDirectory path).isSome

/-- The text of the file that a path leads to, if it has one. -/
def readText? (files : FileSystem) (workingDirectory : Option Location) (path : Path) :
    Option String :=
  (files.file? workingDirectory path).bind File.text?

/-! ### Changes -/

/-- A location lies properly inside another one. -/
def isInside (inner outer : List RawText) : Bool :=
  outer.isPrefixOf inner && outer.length < inner.length

/-- The file tree with a directory, and the directories it lies in. -/
def makeDirectory (files : FileSystem) (location : Location) : FileSystem :=
  ⟨fun names =>
    if names = location.names ∨ isInside location.names names then some .directory
    else files.entry? names⟩

/-- The file tree with a file at a location, and the directories it lies in. -/
def place (files : FileSystem) (location : Location) (file : File) : FileSystem :=
  ⟨fun names =>
    if names = location.names then some (.file file)
    else if isInside location.names names then some .directory
    else files.entry? names⟩

/-- The file tree with a file of some bytes, which can be read, at a location. -/
def write (files : FileSystem) (location : Location) (bytes : ByteArray) : FileSystem :=
  files.place location bytes

/-- The file tree without a location and everything inside it. -/
def remove (files : FileSystem) (location : Location) : FileSystem :=
  ⟨fun names => if location.names.isPrefixOf names then none else files.entry? names⟩

end FileSystem

/-! ### The host -/

/-- What a run sees of its surroundings: the file tree, the working directory unless it was removed,
the local time as text, and the milliseconds since 1970. -/
structure Host where
  files : FileSystem
  workingDirectory : Option Location
  localTime : String
  clock : Int

namespace Host

/-- The location that a path names; a relative path needs the working directory. -/
def locate? (host : Host) (path : Path) : Option Location :=
  if path.isAbsolute then some (Location.root.resolve path)
  else host.workingDirectory.map fun base => base.resolve path

/-- A path leads to a file. -/
def isFile (host : Host) (path : Path) : Bool := host.files.isFile host.workingDirectory path

/-- The text of the file that a path leads to. -/
def readText? (host : Host) (path : Path) : Option String :=
  host.files.readText? host.workingDirectory path

/-- The host after a file was written. -/
def write (host : Host) (location : Location) (file : File) : Host :=
  { host with files := host.files.place location file }

/-- The host after a location was removed. A removed working directory does not come back. -/
def remove (host : Host) (location : Location) : Host :=
  { host with
    files := host.files.remove location
    workingDirectory := host.workingDirectory.filter fun directory =>
      !location.names.isPrefixOf directory.names }

end Host

end Imprint

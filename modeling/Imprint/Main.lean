/-
Module: Imprint.Main
Purpose: The program. It gathers what a run may look at, runs, and prints.
Main exports: main
-/
import Imprint.Command.Consulted
import Std.Time

namespace Imprint.Program

/-- A file that is there but cannot be read. -/
def unreadable : File := ⟨.empty, false⟩

/-- The file at a path, if there is one. -/
def file? (path : Path) : IO (Option File) := do
  if path.raw.isEmpty || path.raw.bytes.contains RawText.nul then return none
  match ← (IO.FS.readBinFile path.text).toBaseIO with
  | .ok bytes => return some bytes
  | .error (.permissionDenied _ _ _) => return some unreadable
  | .error _ => return none

/-- The host with the files at some paths. -/
def gather (host : Host) (paths : List Path) : IO Host :=
  paths.foldlM (fun host path => do
    match ← file? path with
    | some file => return host.withFile path file
    | none => return host) host

/-- The working directory, if there is one. -/
def workingDirectory? : IO (Option Location) := do
  match ← IO.currentDir.toBaseIO with
  | .ok path => return some (Location.root.resolve ⟨path.toString⟩)
  | .error _ => return none

/-- The standard input to its end. -/
def input : IO Input := do
  let stdin ← IO.getStdin
  if ← stdin.isTty then return .terminal
  let bytes ← stdin.readBinToEnd
  match String.fromUTF8? bytes with
  | some content => return .text content
  | none => return .malformed

/-- The host before any file is read. -/
def host : IO Host := do
  let localTime := (← Std.Time.PlainDateTime.now).format "uuuu-MM-dd HH:mm:ss"
  let clock := (← Std.Time.Timestamp.now).toMillisecondsSinceUnixEpoch.val
  return ⟨.empty, ← workingDirectory?, localTime, clock⟩

/-- Print the outputs of a run. -/
def print (outcome : Outcome) : IO UInt32 := do
  IO.print outcome.output
  IO.eprint outcome.notes
  return outcome.code.toUInt32

/-- The input of a run that makes a request. -/
def inputFor (request : Request) : IO Input :=
  if request.readsInput then input else return .text ""

/-- Run on a host that has gathered all that the arguments ask for. -/
def run (environment : Option String) (arguments : List String) : IO Outcome := do
  match Arguments.read environment arguments with
  | .error stop => return Command.stopped stop
  | .ok (_, request) =>
      let input ← inputFor request
      let host ← gather (← host) request.settingsPath?.toList
      let host ← gather host (request.manifestPaths host input)
      return Command.run host environment arguments input

end Imprint.Program

open Imprint in
/-- Run on the arguments, and on the settings file that the environment names. -/
def main (arguments : List String) : IO UInt32 := do
  Program.print (← Program.run (← IO.getEnv Settings.environmentVariable) arguments)

/-
Module: Imprint.Command
Purpose: The command line as a function: from the host, the arguments and the input to the exit code
  and the two outputs. Settings are read before the tree, and the tree before the file is looked at.
Main exports: Outcome, Input, Command.run
-/
import Imprint.Command.Arguments
import Imprint.Node.Printer
import Imprint.Node.Reader
import Imprint.Session
import Imprint.Settings.Reader

namespace Imprint

/-- How a run ends. -/
structure Outcome where
  code : UInt8
  output : String
  notes : String
deriving DecidableEq, Repr

/-- The standard input of a run. -/
inductive Input where
  | text (content : String)
  | malformed
  | terminal
deriving DecidableEq, Repr

namespace Command

/-- The name and version of the program. -/
def versionText : String := "defines_cli 0.1.0\n"

/-- How the program is used. -/
def usageText : String :=
  "Usage: defines_cli [-q|--quiet] <COMMAND>\n\n" ++
  "Commands:\n" ++
  "  transform -f|--file <FILE> [--ast <AST>] [-c|--config <CONFIG>]\n" ++
  "  inspect   -f|--file <FILE> [-c|--config <CONFIG>]\n" ++
  "  stringify [--ast <AST>]\n"

/-- A run that succeeds. -/
def success (output : String) (notes : String) : Outcome := ⟨0, output, notes⟩

/-- A run that fails with a message. -/
def failure (message : String) : Outcome := ⟨1, "", "error: " ++ message ++ "\n"⟩

/-- A run whose reading of arguments ended early. -/
def stopped : Stop → Outcome
  | .usage => ⟨2, "", usageText⟩
  | .help => ⟨0, usageText, ""⟩
  | .version => ⟨0, versionText, ""⟩

/-- The text of the tree: the given one, or else the input, unless that is a terminal or no text. -/
def treeText (input : Input) (given : Option String) : Except Outcome String :=
  match given, input with
  | some source, _ => .ok source
  | none, .text content => .ok content
  | none, .malformed => .error (failure "Failed to read stdin")
  | none, .terminal =>
      .error (failure "No input provided. Use --ast or pipe JSON via stdin.")

/-- The tree of a JSON text, or the failure. -/
def parseTree (source : String) : Except Outcome Node :=
  match Node.ofText? source with
  | some root => .ok root
  | none => .error (failure "Failed to parse AST JSON")

/-- The settings, or the failure. -/
def loadSettings (host : Host) (named : Option Path) : Except Outcome Settings :=
  (Settings.discover host named).mapError fun error => failure error.message

/-- The notes on an imprinted file: the number of replacements, and a line for every name. -/
def summary (file : Path) (report : Report) : String :=
  "OK " ++ file.text ++ " replaced " ++ toString report.replaced ++ " identifier(s)\n" ++
    Text.join "" (report.byName.map fun (name, count) =>
      "  " ++ name ++ " x" ++ toString count ++ "\n")

/-- The constants of a file as they are shown. -/
def description (file : Path) (settings : Settings) (constants : Constants) : Json :=
  .object
    [("file", .text file.text),
      ("manifestDir", Json.ofOption (constants.directory.map Path.text)),
      ("packageName", Json.ofOption (constants.manifest.bind Manifest.name)),
      ("packageVersion", Json.ofOption (constants.manifest.bind Manifest.version)),
      ("filename", Json.ofOption constants.filename),
      ("dirname", Json.ofOption constants.dirname),
      ("now", .text constants.now),
      ("enabled",
        .array ((BuiltIn.all.filter settings.isEnabled).map fun builtIn =>
          .text builtIn.identifier)),
      ("defines", .ofNat settings.defines.length)]

/-- Imprint the constants of a file on its tree. -/
def transform (host : Host) (quiet : Bool) (input : Input) (file : Path) (tree : Option String)
    (named : Option Path) : Except Outcome Outcome := do
  let settings ← loadSettings host named
  let root ← (treeText input tree).bind parseTree
  match (Session.start settings host.localTime).transform host file root with
  | (.error error, _) =>
      throw (failure ("Failed to transform " ++ file.text ++ ": " ++ error.message))
  | (.ok imprinted, _) =>
      return success (imprinted.root.prettyText ++ "\n")
        (if quiet then "" else summary file imprinted.report)

/-- Show the constants of a file. -/
def inspect (host : Host) (file : Path) (named : Option Path) : Except Outcome Outcome := do
  let settings ← loadSettings host named
  match (Session.start settings host.localTime).constants host file with
  | (.error error, _) =>
      throw (failure ("Failed to resolve constants for " ++ file.text ++ ": " ++ error.message))
  | (.ok constants, _) =>
      return success ((description file settings constants).pretty ++ "\n") ""

/-- Show the canonical text of a tree. -/
def canonicalText (input : Input) (tree : Option String) : Except Outcome Outcome := do
  let root ← (treeText input tree).bind parseTree
  return success (root.canonicalText ++ "\n") ""

/-- Do what a request asks for; the input stands in for a tree that is not given. -/
def perform (host : Host) (quiet : Bool) (input : Input) : Request → Except Outcome Outcome
  | .transform file tree settings => transform host quiet input file tree settings
  | .inspect file settings => inspect host file settings
  | .canonicalText tree => canonicalText input tree

/-- The outcome of either side. -/
def finish : Except Outcome Outcome → Outcome
  | .ok outcome => outcome
  | .error outcome => outcome

/-- Run with the given arguments and input; `environment` names a settings file unless an option
does. -/
def run (host : Host) (environment : Option String) (arguments : List String) (input : Input) :
    Outcome :=
  match Arguments.read environment arguments with
  | .error stop => stopped stop
  | .ok (quiet, request) => finish (perform host quiet input request)

end Command

end Imprint

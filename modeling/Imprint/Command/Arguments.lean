/-
Module: Imprint.Command.Arguments
Purpose: The arguments of the command line. A subcommand comes after the general flags; its options
  take their value from the same argument or from the next one, which must not look like an option;
  no option may be given twice. A settings file can also be named by the environment. Asking for help
  or for the version ends the reading at once.
Main exports: Request, Stop, Arguments.read
-/
import Imprint.Files.Location

namespace Imprint

/-- What the command line asks for. -/
inductive Request where
  /-- Imprint the constants of a file on its tree. -/
  | transform (file : Path) (tree : Option String) (settings : Option Path)
  /-- Show the constants of a file. -/
  | inspect (file : Path) (settings : Option Path)
  /-- Show the canonical text of a tree. -/
  | canonicalText (tree : Option String)
deriving DecidableEq, Repr

/-- Why the reading of the arguments ends early. -/
inductive Stop where
  | usage
  | help
  | version
deriving DecidableEq, Repr

namespace Arguments

/-- The subcommands. -/
inductive Subcommand where
  | transform
  | inspect
  | stringify
deriving DecidableEq, Repr

/-- The options that take a value. -/
inductive Parameter where
  | file
  | ast
  | config
deriving DecidableEq, Repr

namespace Subcommand

/-- Every subcommand. -/
def all : List Subcommand := [.transform, .inspect, .stringify]

/-- The word for a subcommand. -/
def word : Subcommand → String
  | .transform => "transform"
  | .inspect => "inspect"
  | .stringify => "stringify"

/-- The options of a subcommand. -/
def parameters : Subcommand → List Parameter
  | .transform => [.file, .ast, .config]
  | .inspect => [.file, .config]
  | .stringify => [.ast]

end Subcommand

namespace Parameter

/-- The long name of an option. -/
def longName : Parameter → String
  | .file => "file"
  | .ast => "ast"
  | .config => "config"

/-- The letter of an option. -/
def letter? : Parameter → Option Char
  | .file => some 'f'
  | .ast => none
  | .config => some 'c'

/-- The option has a path for its value, which cannot be empty. -/
def isPath : Parameter → Bool
  | .ast => false
  | _ => true

end Parameter

/-! ### Reading option by option -/

/-- What has been read at one level: the quiet flag, the options with their values, an option that
waits for its value, and whether `--` has closed the options. -/
structure Level where
  quiet : Bool
  values : List (Parameter × String)
  pending : Option Parameter
  closed : Bool
deriving DecidableEq, Repr

namespace Level

/-- Nothing yet. -/
def empty : Level := ⟨false, [], none, false⟩

/-- The quiet flag, once. -/
def setQuiet (level : Level) : Except Stop Level :=
  if level.quiet then .error .usage else .ok { level with quiet := true }

/-- An option with its value, once. -/
def setValue (level : Level) (parameter : Parameter) (value : String) : Except Stop Level :=
  if (level.values.lookup parameter).isSome || (parameter.isPath && value.isEmpty) then
    .error .usage
  else
    .ok { level with values := (parameter, value) :: level.values, pending := none }

/-- An option whose value comes next. -/
def await (level : Level) (parameter : Parameter) : Level :=
  { level with pending := some parameter }

end Level

/-- The flags and options of one level: the general level also tells the version and has no options
with values. -/
structure Vocabulary where
  parameters : List Parameter
  tellsVersion : Bool

/-- The text after an equals sign at the front. -/
def withoutEquals : List Char → List Char
  | '=' :: value => value
  | value => value

/-- A group of letters behind one dash. The first option with a value takes the rest of the group. -/
def readLetters (vocabulary : Vocabulary) : Level → List Char → Except Stop Level
  | level, [] => .ok level
  | level, letter :: rest =>
      match vocabulary.parameters.find? fun parameter => parameter.letter? == some letter with
      | some parameter =>
          if rest.isEmpty then .ok (level.await parameter)
          else level.setValue parameter (String.ofList (withoutEquals rest))
      | none =>
          if letter = 'q' then
            level.setQuiet.bind fun level => readLetters vocabulary level rest
          else if letter = 'h' then .error .help
          else if letter = 'V' ∧ vocabulary.tellsVersion = true then .error .version
          else .error .usage

/-- A long flag or option, with a value if an equals sign follows its name. -/
def readLong (vocabulary : Vocabulary) (level : Level) (name : String) (value : Option String) :
    Except Stop Level :=
  match vocabulary.parameters.find? fun parameter => parameter.longName == name with
  | some parameter =>
      match value with
      | some value => level.setValue parameter value
      | none => .ok (level.await parameter)
  | none =>
      if value.isSome then .error .usage
      else if name = "quiet" then level.setQuiet
      else if name = "help" then .error .help
      else if name = "version" ∧ vocabulary.tellsVersion = true then .error .version
      else .error .usage

/-- The name of a long option, and the value behind the first equals sign. -/
def splitLong (cs : List Char) : String × Option String :=
  let name := cs.takeWhile fun c => c != '='
  match cs.dropWhile fun c => c != '=' with
  | [] => (String.ofList name, none)
  | _ :: value => (String.ofList name, some (String.ofList value))

/-- An argument looks like an option: it starts with a dash and is more than that. -/
def looksLikeOption : List Char → Bool
  | '-' :: _ :: _ => true
  | _ => false

/-- One argument of a subcommand. -/
def readArgument (vocabulary : Vocabulary) (level : Level) (argument : String) :
    Except Stop Level :=
  match level.pending, argument.toList with
  | some parameter, cs =>
      if looksLikeOption cs then .error .usage else level.setValue parameter argument
  | none, cs =>
      if level.closed then .error .usage
      else
        match cs with
        | ['-', '-'] => .ok { level with closed := true }
        | '-' :: '-' :: long =>
            let (name, value) := splitLong long
            readLong vocabulary level name value
        | '-' :: letter :: letters => readLetters vocabulary level (letter :: letters)
        | _ => .error .usage

/-! ### Subcommands -/

/-- The options of a subcommand, where `environment` names a settings file unless an option does. -/
def request (environment : Option String) (subcommand : Subcommand) (level : Level) :
    Except Stop Request :=
  let value? (parameter : Parameter) : Option String := level.values.lookup parameter
  let settings : Except Stop (Option Path) :=
    match value? .config, environment with
    | some path, _ => .ok (some (.mk path))
    | none, some path => if path.isEmpty then .error .usage else .ok (some (.mk path))
    | none, none => .ok none
  if level.pending.isSome then .error .usage
  else
    match subcommand, value? .file with
    | .transform, some file =>
        settings.map fun settings => .transform (.mk file) (value? .ast) settings
    | .inspect, some file => settings.map fun settings => .inspect (.mk file) settings
    | .stringify, _ => .ok (.canonicalText (value? .ast))
    | _, none => .error .usage

/-- The request for help, which may name one subcommand. -/
def helpStop : List String → Stop
  | [] => .help
  | [word] => if ("help" :: Subcommand.all.map Subcommand.word).contains word then .help else .usage
  | _ => .usage

/-- The arguments from the general flags on: whether to be quiet, and the request. -/
def readFrom (environment : Option String) : Level → List String → Except Stop (Bool × Request)
  | _, [] => .error .usage
  | general, argument :: rest =>
      if argument = "help" ∧ general.closed = false then .error (helpStop rest)
      else
        match Subcommand.all.find? fun subcommand =>
            !general.closed && subcommand.word == argument with
        | some subcommand => do
            let vocabulary : Vocabulary := ⟨subcommand.parameters, false⟩
            let level ← rest.foldlM (readArgument vocabulary) Level.empty
            let request ← request environment subcommand level
            return (general.quiet || level.quiet, request)
        | none => do
            let general ← readArgument ⟨[], true⟩ general argument
            readFrom environment general rest

/-- Read all arguments. -/
def read (environment : Option String) (arguments : List String) : Except Stop (Bool × Request) :=
  readFrom environment Level.empty arguments

end Arguments

end Imprint

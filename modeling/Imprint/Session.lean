/-
Module: Imprint.Session
Purpose: A build session: settings and a time that all its files share, and the manifests that it
  remembers from file to file. Every operation gives its answer and the session after it.
Main exports: Session, Session.start, Session.constants, Session.package, Session.imprint,
  Session.transform, Session.remembered
-/
import Imprint.Substitution

namespace Imprint

/-- A build session. -/
structure Session where
  settings : Settings
  now : String
  memo : Memo

namespace Session

/-- A session that remembers nothing yet. -/
def start (settings : Settings) (now : String) : Session := ⟨settings, now, []⟩

/-- An answer, and the session after it. -/
abbrev Answer (α : Type) := Except LookupError α × Session

/-- The answer of a lookup, and the session with what is remembered after it. -/
def answer {α : Type} (session : Session) (lookup : Lookup α) : Answer α :=
  (lookup.1, { session with memo := lookup.2 })

/-- The constants of a file. -/
def constants (session : Session) (host : Host) (file : Path) : Answer Constants :=
  session.answer
    (Constants.ofFile host session.settings.manifestFile session.now session.memo file)

/-- The manifest of a package as seen from a file. -/
def package (session : Session) (host : Host) (name : String) (file : Path) :
    Answer (Option Manifest) :=
  session.answer (Manifest.ofPackage host session.settings.manifestFile session.memo name file)

/-- The imprinted tree of a file whose constants are given. -/
def imprint (session : Session) (host : Host) (constants : Constants) (file : Path) (root : Node) :
    Answer Imprinted :=
  session.answer (Imprinted.ofTree host session.settings session.memo constants file root)

/-- The imprinted tree of a file. -/
def transform (session : Session) (host : Host) (file : Path) (root : Node) : Answer Imprinted :=
  match session.constants host file with
  | (.error error, session) => (.error error, session)
  | (.ok constants, session) => session.imprint host constants file root

/-- How many manifests the session remembers. -/
def remembered (session : Session) : Nat := session.memo.length

end Session

end Imprint

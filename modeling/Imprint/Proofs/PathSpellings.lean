/-
Module: Imprint.Proofs.PathSpellings
Purpose: Spellings of a path. A path names a location that is made of names, and the path that is written
  out from the location names it again. Slashes and dots that are put in, a name and the way back, the
  working directory in front and steps above the root are all spellings of the same location. As the
  location is all that a session makes of a path, every operation has the same outcome for all of them.
Main exports: Path.Detour, Path.Respelled, Location.resolve_respelled, Interchangeable,
  spellings_name_one_location
-/
import Imprint.Proofs.LocationPaths
import Imprint.Proofs.SessionRuns
import Mathlib.Logic.Relation

namespace Imprint

/-! ### Spellings -/

namespace Path

/-- What can be put in between two slashes of a path: nothing, a step that stays, or a name and the way
back. -/
inductive Detour : RawText → Prop where
  | slash : Detour ""
  | stay : Detour "."
  | back {name : RawText} (isName : IsName name) : Detour (name ++ "/" ++ "..")

/-- Two spellings of a path, one of which is longer: by a detour after a slash, in front of a relative path
or at the end, by the directory that relative paths start from, or by a step above the root. -/
inductive Respelled (directory : Location) : Path → Path → Prop where
  | between {more : RawText} (detour : Detour more) (before after : RawText) :
      Respelled directory ⟨before ++ "/" ++ after⟩ ⟨before ++ "/" ++ (more ++ "/" ++ after)⟩
  | inFront {more : RawText} (detour : Detour more) (filled : more ≠ "") {path : Path}
      (relative : path.isAbsolute = false) : Respelled directory path ⟨more ++ "/" ++ path.raw⟩
  | atEnd {more : RawText} (detour : Detour more) {path : Path} (filled : path.raw ≠ "") :
      Respelled directory path ⟨path.raw ++ "/" ++ more⟩
  | fromDirectory (path : Path) : Respelled directory path (directory.path.join path)
  | aboveRoot (rest : RawText) : Respelled directory ⟨"/" ++ rest⟩ ⟨"/" ++ (".." ++ "/" ++ rest)⟩

variable {path : Path} {more : RawText}

theorem steps_name {name : RawText} (isName : IsName name) : steps ⟨name⟩ = [name] := by
  rw [steps, parts, RawText.split_of_not_mem isName.whole]
  simp [isName.moves]

/-- The way back leads up by as much as the name leads down. -/
theorem Detour.foldl_step (detour : Detour more) (names : List RawText) :
    (steps ⟨more⟩).foldl Location.step names = names := by
  cases detour with
  | slash => rfl
  | stay => rfl
  | @back name isName =>
      have up : steps ⟨".."⟩ = [(".." : RawText)] := by decide
      rw [steps_append, steps_name isName, up]
      simp [Location.step, isName.down]

/-- What follows the first slash has no say in whether a path is absolute. -/
theorem isAbsolute_append (before after other : RawText) :
    isAbsolute ⟨before ++ "/" ++ after⟩ = isAbsolute ⟨before ++ "/" ++ other⟩ := by
  rw [Bool.eq_iff_iff, isAbsolute_iff, isAbsolute_iff]
  simp

/-- A path that is not empty is as absolute as with a slash behind it. -/
theorem isAbsolute_atEnd {raw : RawText} (filled : raw ≠ "") (after : RawText) :
    isAbsolute ⟨raw ++ "/" ++ after⟩ = isAbsolute ⟨raw⟩ := by
  obtain ⟨bytes⟩ := raw
  cases bytes with
  | nil => exact absurd rfl filled
  | cons first rest => rfl

theorem Detour.isAbsolute_append (detour : Detour more) (filled : more ≠ "") (after : RawText) :
    isAbsolute ⟨more ++ "/" ++ after⟩ = false := by
  rw [isAbsolute_atEnd filled]
  cases detour with
  | slash => exact absurd rfl filled
  | stay => decide
  | @back name isName =>
      have named : name ≠ "" := fun empty => not_isName_empty (empty ▸ isName)
      rw [isAbsolute_atEnd named, Bool.eq_false_iff, Ne, isAbsolute_iff]
      exact fun first => isName.whole (List.mem_of_head? first)

/-- A relative path goes on from the path that it is joined to. -/
theorem steps_join (base : Path) (relative : path.isAbsolute = false) :
    (base.join path).steps = base.steps ++ path.steps := by
  rw [join, if_neg (by simp [relative])]
  split
  · rename_i ends
    rcases Bool.or_eq_true_iff.mp ends with empty | slash
    · obtain ⟨⟨bytes⟩⟩ := base
      obtain rfl : bytes = [] := List.isEmpty_iff.mp empty
      rfl
    · have last : base.raw.bytes.getLast? = some RawText.slash := by simpa using slash
      obtain ⟨front, bytes⟩ := List.getLast?_eq_some_iff.mp last
      have raw : base.raw = (⟨front⟩ : RawText) ++ "/" ++ "" := RawText.ext (by simpa using bytes)
      have whole : base.steps = steps ⟨⟨front⟩⟩ := by
        rw [steps, parts, raw]
        exact (steps_append _ _).trans (List.append_nil _)
      rw [whole, raw, RawText.append_empty, steps_append]
  · rw [steps_append]

end Path

namespace Location

variable {directory location : Location} {path other : Path}

/-- From a path on, what counts is where it leads to, not whether it is absolute. -/
theorem resolve_congr (absolute : path.isAbsolute = other.isAbsolute)
    (same : ∀ names, path.steps.foldl step names = other.steps.foldl step names) :
    directory.resolve path = directory.resolve other := by
  rw [resolve, resolve, absolute, same]

/-- The path of a location names the location, wherever it is read from. -/
theorem resolve_path (proper : location.IsProper) : directory.resolve location.path = location := by
  have steps : location.path.steps = location.names := steps_path proper
  rw [resolve, if_pos location.isAbsolute_path, steps,
    foldl_step fun name mem => (proper name mem).down]
  rfl

/-- A path and the same path behind the directory that it starts from name one location. -/
theorem resolve_join (proper : directory.IsProper) (path : Path) :
    directory.resolve (directory.path.join path) = directory.resolve path := by
  by_cases absolute : path.isAbsolute
  · rw [Path.join, if_pos absolute]
  · have relative : path.isAbsolute = false := by simpa using absolute
    have start : directory.names.foldl step [] = directory.names :=
      foldl_step (fun name mem => (proper name mem).down) []
    have steps : directory.path.steps = directory.names := steps_path proper
    rw [resolve, resolve, if_pos (Path.isAbsolute_join directory.isAbsolute_path), if_neg absolute,
      Path.steps_join _ relative, List.foldl_append, steps, start]

/-- Two spellings of a path name one location. -/
theorem resolve_respelled (proper : directory.IsProper) (respelled : path.Respelled directory other) :
    directory.resolve path = directory.resolve other := by
  cases respelled with
  | between detour before after =>
      apply resolve_congr (Path.isAbsolute_append _ _ _)
      intro names
      rw [Path.steps_append, Path.steps_append, Path.steps_append, List.foldl_append,
        List.foldl_append, List.foldl_append, detour.foldl_step]
  | inFront detour filled relative =>
      apply resolve_congr (relative.trans (detour.isAbsolute_append filled _).symm)
      intro names
      rw [Path.steps_append, List.foldl_append, detour.foldl_step]
  | atEnd detour filled =>
      apply resolve_congr (Path.isAbsolute_atEnd filled _).symm
      intro names
      rw [Path.steps_append, List.foldl_append, detour.foldl_step]
  | fromDirectory => exact (resolve_join proper path).symm
  | aboveRoot rest =>
      have absolute (raw : RawText) : Path.isAbsolute ⟨"/" ++ raw⟩ := by
        simp [Path.isAbsolute_iff]
      have behind (raw : RawText) : Path.steps ⟨"/" ++ raw⟩ = Path.steps ⟨raw⟩ := by
        exact Path.steps_append "" raw
      have up : Path.steps ⟨".."⟩ = [(".." : RawText)] := by decide
      rw [resolve, resolve, if_pos (absolute _), if_pos (absolute _), behind, behind,
        Path.steps_append, up]
      rfl

/-- All spellings of a path name one location. -/
theorem resolve_spellings (proper : directory.IsProper)
    (spelled : Relation.EqvGen (Path.Respelled directory) path other) :
    directory.resolve path = directory.resolve other := by
  induction spelled with
  | rel path other respelled => exact resolve_respelled proper respelled
  | refl path => rfl
  | symm path other _ ih => exact ih.symm
  | trans path middle other _ _ first second => exact first.trans second

end Location

/-! ### What a session makes of a path -/

/-- Every session gives the same answers for two paths of a file, and remembers the same after each. -/
structure Interchangeable (host : Host) (path other : Path) : Prop where
  constants : ∀ session : Session, session.constants host path = session.constants host other
  package : ∀ (session : Session) (name : String),
    session.package host name path = session.package host name other
  transform : ∀ (session : Session) (root : Node),
    session.transform host path root = session.transform host other root
  imprint : ∀ (session : Session) (constants : Constants) (root : Node),
    session.imprint host constants path root = session.imprint host constants other root

section Sessions

variable {host : Host} {directory location : Location} {path other : Path}

/-- With a working directory, every path names a location. -/
theorem Host.locate?_eq (working : host.workingDirectory = some directory) (path : Path) :
    host.locate? path = some (directory.resolve path) := by
  rw [locate?, working, Option.map_some]
  split
  · rename_i absolute
    rw [Location.resolve, Location.resolve, if_pos absolute, if_pos absolute]
  · rfl

section Located

variable (located : host.locate? path = some location)
  (otherLocated : host.locate? other = some location)

include located otherLocated

theorem Constants.ofFile_eq_of_locate? (manifestFile now : String) (memo : Memo) :
    ofFile host manifestFile now memo path = ofFile host manifestFile now memo other := by
  rw [ofFile, ofFile, located, otherLocated]

theorem Manifest.ofPackage_eq_of_locate? (manifestFile name : String) (memo : Memo) :
    ofPackage host manifestFile memo name path = ofPackage host manifestFile memo name other := by
  rw [ofPackage, ofPackage, located, otherLocated]

theorem Manifest.versionsOf_eq_of_locate? (manifestFile : String) (memo : Memo)
    (packages : List String) :
    versionsOf host manifestFile path memo packages =
      versionsOf host manifestFile other memo packages := by
  induction packages generalizing memo with
  | nil => rfl
  | cons package rest ih =>
      rw [versionsOf, versionsOf, ofPackage_eq_of_locate? located otherLocated]
      simp only [ih]

theorem Imprinted.ofTree_eq_of_locate? (settings : Settings) (memo : Memo) (constants : Constants)
    (root : Node) :
    ofTree host settings memo constants path root =
      ofTree host settings memo constants other root := by
  rw [ofTree_eq, ofTree_eq]
  simp only [Manifest.versionsOf_eq_of_locate? located otherLocated]

/-- A session sees nothing of a path but the location that it names. -/
theorem interchangeable_of_locate? : Interchangeable host path other where
  constants session := by
    rw [Session.constants, Session.constants, Constants.ofFile_eq_of_locate? located otherLocated]
  package session name := by
    rw [Session.package, Session.package, Manifest.ofPackage_eq_of_locate? located otherLocated]
  transform session root := by
    rw [Session.transform_eq, Session.transform_eq]
    unfold Lookup.andThen
    simp only [Constants.ofFile_eq_of_locate? located otherLocated,
      Imprinted.ofTree_eq_of_locate? located otherLocated]
  imprint session constants root := by
    rw [Session.imprint, Session.imprint, Imprinted.ofTree_eq_of_locate? located otherLocated]

end Located

/-- Every path names a location below the root that is made of names, and the path that is written out
from the location is absolute, takes the steps of the location and names it again. All spellings of the
path name that location, steps above the root included, so every session gives the same answers for
them, makes the same trees and remembers the same manifests. -/
theorem spellings_name_one_location (working : host.workingDirectory = some directory)
    (proper : directory.IsProper) (path : Path) :
    ∃ location, host.locate? path = some location ∧
      (location.path.isAbsolute ∧ location.path.steps = location.names ∧ location.IsProper) ∧
      host.locate? location.path = some location ∧
      ∀ other, Relation.EqvGen (Path.Respelled directory) path other →
        host.locate? other = some location ∧ Interchangeable host path other := by
  have isProper := Location.isProper_resolve proper path
  refine ⟨directory.resolve path, Host.locate?_eq working path, ?_, ?_, ?_⟩
  · exact ⟨Location.isAbsolute_path _, Location.steps_path isProper, isProper⟩
  · rw [Host.locate?_eq working, Location.resolve_path isProper]
  · intro other spelled
    have located := Host.locate?_eq working path
    have otherLocated := Host.locate?_eq working other
    rw [← Location.resolve_spellings proper spelled] at otherLocated
    exact ⟨otherLocated, interchangeable_of_locate? located otherLocated⟩

end Sessions

namespace Sample

/-- A project that is worked on from its own directory. -/
def workplace : Host where
  files := .write .empty ⟨["app", "package.json"]⟩ "\x7b\"name\":\"app\"\x7d".toUTF8
  workingDirectory := some ⟨["app"]⟩
  localTime := ""
  clock := 0

theorem spellings_of_main :
    Relation.EqvGen (Path.Respelled ⟨["app"]⟩) ⟨"src/main.js"⟩
      ⟨"/../app//lib/../src/./main.js/"⟩ := by
  have named : Path.IsName "lib" := by decide
  have absolute : Relation.EqvGen (Path.Respelled ⟨["app"]⟩) ⟨"src/main.js"⟩ ⟨"/app/src/main.js"⟩ :=
    .rel _ _ (.fromDirectory ⟨"src/main.js"⟩)
  have slashes : Relation.EqvGen (Path.Respelled ⟨["app"]⟩) ⟨"/app/src/main.js"⟩
      ⟨"/app//src/main.js"⟩ :=
    .rel _ _ (.between .slash "/app" "src/main.js")
  have detour : Relation.EqvGen (Path.Respelled ⟨["app"]⟩) ⟨"/app//src/main.js"⟩
      ⟨"/app//lib/../src/main.js"⟩ :=
    .rel _ _ (.between (.back named) "/app/" "src/main.js")
  have stay : Relation.EqvGen (Path.Respelled ⟨["app"]⟩) ⟨"/app//lib/../src/main.js"⟩
      ⟨"/app//lib/../src/./main.js"⟩ :=
    .rel _ _ (.between .stay "/app//lib/../src" "main.js")
  have trailing : Relation.EqvGen (Path.Respelled ⟨["app"]⟩) ⟨"/app//lib/../src/./main.js"⟩
      ⟨"/app//lib/../src/./main.js/"⟩ :=
    .rel _ _ (.atEnd .slash (by decide))
  have above : Relation.EqvGen (Path.Respelled ⟨["app"]⟩) ⟨"/app//lib/../src/./main.js/"⟩
      ⟨"/../app//lib/../src/./main.js/"⟩ :=
    .rel _ _ (.aboveRoot "app//lib/../src/./main.js/")
  exact absolute.trans _ _ _ (slashes.trans _ _ _ (detour.trans _ _ _
    (stay.trans _ _ _ (trailing.trans _ _ _ above))))

end Sample

/-- A path from the working directory, and the same path behind that directory with a step above the root,
slashes, a detour and dots, name the same file to every session. -/
theorem sample_spellings_name_one_location :
    Sample.workplace.workingDirectory = some ⟨["app"]⟩ ∧ Location.IsProper ⟨["app"]⟩ ∧
      ∃ location, Sample.workplace.locate? ⟨"src/main.js"⟩ = some location ∧
        location = ⟨["app", "src", "main.js"]⟩ ∧
        Sample.workplace.locate? location.path = some location ∧
        Sample.workplace.locate? ⟨"/../app//lib/../src/./main.js/"⟩ = some location ∧
        Interchangeable Sample.workplace ⟨"src/main.js"⟩ ⟨"/../app//lib/../src/./main.js/"⟩ := by
  have working : Sample.workplace.workingDirectory = some ⟨["app"]⟩ := rfl
  have proper : Location.IsProper ⟨["app"]⟩ := by decide
  obtain ⟨location, located, -, again, spellings⟩ :=
    spellings_name_one_location working proper ⟨"src/main.js"⟩
  obtain ⟨otherLocated, same⟩ := spellings _ Sample.spellings_of_main
  have names : location = ⟨["app", "src", "main.js"]⟩ := by
    apply Option.some.inj
    rw [← located]
    decide
  exact ⟨working, proper, location, located, names, again, otherLocated, same⟩

end Imprint

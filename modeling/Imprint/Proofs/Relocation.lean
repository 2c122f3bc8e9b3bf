/-
Module: Imprint.Proofs.Relocation
Purpose: Lookups in a project that is kept under two root directories. Manifest files are searched for
  from a file upwards, so as long as there are none above the roots both searches end at the same
  place of the project; what is loaded there is the same, and so is everything that is made of it. All
  that tells the two apart is the root at the front of a path.
Main exports: Roots, Roots.Moved, Roots.SameFiles, Roots.SameMemo, Roots.SameConstants,
  Roots.Parallel, Roots.find?_moved, Roots.parallel_ofTree
-/
import Imprint.Proofs.PackageLookups
import Imprint.Proofs.Precedence
import Mathlib.Data.List.Forall2

namespace Imprint

/-- Two directories that a project is kept in. -/
structure Roots where
  first : Location
  second : Location
  isProper_first : first.IsProper
  isProper_second : second.IsProper

namespace Roots

variable (roots : Roots)

/-! ### The same things under two roots -/

/-- The paths to one place of the project. -/
def Moved (path other : Path) : Prop :=
  ∃ names, (∀ name ∈ names, Path.IsName name) ∧
    path = Location.path ⟨roots.first.names ++ names⟩ ∧
    other = Location.path ⟨roots.second.names ++ names⟩

/-- The files in the project are the same: every path to a place of the project leads to a file of the
same content under both roots, or to none under either. -/
def SameFiles (host other : Host) : Prop :=
  ∀ path copy, roots.Moved path copy →
    host.files.file? host.workingDirectory path = other.files.file? other.workingDirectory copy

/-- The same manifests are remembered for the same places of the project. -/
def SameMemo (memo other : Memo) : Prop :=
  List.Forall₂ (fun entry copy => ∃ names, entry.1 = roots.first.names ++ names ∧
    copy.1 = roots.second.names ++ names ∧ entry.2 = copy.2) memo other

/-- The same constants, but for the root of the project directory. -/
structure SameConstants (constants other : Constants) : Prop where
  manifest : constants.manifest = other.manifest
  directory : Option.Rel roots.Moved constants.directory other.directory
  now : constants.now = other.now
  filename : constants.filename = other.filename
  dirname : constants.dirname = other.dirname

/-- Answers that correspond to each other: results that are related, or failures of the same kind at
the same place of the project. -/
inductive SameAnswer {α β : Type} (R : α → β → Prop) :
    Except LookupError α → Except LookupError β → Prop where
  | found {result : α} {copy : β} (related : R result copy) : SameAnswer R (.ok result) (.ok copy)
  | unreadable {path copy : Path} (moved : roots.Moved path copy) :
      SameAnswer R (.error (.unreadable path)) (.error (.unreadable copy))
  | malformed {path copy : Path} (moved : roots.Moved path copy) :
      SameAnswer R (.error (.malformed path)) (.error (.malformed copy))

/-- Lookups that go the same way under both roots: with the same memories they come to the same answer,
and remember the same manifests. -/
def Parallel {α β : Type} (R : α → β → Prop) (lookup : Memo → Lookup α)
    (copy : Memo → Lookup β) : Prop :=
  ∀ memo other, roots.SameMemo memo other →
    roots.SameAnswer R (lookup memo).1 (copy other).1 ∧
      roots.SameMemo (lookup memo).2 (copy other).2

variable {roots} {host other : Host} {path copy : Path} {memo : Memo}

/-! ### Paths and files -/

/-- A path and its copy take the same steps below their roots. -/
theorem Moved.steps_eq (moved : roots.Moved path copy) :
    ∃ names, path.steps = roots.first.names ++ names ∧
      copy.steps = roots.second.names ++ names := by
  obtain ⟨names, each, rfl, rfl⟩ := moved
  refine ⟨names, ?_, ?_⟩
  · exact Location.steps_path (Location.isProper_append roots.isProper_first each)
  · exact Location.steps_path (Location.isProper_append roots.isProper_second each)

/-- A file is there exactly when its copy is. -/
theorem SameFiles.isFile_eq (same : roots.SameFiles host other) (moved : roots.Moved path copy) :
    host.isFile path = other.isFile copy := by
  unfold Host.isFile FileSystem.isFile
  rw [same path copy moved]

/-- A file and its copy have the same text, or neither has one. -/
theorem SameFiles.readText?_eq (same : roots.SameFiles host other)
    (moved : roots.Moved path copy) : host.readText? path = other.readText? copy := by
  unfold Host.readText? FileSystem.readText?
  rw [same path copy moved]

/-! ### Remembered manifests -/

/-- Of a path is remembered what is remembered of its copy. -/
theorem SameMemo.find?_eq {later : Memo} (same : roots.SameMemo memo later)
    (moved : roots.Moved path copy) : memo.find? path = later.find? copy := by
  obtain ⟨names, steps, copySteps⟩ := moved.steps_eq
  unfold Memo.find?
  rw [steps, copySteps]
  induction same with
  | nil => rfl
  | @cons entry other memo later head _ ih =>
      obtain ⟨key, manifest⟩ := entry
      obtain ⟨otherKey, otherManifest⟩ := other
      obtain ⟨inner, rfl, rfl, rfl⟩ := head
      by_cases here : names = inner
      · simp [here]
      · have elsewhere (root : List RawText) : (root ++ names == root ++ inner) = false := by
          simpa using here
        rw [List.lookup_cons, List.lookup_cons, elsewhere, elsewhere]
        exact ih

/-- Memories stay the same when the same is remembered of a path and of its copy. -/
theorem SameMemo.remember {later : Memo} (same : roots.SameMemo memo later)
    (moved : roots.Moved path copy) (manifest : Manifest) :
    roots.SameMemo (memo.remember path manifest) (later.remember copy manifest) := by
  obtain ⟨names, steps, copySteps⟩ := moved.steps_eq
  apply List.rel_append same
  exact .cons ⟨names, steps, copySteps, rfl⟩ .nil

/-! ### Lookups that go the same way -/

namespace Parallel

variable {α β γ δ : Type} {R : α → β → Prop} {S : γ → δ → Prop}

/-- Lookups that answer at once run in parallel when their answers are the same. -/
theorem answer {result : Except LookupError α} {copy : Except LookupError β}
    (same : roots.SameAnswer R result copy) :
    roots.Parallel R (fun memo => (result, memo)) fun memo => (copy, memo) :=
  fun _ _ sameMemo => ⟨same, sameMemo⟩

/-- Loading goes the same way. -/
theorem load (files : roots.SameFiles host other) (moved : roots.Moved path copy) :
    roots.Parallel Eq (fun memo => Manifest.load host memo path)
      fun memo => Manifest.load other memo copy := by
  intro memo later same
  dsimp only
  unfold Manifest.load
  rw [← same.find?_eq moved, ← files.readText?_eq moved]
  cases memo.find? path with
  | some manifest => exact ⟨.found rfl, same⟩
  | none =>
      cases host.readText? path with
      | none => exact ⟨.unreadable moved, same⟩
      | some source =>
          dsimp only
          cases Manifest.content source with
          | nothing => exact ⟨.found rfl, same⟩
          | malformed => exact ⟨.malformed moved, same⟩
          | manifest manifest => exact ⟨.found rfl, same.remember moved manifest⟩

/-- Lookups that go on the same way go the same way as a whole. -/
theorem andThen {lookup : Memo → Lookup α} {otherLookup : Memo → Lookup β}
    {next : α → Memo → Lookup γ} {otherNext : β → Memo → Lookup δ}
    (first : roots.Parallel R lookup otherLookup)
    (rest : ∀ result copy, R result copy → roots.Parallel S (next result) (otherNext copy)) :
    roots.Parallel S (Lookup.andThen lookup next) (Lookup.andThen otherLookup otherNext) := by
  intro memo later same
  obtain ⟨answers, memories⟩ := first memo later same
  unfold Lookup.andThen
  rcases went : lookup memo with ⟨result, after⟩
  rcases otherWent : otherLookup later with ⟨otherResult, otherAfter⟩
  rw [went, otherWent] at answers memories
  cases answers with
  | found related => exact rest _ _ related after otherAfter memories
  | unreadable moved => exact ⟨.unreadable moved, memories⟩
  | malformed moved => exact ⟨.malformed moved, memories⟩

/-- Running in parallel is a matter of what lookups do. -/
theorem congr {lookup otherLookup : Memo → Lookup α} {copyLookup otherCopy : Memo → Lookup β}
    (parallel : roots.Parallel R lookup copyLookup) (eq : ∀ memo, otherLookup memo = lookup memo)
    (copyEq : ∀ memo, otherCopy memo = copyLookup memo) :
    roots.Parallel R otherLookup otherCopy := by
  rw [funext eq, funext copyEq]
  exact parallel

end Parallel

/-! ### Searching upwards -/

/-- The directories of the project that a place in it lies in, as seen from the root. -/
def inside (names : List RawText) : List (List RawText) :=
  if names = [] then [] else Location.beginnings names.dropLast

theorem prefix_of_mem_inside {names front : List RawText} (mem : front ∈ inside names) :
    names ≠ [] ∧ front <+: names.dropLast := by
  unfold inside at mem
  split at mem
  · cases mem
  · rename_i filled
    exact ⟨filled, Location.mem_beginnings.mp mem⟩

/-- The directories above a file of the project: those of the project, and those above the root. -/
theorem directories_append {root names : List RawText} (filled : root ++ names ≠ []) :
    Manifest.directories ⟨root ++ names⟩ =
      (inside names).map (fun front => ⟨root ++ front⟩) ++
        (Location.beginnings root).tail.map Location.mk := by
  have parent : (⟨root ++ names⟩ : Location).parent? = some ⟨(root ++ names).dropLast⟩ := by
    simp [Location.parent?, filled]
  rw [Manifest.directories, parent, Option.getD_some, Location.ancestors, inside]
  split
  · rename_i empty
    subst empty
    rw [List.append_nil] at filled ⊢
    rw [Location.tail_beginnings filled]
    rfl
  · rename_i filledBelow
    rw [List.dropLast_append_of_ne_nil filledBelow, Location.beginnings_append, List.map_append,
      List.map_map]
    rfl

/-- The beginnings that do not reach the end are those of the directories above. -/
theorem mem_tail_beginnings {root front : List RawText} :
    front ∈ (Location.beginnings root).tail ↔ front <+: root ∧ front ≠ root := by
  constructor
  · intro mem
    by_cases filled : root = []
    · rw [filled] at mem
      cases mem
    · rw [Location.tail_beginnings filled] at mem
      have starts := Location.mem_beginnings.mp mem
      refine ⟨starts.trans (List.dropLast_prefix root), ?_⟩
      rintro rfl
      have shorter := starts.length_le
      have longer := List.length_pos_iff.mpr filled
      rw [List.length_dropLast] at shorter
      omega
  · rintro ⟨starts, other⟩
    have mem := Location.mem_beginnings.mpr starts
    rw [Location.beginnings_eq_cons] at mem
    exact (List.mem_cons.mp mem).resolve_left other

/-- The first file with the given names in the directories above a location. -/
def search (host : Host) (tail : List RawText) (file : Location) : Option Path :=
  ((Manifest.directories file).map fun directory =>
    Location.path ⟨directory.names ++ tail⟩).find? host.isFile

/-- There is no file with the given names in the directories above a root. -/
def Clear (host : Host) (tail : List RawText) (root : Location) : Prop :=
  ∀ directory : Location, directory.names <+: root.names → directory ≠ root →
    host.isFile (Location.path ⟨directory.names ++ tail⟩) = false

instance (host : Host) (tail : List RawText) (root : Location) : Decidable (Clear host tail root) :=
  decidable_of_iff (∀ front ∈ (Location.beginnings root.names).tail,
      host.isFile (Location.path ⟨front ++ tail⟩) = false) <| by
    constructor
    · intro clear directory starts other
      apply clear directory.names
      exact mem_tail_beginnings.mpr ⟨starts, fun eq => other (congrArg Location.mk eq)⟩
    · intro clear front mem
      obtain ⟨starts, other⟩ := mem_tail_beginnings.mp mem
      exact clear ⟨front⟩ starts fun eq => other (congrArg Location.names eq)

/-- A search upwards from a file of the project ends inside the project when there is nothing to be
found above the root. -/
theorem search_eq {root : Location} {names tail : List RawText} (filled : root.names ++ names ≠ [])
    (clear : Clear host tail root) :
    search host tail ⟨root.names ++ names⟩ =
      ((inside names).find? fun front =>
          host.isFile (Location.path ⟨root.names ++ (front ++ tail)⟩)).map
        fun front => Location.path ⟨root.names ++ (front ++ tail)⟩ := by
  have above : (((Location.beginnings root.names).tail.map Location.mk).map fun directory =>
      Location.path ⟨directory.names ++ tail⟩).find? host.isFile = none := by
    rw [List.map_map, List.find?_eq_none]
    intro path mem
    obtain ⟨front, among, rfl⟩ := List.mem_map.mp mem
    obtain ⟨starts, other⟩ := mem_tail_beginnings.mp among
    simp [clear ⟨front⟩ starts fun eq => other (congrArg Location.names eq)]
  rw [search, directories_append filled, List.map_append, List.find?_append, above, Option.or_none,
    List.map_map, List.find?_map]
  simp [Function.comp_def]

/-- A file of the project is not the root of all files. -/
theorem below_of_filled {names : List RawText}
    (filled : names ≠ [] ∨ roots.first.names ≠ [] ∧ roots.second.names ≠ []) :
    roots.first.names ++ names ≠ [] ∧ roots.second.names ++ names ≠ [] := by
  rcases filled with below | ⟨first, second⟩
  · exact ⟨List.append_ne_nil_of_right_ne_nil _ below, List.append_ne_nil_of_right_ne_nil _ below⟩
  · exact ⟨List.append_ne_nil_of_left_ne_nil first _, List.append_ne_nil_of_left_ne_nil second _⟩

/-- Searches upwards from one place of the project find nothing under either root, or they find the same
file of the project. -/
theorem search_moved (files : roots.SameFiles host other) {names tail : List RawText}
    (each : ∀ name ∈ names, Path.IsName name) (last : ∀ name ∈ tail, Path.IsName name)
    (filled : names ≠ [] ∨ roots.first.names ≠ [] ∧ roots.second.names ≠ [])
    (clear : Clear host tail roots.first) (otherClear : Clear other tail roots.second) :
    (search host tail ⟨roots.first.names ++ names⟩ = none ∧
        search other tail ⟨roots.second.names ++ names⟩ = none) ∨
      ∃ front ∈ inside names, (∀ name ∈ front ++ tail, Path.IsName name) ∧
        search host tail ⟨roots.first.names ++ names⟩ =
          some (Location.path ⟨roots.first.names ++ (front ++ tail)⟩) ∧
        search other tail ⟨roots.second.names ++ names⟩ =
          some (Location.path ⟨roots.second.names ++ (front ++ tail)⟩) := by
  have proper : ∀ front ∈ inside names, ∀ name ∈ front ++ tail, Path.IsName name := by
    intro front mem name among
    rcases List.mem_append.mp among with inFront | inTail
    · have starts := (prefix_of_mem_inside mem).2.trans (List.dropLast_prefix names)
      exact each name (starts.subset inFront)
    · exact last name inTail
  have same : ((inside names).find? fun front =>
      host.isFile (Location.path ⟨roots.first.names ++ (front ++ tail)⟩)) =
        (inside names).find? fun front =>
          other.isFile (Location.path ⟨roots.second.names ++ (front ++ tail)⟩) := by
    rw [← List.head?_filter, ← List.head?_filter]
    apply congrArg List.head?
    apply List.filter_congr
    intro front mem
    exact files.isFile_eq ⟨front ++ tail, proper front mem, rfl, rfl⟩
  have below := below_of_filled filled
  rw [search_eq below.1 clear, search_eq below.2 otherClear, ← same]
  cases found : (inside names).find? fun front =>
      host.isFile (Location.path ⟨roots.first.names ++ (front ++ tail)⟩) with
  | none => exact .inl ⟨rfl, rfl⟩
  | some front =>
      have mem := List.mem_of_find?_eq_some found
      exact .inr ⟨front, mem, proper front mem, rfl, rfl⟩

/-! ### Files of the project -/

variable (roots) in
/-- Two paths to one file of the project, each under its root. They are absolute, and spelled in any way;
the roots themselves count as files of the project unless they are the root of all files. -/
def SameFile (file other : Path) : Prop :=
  file.isAbsolute ∧ other.isAbsolute ∧
    ∃ names, Location.root.resolve file = ⟨roots.first.names ++ names⟩ ∧
      Location.root.resolve other = ⟨roots.second.names ++ names⟩ ∧
      (names ≠ [] ∨ roots.first.names ≠ [] ∧ roots.second.names ≠ [])

/-- A relative path without `..` leads to one file of the project from both roots. -/
theorem sameFile_below {relative : RawText} (down : (".." : RawText) ∉ Path.parts ⟨relative⟩)
    (filled : Path.steps ⟨relative⟩ ≠ [] ∨ roots.first.names ≠ [] ∧ roots.second.names ≠ []) :
    roots.SameFile ⟨roots.first.path.raw ++ "/" ++ relative⟩
      ⟨roots.second.path.raw ++ "/" ++ relative⟩ := by
  have absolute (root : Location) : Path.isAbsolute ⟨root.path.raw ++ "/" ++ relative⟩ := by
    rw [Path.isAbsolute_iff]
    simp [Location.path]
  have below : ∀ step ∈ Path.steps ⟨relative⟩, step ≠ ".." := by
    rintro step mem rfl
    exact down (List.mem_of_mem_filter mem)
  have resolved (root : Location) (proper : root.IsProper) :
      Location.root.resolve ⟨root.path.raw ++ "/" ++ relative⟩ =
        ⟨root.names ++ Path.steps ⟨relative⟩⟩ := by
    have steps : Path.steps ⟨root.path.raw ++ "/" ++ relative⟩ =
        root.names ++ Path.steps ⟨relative⟩ := by
      rw [Path.steps_append]
      exact congrArg (· ++ _) (Location.steps_path proper)
    rw [Location.resolve, if_pos (absolute root), steps, Location.foldl_step]
    · rfl
    · intro step mem
      rcases List.mem_append.mp mem with inRoot | inPath
      · exact (proper step inRoot).down
      · exact below step inPath
  exact ⟨absolute _, absolute _, Path.steps ⟨relative⟩, resolved _ roots.isProper_first,
    resolved _ roots.isProper_second, filled⟩

/-! ### The lookups of a project -/

/-- Above a root there is no manifest file, and none of the given packages is installed there. -/
structure NothingAbove (host : Host) (manifestFile : String) (packages : List String)
    (root : Location) : Prop where
  manifest : Clear host [manifestFile] root
  installed : ∀ package ∈ packages, ∀ segments, SpellsPackage package segments →
    Clear host (Manifest.inModules manifestFile segments) root

variable (roots) in
/-- Hosts that have the same project under two roots, and nothing that interferes above them. -/
structure SameProject (manifestFile : String) (packages : List String) (host other : Host) :
    Prop where
  files : roots.SameFiles host other
  aboveFirst : NothingAbove host manifestFile packages roots.first
  aboveSecond : NothingAbove other manifestFile packages roots.second

section Lookups

variable {manifestFile name : String} {packages : List String} {file : Location}

/-- The nearest manifest is found by searching the directories around a file for it. -/
theorem nearest?_eq_search (plain : Path.IsName manifestFile) (proper : file.IsProper)
    (below : file.names ≠ []) :
    Manifest.nearest? host manifestFile file = search host [manifestFile] file := by
  have parent : file.parent? = some ⟨file.names.dropLast⟩ := by
    simp [Location.parent?, below]
  rw [Manifest.nearest?, Manifest.pathsAbove_eq parent proper plain]
  rfl

/-- So is a dependency, below the modules of every directory. -/
theorem dependency?_eq_search (plain : Path.IsName manifestFile) {segments : List String}
    (spells : SpellsPackage name segments) (proper : file.IsProper) :
    Manifest.dependency? host manifestFile name file =
      search host (Manifest.inModules manifestFile segments) file := by
  rw [Manifest.dependency?, Manifest.dependencyPaths_eq spells proper plain]
  rfl

/-- Where two paths to one file of the project lead to. -/
theorem SameFile.located {file copy : Path} (same : roots.SameFile file copy) :
    ∃ names, (∀ name ∈ names, Path.IsName name) ∧
      (names ≠ [] ∨ roots.first.names ≠ [] ∧ roots.second.names ≠ []) ∧
      (∀ host : Host, host.locate? file = some ⟨roots.first.names ++ names⟩) ∧
      ∀ host : Host, host.locate? copy = some ⟨roots.second.names ++ names⟩ := by
  obtain ⟨absolute, otherAbsolute, names, resolved, otherResolved, filled⟩ := same
  refine ⟨names, ?_, filled, ?_, ?_⟩
  · intro name mem
    have proper := Location.isProper_resolve Location.isProper_root file
    rw [resolved] at proper
    exact proper name (List.mem_append_right _ mem)
  · intro host
    rw [Host.locate?, if_pos absolute, resolved]
  · intro host
    rw [Host.locate?, if_pos otherAbsolute, otherResolved]

section Located

variable {names : List RawText} (project : roots.SameProject manifestFile packages host other)
  (plain : Path.IsName manifestFile) (each : ∀ name ∈ names, Path.IsName name)
  (filled : names ≠ [] ∨ roots.first.names ≠ [] ∧ roots.second.names ≠ [])

include project plain each filled

/-- The nearest manifest file of one place of the project is the same under both roots. -/
theorem nearest?_moved :
    (Manifest.nearest? host manifestFile ⟨roots.first.names ++ names⟩ = none ∧
        Manifest.nearest? other manifestFile ⟨roots.second.names ++ names⟩ = none) ∨
      ∃ front ∈ inside names, (∀ name ∈ front ++ [(manifestFile : RawText)], Path.IsName name) ∧
        Manifest.nearest? host manifestFile ⟨roots.first.names ++ names⟩ =
          some (Location.path ⟨roots.first.names ++ (front ++ [(manifestFile : RawText)])⟩) ∧
        Manifest.nearest? other manifestFile ⟨roots.second.names ++ names⟩ =
          some (Location.path ⟨roots.second.names ++ (front ++ [(manifestFile : RawText)])⟩) := by
  have below := below_of_filled filled
  rw [nearest?_eq_search plain (Location.isProper_append roots.isProper_first each) below.1,
    nearest?_eq_search plain (Location.isProper_append roots.isProper_second each) below.2]
  exact search_moved project.files each (by simpa using plain) filled
    project.aboveFirst.manifest project.aboveSecond.manifest

/-- The nearest directory in which a package is installed is the same under both roots. -/
theorem dependency?_moved (asked : name ∈ packages) {segments : List String}
    (spells : SpellsPackage name segments) :
    (Manifest.dependency? host manifestFile name ⟨roots.first.names ++ names⟩ = none ∧
        Manifest.dependency? other manifestFile name ⟨roots.second.names ++ names⟩ = none) ∨
      ∃ path copy, roots.Moved path copy ∧
        Manifest.dependency? host manifestFile name ⟨roots.first.names ++ names⟩ = some path ∧
        Manifest.dependency? other manifestFile name ⟨roots.second.names ++ names⟩ = some copy := by
  rw [dependency?_eq_search plain spells (Location.isProper_append roots.isProper_first each),
    dependency?_eq_search plain spells (Location.isProper_append roots.isProper_second each)]
  rcases search_moved project.files each (Manifest.isName_inModules spells plain) filled
      (project.aboveFirst.installed name asked segments spells)
      (project.aboveSecond.installed name asked segments spells) with
    missing | ⟨front, -, proper, found, otherFound⟩
  · exact .inl missing
  · exact .inr ⟨_, _, ⟨_, proper, rfl, rfl⟩, found, otherFound⟩

/-- The manifest of a package goes the same way. -/
theorem parallel_ofPackageFrom (asked : name ∈ packages) {segments : List String}
    (spells : SpellsPackage name segments) :
    roots.Parallel Eq
      (fun memo => Manifest.ofPackageFrom host manifestFile memo name ⟨roots.first.names ++ names⟩)
      fun memo =>
        Manifest.ofPackageFrom other manifestFile memo name ⟨roots.second.names ++ names⟩ := by
  rcases dependency?_moved project plain each filled asked spells with
    ⟨missing, otherMissing⟩ | ⟨path, copy, moved, found, otherFound⟩
  · rcases nearest?_moved project plain each filled with
      ⟨outside, otherOutside⟩ | ⟨front, -, proper, found, otherFound⟩
    · have nothing : roots.SameAnswer Eq (.ok (none : Option Manifest)) (.ok none) := .found rfl
      apply (Parallel.answer nothing).congr
      · intro memo
        simp [Manifest.ofPackageFrom, missing, outside]
      · intro memo
        simp [Manifest.ofPackageFrom, otherMissing, otherOutside]
    · have moved : roots.Moved _ _ := ⟨front ++ [(manifestFile : RawText)], proper, rfl, rfl⟩
      apply ((Parallel.load project.files moved).andThen _).congr
      · intro memo
        exact Manifest.ofPackageFrom_eq missing found
      · intro memo
        exact Manifest.ofPackageFrom_eq otherMissing otherFound
      · rintro manifest? _ rfl
        exact .answer (.found rfl)
  · apply (Parallel.load project.files moved).congr
    · intro memo
      simp [Manifest.ofPackageFrom, found]
    · intro memo
      simp [Manifest.ofPackageFrom, otherFound]

end Located

/-- A package is looked up in parallel from a file and from its copy. -/
theorem parallel_ofPackage (project : roots.SameProject manifestFile packages host other)
    (plain : Path.IsName manifestFile) {file copy : Path} (same : roots.SameFile file copy)
    (asked : name ∈ packages) :
    roots.Parallel Eq (fun memo => Manifest.ofPackage host manifestFile memo name file)
      fun memo => Manifest.ofPackage other manifestFile memo name copy := by
  obtain ⟨names, each, filled, located, otherLocated⟩ := same.located
  unfold Manifest.ofPackage
  split
  · rename_i accepted
    obtain ⟨segments, spells⟩ := Manifest.isPackageName_iff.mp accepted
    rw [located, otherLocated]
    exact parallel_ofPackageFrom project plain each filled asked spells
  · exact .answer (.found rfl)

/-- So are the versions of packages. -/
theorem parallel_versionsOf (project : roots.SameProject manifestFile packages host other)
    (plain : Path.IsName manifestFile) {file copy : Path} (same : roots.SameFile file copy)
    {wanted : List String} (asked : ∀ name ∈ wanted, name ∈ packages) :
    roots.Parallel Eq (fun memo => Manifest.versionsOf host manifestFile file memo wanted)
      fun memo => Manifest.versionsOf other manifestFile copy memo wanted := by
  induction wanted with
  | nil => exact .answer (.found rfl)
  | cons name rest ih =>
      have first := parallel_ofPackage project plain same (asked name List.mem_cons_self)
      have others := ih fun other mem => asked other (List.mem_cons_of_mem name mem)
      apply (first.andThen _).congr
      · intro memo
        exact Manifest.versionsOf_cons
      · intro memo
        exact Manifest.versionsOf_cons
      · rintro manifest? _ rfl
        apply others.andThen
        rintro versions _ rfl
        exact .answer (.found rfl)

/-- What a manifest file means for a file below it does not depend on the root. -/
theorem sameConstants_inside (now : String) (manifest : Manifest) {names front : List RawText}
    (mem : front ∈ inside names)
    (proper : ∀ name ∈ front ++ [(manifestFile : RawText)], Path.IsName name) :
    roots.SameConstants
      (.inside now manifest (Location.path ⟨roots.first.names ++ (front ++ [(manifestFile : RawText)])⟩)
        ⟨roots.first.names ++ names⟩)
      (.inside now manifest (Location.path ⟨roots.second.names ++ (front ++ [(manifestFile : RawText)])⟩)
        ⟨roots.second.names ++ names⟩) := by
  obtain ⟨filled, starts⟩ := prefix_of_mem_inside mem
  have inFront : ∀ name ∈ front, Path.IsName name :=
    fun name inside => proper name (List.mem_append_left _ inside)
  have directory {root : Location} (isProper : root.IsProper) :
      (Location.path ⟨root.names ++ (front ++ [(manifestFile : RawText)])⟩).parent =
        Location.path ⟨root.names ++ front⟩ := by
    have whole := Location.isProper_append isProper proper
    rw [← List.append_assoc] at whole ⊢
    exact Location.parent_path whole
  have parent (root : Location) : (⟨root.names ++ names⟩ : Location).parent? =
      some ⟨root.names ++ names.dropLast⟩ := by
    rw [Location.parent?, if_neg (by simp [filled]), List.dropLast_append_of_ne_nil filled]
  have above := starts.trans (List.dropLast_prefix names)
  have first := roots.isProper_first
  have second := roots.isProper_second
  refine ⟨rfl, ?_, rfl, ?_, ?_⟩
  · show Option.Rel roots.Moved (some _) (some _)
    rw [directory first, directory second]
    exact .some ⟨front, inFront, rfl, rfl⟩
  · simp only [Constants.inside, directory first, directory second]
    rw [Location.relativeText_append (Location.isProper_append first inFront) above,
      Location.relativeText_append (Location.isProper_append second inFront) above]
  · simp only [Constants.inside, directory first, directory second, parent, Option.map_some]
    rw [Location.relativeText_append (Location.isProper_append first inFront) starts,
      Location.relativeText_append (Location.isProper_append second inFront) starts]

theorem sameConstants_outside (now : String) :
    roots.SameConstants (.outside now) (.outside now) :=
  ⟨rfl, .none, rfl, rfl, rfl⟩

/-- The constants of a location are found in parallel below both roots. -/
theorem parallel_ofLocation (project : roots.SameProject manifestFile packages host other)
    (plain : Path.IsName manifestFile) (now : String) {names : List RawText}
    (each : ∀ name ∈ names, Path.IsName name)
    (filled : names ≠ [] ∨ roots.first.names ≠ [] ∧ roots.second.names ≠ []) :
    roots.Parallel roots.SameConstants
      (fun memo => Constants.ofLocation host manifestFile now memo ⟨roots.first.names ++ names⟩)
      fun memo => Constants.ofLocation other manifestFile now memo ⟨roots.second.names ++ names⟩ := by
  have outside : roots.SameAnswer roots.SameConstants (.ok (.outside now)) (.ok (.outside now)) :=
    .found (sameConstants_outside now)
  rcases nearest?_moved project plain each filled with
    ⟨missing, otherMissing⟩ | ⟨front, mem, proper, found, otherFound⟩
  · apply (Parallel.answer outside).congr
    · intro memo
      simp [Constants.ofLocation, missing]
    · intro memo
      simp [Constants.ofLocation, otherMissing]
  · have moved : roots.Moved _ _ := ⟨front ++ [(manifestFile : RawText)], proper, rfl, rfl⟩
    have steps {root : Location} (isProper : root.IsProper) :
        (Location.path ⟨root.names ++ (front ++ [(manifestFile : RawText)])⟩).steps = root.names ++ names ↔
          front ++ [(manifestFile : RawText)] = names := by
      rw [Location.steps_path (Location.isProper_append isProper proper), List.append_right_inj]
    have first := steps roots.isProper_first
    have second := steps roots.isProper_second
    by_cases own : front ++ [(manifestFile : RawText)] = names
    · apply (Parallel.answer outside).congr
      · intro memo
        simp [Constants.ofLocation, found, first.mpr own]
      · intro memo
        simp [Constants.ofLocation, otherFound, second.mpr own]
    · apply ((Parallel.load project.files moved).andThen _).congr
      · intro memo
        exact Constants.ofLocation_eq found fun eq => own (first.mp eq)
      · intro memo
        exact Constants.ofLocation_eq otherFound fun eq => own (second.mp eq)
      · rintro manifest? _ rfl
        cases manifest? with
        | none => exact .answer outside
        | some manifest => exact .answer (.found (sameConstants_inside now manifest mem proper))

/-- So are those of a file and its copy. -/
theorem parallel_ofFile (project : roots.SameProject manifestFile packages host other)
    (plain : Path.IsName manifestFile) (now : String) {file copy : Path}
    (same : roots.SameFile file copy) :
    roots.Parallel roots.SameConstants
      (fun memo => Constants.ofFile host manifestFile now memo file)
      fun memo => Constants.ofFile other manifestFile now memo copy := by
  obtain ⟨names, each, filled, located, otherLocated⟩ := same.located
  unfold Constants.ofFile
  rw [located, otherLocated]
  exact parallel_ofLocation project plain now each filled

end Lookups

/-! ### Trees -/

section Trees

variable {settings : Settings} {constants otherConstants : Constants} {root : Node}

/-- Two readings of the clock make no difference to a tree: they are the same, the time of the run is
switched off, or the tree does not mention it. -/
def SameTime (settings : Settings) (clock other : Int) (root : Node) : Prop :=
  clock = other ∨ settings.isEnabled .timestamp = false ∨
    ∀ node ∈ root.nodes, node.identifier? ≠ some BuiltIn.timestamp.identifier

/-- The built-ins have the same literals for corresponding constants, the hash of the file included: none
of them depends on the directory of the project. -/
theorem SameConstants.literal?_eq (same : roots.SameConstants constants otherConstants) (clock : Int)
    (builtIn : BuiltIn) : constants.literal? clock builtIn = otherConstants.literal? clock builtIn := by
  unfold Constants.literal? Constants.isOutside
  rw [same.manifest, same.now, same.filename, same.dirname]

/-- Constants that are the same but for where the project is give built-ins the same literals. -/
theorem builtIn?_eq (same : roots.SameConstants constants otherConstants) (clock : Int) :
    Rules.builtIn? settings constants clock = Rules.builtIn? settings otherConstants clock := by
  funext builtIn
  rw [Rules.builtIn?, Rules.builtIn?, same.literal?_eq clock builtIn]

/-- They make the same rules. -/
theorem ofSettings_eq (same : roots.SameConstants constants otherConstants) (clock : Int)
    (versions : List (String × Option String)) :
    Rules.ofSettings settings constants clock versions =
      Rules.ofSettings settings otherConstants clock versions := by
  have names : Rules.lookup settings constants clock =
      Rules.lookup settings otherConstants clock := by
    funext name
    rw [Rules.lookup, Rules.lookup, builtIn?_eq same clock]
  rw [Rules.ofSettings, Rules.ofSettings, builtIn?_eq same clock, names]

/-- The clock has a say in nothing but the literal for the time of the run. -/
theorem builtIn?_of_ne_timestamp {builtIn : BuiltIn} (clock other : Int)
    (timeless : builtIn ≠ .timestamp ∨ settings.isEnabled .timestamp = false) :
    Rules.builtIn? settings constants clock builtIn =
      Rules.builtIn? settings constants other builtIn := by
  unfold Rules.builtIn?
  cases builtIn with
  | timestamp =>
      have off : ¬settings.isEnabled .timestamp := by
        simp [timeless.resolve_left fun unlike => unlike rfl]
      rw [if_neg off, if_neg off]
  | _ => rfl

/-- No literal but that of a timestamp depends on the clock. -/
theorem lookup_of_ne_timestamp {name : String} (clock other : Int)
    (timeless : name ≠ BuiltIn.timestamp.identifier ∨ settings.isEnabled .timestamp = false) :
    Rules.lookup settings constants clock name = Rules.lookup settings constants other name := by
  unfold Rules.lookup
  split
  · rfl
  · cases spelled : BuiltIn.ofIdentifier? name with
    | none => rw [Option.bind_none, Option.bind_none]
    | some builtIn =>
        apply builtIn?_of_ne_timestamp
        apply timeless.imp_left
        rintro unlike rfl
        have same : BuiltIn.timestamp.identifier = name := by simpa using List.find?_some spelled
        exact unlike same.symm

/-- Rules that differ in nothing but the literal for one name, without a dot in it, go the same way over
a tree that does not mention the name. -/
theorem visit_of_unmentioned {rules other : Rules} {spared : String}
    (names : ∀ name, name ≠ spared → other.literal? name = rules.literal? name)
    (bareCall : other.bareCall? = rules.bareCall?) (version : other.version = rules.version)
    (noDot : '.' ∉ spared.toList)
    (unmentioned : ∀ node ∈ root.nodes, node.identifier? ≠ some spared) (position : Position) :
    other.visit position root = rules.visit position root := by
  apply Rules.visit_eq_of_agree bareCall fun package _ => congrFun version package
  intro node reaches name named
  apply names
  rintro rfl
  obtain ⟨span, kind⟩ := node
  cases kind with
  | identifier spelled => exact unmentioned _ reaches.mem_nodes named
  | member owner part computed =>
      obtain ⟨tail, -, rfl⟩ := Option.map_eq_some_iff.mp named
      apply noDot
      apply Node.dot_mem_chainName
      rw [Rules.isMember_rebuilt]
      rfl
  | _ => cases named

/-- The same tree is made of a tree by corresponding constants. -/
theorem ofRules_eq (same : roots.SameConstants constants otherConstants) {clock otherClock : Int}
    (time : SameTime settings clock otherClock root) (versions : List (String × Option String)) :
    Imprinted.ofRules (.ofSettings settings constants clock versions) root =
      Imprinted.ofRules (.ofSettings settings otherConstants otherClock versions) root := by
  rw [← ofSettings_eq same otherClock versions]
  rcases time with rfl | off | unmentioned
  · rfl
  · have names : Rules.lookup settings constants clock = Rules.lookup settings constants otherClock :=
      funext fun name => lookup_of_ne_timestamp clock otherClock (.inr off)
    have bareCall : Rules.builtIn? settings constants clock .packageVersion =
        Rules.builtIn? settings constants otherClock .packageVersion :=
      builtIn?_of_ne_timestamp clock otherClock (.inr off)
    rw [Rules.ofSettings, Rules.ofSettings, names, bareCall]
  · have names (name : String) (unlike : name ≠ BuiltIn.timestamp.identifier) :
        (Rules.ofSettings settings constants clock versions).literal? name =
          (Rules.ofSettings settings constants otherClock versions).literal? name :=
      lookup_of_ne_timestamp clock otherClock (.inl unlike)
    have bareCall : (Rules.ofSettings settings constants clock versions).bareCall? =
        (Rules.ofSettings settings constants otherClock versions).bareCall? :=
      builtIn?_of_ne_timestamp clock otherClock (.inl (by decide))
    have sameWalk := visit_of_unmentioned names bareCall rfl
      BuiltIn.timestamp.dot_not_mem_identifier unmentioned .read
    rw [Imprinted.ofRules, Imprinted.ofRules, sameWalk]

/-- A tree is imprinted in the same way under both roots. -/
theorem parallel_ofTree
    (project : roots.SameProject settings.manifestFile (Rules.packagesOf root) host other)
    (plain : Path.IsName settings.manifestFile) {file copy : Path}
    (sameFile : roots.SameFile file copy) (same : roots.SameConstants constants otherConstants)
    (time : SameTime settings host.clock other.clock root) :
    roots.Parallel Eq (fun memo => Imprinted.ofTree host settings memo constants file root)
      fun memo => Imprinted.ofTree other settings memo otherConstants copy root := by
  have versions := parallel_versionsOf project plain sameFile fun name mem => mem
  apply (versions.andThen _).congr
  · intro memo
    exact Imprinted.ofTree_eq
  · intro memo
    exact Imprinted.ofTree_eq
  · rintro found _ rfl
    rw [ofRules_eq same time found]
    exact .answer (.found rfl)

end Trees

end Roots

end Imprint

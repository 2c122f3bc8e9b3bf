/-
Module: Imprint.Proofs.PackageLookups
Purpose: Which files the lookup of a package looks at. A lookup asks one question about a file after the
  other and goes on with the answers. For the name of a package all these questions are about manifest
  files in the directories above a file and in the package directories of their `node_modules`; for
  every other text there is no question at all. Other files therefore have no say in the answer.
Main exports: Inquiry, Inquiry.consulted, Inquiry.answer_congr, SpellsPackage,
  Manifest.isPackageName_iff, Manifest.inquiry, LooksInside, package_lookups_stay_inside
-/
import Imprint.Proofs.ChangingFiles
import Imprint.Proofs.LocationPaths

namespace Imprint

/-- A location that a path names on a host is made of names, if the working directory is. -/
theorem Host.isProper_of_locate? {host : Host} {file : Path} {location : Location}
    (proper : ∀ base, host.workingDirectory = some base → base.IsProper)
    (located : host.locate? file = some location) : location.IsProper := by
  unfold locate? at located
  split at located
  · rw [← Option.some.inj located]
    exact Location.isProper_resolve Location.isProper_root file
  · obtain ⟨base, working, rfl⟩ := Option.map_eq_some_iff.mp located
    exact Location.isProper_resolve (proper base working) file

/-! ### Inquiries -/

/-- Questions about files, one after the other: whether a path leads to a file, and which text the file
has. Every question can depend on the answers to those before it. -/
inductive Inquiry (α : Type) where
  | finish (result : α)
  | isFile (path : Path) (next : Bool → Inquiry α)
  | readText (path : Path) (next : Option String → Inquiry α)

/-- Two hosts give the same answers to all questions about a path. -/
def Host.Alike (host other : Host) (path : Path) : Prop :=
  host.isFile path = other.isFile path ∧ host.readText? path = other.readText? path

namespace Inquiry

variable {α β : Type} {host other : Host}

/-- What comes of an inquiry on a host. -/
def answer (host : Host) : Inquiry α → α
  | .finish result => result
  | .isFile path next => answer host (next (host.isFile path))
  | .readText path next => answer host (next (host.readText? path))

/-- The paths that an inquiry asks about on a host. -/
def consulted (host : Host) : Inquiry α → List Path
  | .finish _ => []
  | .isFile path next => path :: consulted host (next (host.isFile path))
  | .readText path next => path :: consulted host (next (host.readText? path))

/-- An inquiry that goes on with what came of another one. -/
def andThen : Inquiry α → (α → Inquiry β) → Inquiry β
  | .finish result, after => after result
  | .isFile path next, after => .isFile path fun found => (next found).andThen after
  | .readText path next, after => .readText path fun text => (next text).andThen after

/-- One inquiry after the other answers what the second makes of the first. -/
theorem answer_andThen (first : Inquiry α) (next : α → Inquiry β) :
    (first.andThen next).answer host = (next (first.answer host)).answer host := by
  induction first with
  | finish result => rfl
  | isFile path rest ih => exact ih (host.isFile path)
  | readText path rest ih => exact ih (host.readText? path)

/-- One inquiry after the other looks at what the first looks at, and then at what the second does. -/
theorem consulted_andThen (first : Inquiry α) (next : α → Inquiry β) :
    (first.andThen next).consulted host =
      first.consulted host ++ (next (first.answer host)).consulted host := by
  induction first with
  | finish result => rfl
  | isFile path rest ih => exact congrArg (path :: ·) (ih (host.isFile path))
  | readText path rest ih => exact congrArg (path :: ·) (ih (host.readText? path))

/-- Hosts that are alike in everything that an inquiry asks about give the same answer. -/
theorem answer_congr {inquiry : Inquiry α}
    (alike : ∀ path ∈ inquiry.consulted host, host.Alike other path) :
    inquiry.answer host = inquiry.answer other := by
  induction inquiry with
  | finish result => rfl
  | isFile path next ih =>
      have same := (alike path List.mem_cons_self).1
      rw [answer, answer, ← same]
      exact ih _ fun later mem => alike later (List.mem_cons_of_mem path mem)
  | readText path next ih =>
      have same := (alike path List.mem_cons_self).2
      rw [answer, answer, ← same]
      exact ih _ fun later mem => alike later (List.mem_cons_of_mem path mem)

/-- The first path that leads to a file. -/
def firstFile : List Path → Inquiry (Option Path)
  | [] => .finish none
  | path :: rest => .isFile path fun found => if found then .finish (some path) else firstFile rest

/-- The inquiry for the first file among some paths finds it. -/
theorem answer_firstFile (paths : List Path) :
    (firstFile paths).answer host = paths.find? host.isFile := by
  induction paths with
  | nil => rfl
  | cons path rest ih =>
      rw [firstFile, answer, List.find?_cons]
      cases host.isFile path with
      | true => rfl
      | false => exact ih

/-- It looks at no other paths. -/
theorem mem_of_mem_consulted_firstFile {path : Path} {paths : List Path}
    (mem : path ∈ (firstFile paths).consulted host) : path ∈ paths := by
  induction paths with
  | nil => cases mem
  | cons first rest ih =>
      rw [firstFile, consulted] at mem
      rcases List.mem_cons.mp mem with rfl | inside
      · exact List.mem_cons_self
      · split at inside
        · cases inside
        · exact List.mem_cons_of_mem first (ih inside)

end Inquiry

/-! ### Names of packages -/

/-- A segment of the name of a package: the name of a directory, without a backslash in it. -/
structure IsSegment (segment : String) : Prop where
  isName : Path.IsName segment
  noBackslash : '\\' ∉ segment.toList

instance (segment : String) : Decidable (IsSegment segment) :=
  decidable_of_iff (Path.IsName segment ∧ '\\' ∉ segment.toList)
    ⟨fun ⟨isName, noBackslash⟩ => ⟨isName, noBackslash⟩,
      fun ⟨isName, noBackslash⟩ => ⟨isName, noBackslash⟩⟩

theorem IsSegment.whole {segment : String} (isSegment : IsSegment segment) :
    '/' ∉ segment.toList :=
  (Path.isName_ofText.mp isSegment.isName).2.2.2

/-- A text spells a package: as one segment that does not start like a scope, or as a scope and one
segment. -/
inductive SpellsPackage : String → List String → Prop where
  | plain {package : String} (segment : IsSegment package)
      (unscoped : package.toList.head? ≠ some '@') : SpellsPackage package [package]
  | inScope {scope package : String} (outer : IsSegment scope)
      (starts : scope.toList.head? = some '@') (inner : IsSegment package) :
      SpellsPackage (scope ++ "/" ++ package) [scope, package]

namespace SpellsPackage

variable {name : String} {segments : List String}

/-- A package name is its segments with slashes between them. -/
theorem eq_join (spells : SpellsPackage name segments) : name = Text.join "/" segments := by
  cases spells with
  | plain => rfl
  | inScope => rfl

/-- Every segment of a package name is a segment on its own. -/
theorem isSegment (spells : SpellsPackage name segments) :
    ∀ segment ∈ segments, IsSegment segment := by
  cases spells with
  | plain segment => simpa using segment
  | inScope outer starts inner => simp [outer, inner]

theorem ne_nil (spells : SpellsPackage name segments) : segments ≠ [] := by
  cases spells <;> exact List.cons_ne_nil _ _

/-- Cut at its slashes, a package name falls into its segments. -/
theorem split_eq (spells : SpellsPackage name segments) : Text.split '/' name = segments := by
  rw [spells.eq_join]
  exact Text.split_join spells.ne_nil fun segment mem => (spells.isSegment segment mem).whole

/-- The segments of the name of a package lead down from directory to directory. -/
theorem isName (spells : SpellsPackage name segments) :
    ∀ step ∈ segments.map RawText.ofText, Path.IsName step := by
  intro step mem
  obtain ⟨segment, inside, rfl⟩ := List.mem_map.mp mem
  exact (spells.isSegment segment inside).isName

/-- The bytes of a package name are those of its segments with slashes between them. -/
theorem ofText_eq_join (spells : SpellsPackage name segments) :
    RawText.ofText name = RawText.join "/" (segments.map RawText.ofText) := by
  rw [spells.eq_join]
  exact RawText.ofText_join "/" segments

end SpellsPackage

namespace Manifest

variable {host : Host} {manifestFile name : String} {segments : List String}

/-- What the check of a package name lets through as one of its parts is a segment. -/
theorem isPackageSegment_iff {segment : String} (whole : '/' ∉ segment.toList) :
    isPackageSegment segment ↔ IsSegment segment := by
  simp only [isPackageSegment, Bool.and_eq_true, bne_iff_ne, Bool.not_eq_true',
    List.contains_eq_mem, decide_eq_false_iff_not]
  constructor
  · rintro ⟨⟨⟨filled, stays⟩, down⟩, noBackslash⟩
    exact ⟨Path.isName_ofText.mpr ⟨filled, stays, down, whole⟩, noBackslash⟩
  · rintro ⟨isName, noBackslash⟩
    obtain ⟨filled, stays, down, -⟩ := Path.isName_ofText.mp isName
    exact ⟨⟨⟨filled, stays⟩, down⟩, noBackslash⟩

/-- The accepted texts are the names of packages. -/
theorem isPackageName_iff : isPackageName name ↔ ∃ segments, SpellsPackage name segments := by
  have joined : Text.join "/" (Text.split '/' name) = name := Text.join_split '/' name
  have whole : ∀ piece ∈ Text.split '/' name, '/' ∉ piece.toList :=
    fun piece mem => Text.not_mem_of_mem_split mem
  constructor
  · intro accepted
    unfold isPackageName at accepted
    split at accepted
    · rename_i package pieces
      rw [pieces] at joined whole
      simp only [Bool.and_eq_true, Bool.not_eq_true', isScope, beq_eq_false_iff_ne] at accepted
      have segment := (isPackageSegment_iff (whole package (by simp))).mp accepted.1
      exact ⟨[package], joined ▸ .plain segment accepted.2⟩
    · rename_i scope package pieces
      rw [pieces] at joined whole
      simp only [Bool.and_eq_true, isScope, beq_iff_eq] at accepted
      obtain ⟨⟨starts, outer⟩, inner⟩ := accepted
      have outer := (isPackageSegment_iff (whole scope (by simp))).mp outer
      have inner := (isPackageSegment_iff (whole package (by simp))).mp inner
      exact ⟨[scope, package], joined ▸ .inScope outer starts inner⟩
    · cases accepted
  · rintro ⟨segments, spells⟩
    have pieces := spells.split_eq
    unfold isPackageName
    rw [pieces]
    cases spells with
    | plain segment unscoped =>
        simp [(isPackageSegment_iff segment.whole).mpr segment, isScope, unscoped]
    | inScope outer starts inner =>
        simp [(isPackageSegment_iff outer.whole).mpr outer, isScope, starts,
          (isPackageSegment_iff inner.whole).mpr inner]

/-! ### The places of manifest files -/

/-- The names that lead from a directory to the manifest file of a dependency installed in it. -/
def inModules (manifestFile : String) (segments : List String) : List RawText :=
  ("node_modules" :: (segments ++ [manifestFile])).map RawText.ofText

/-- The manifest file of a dependency that is installed in a directory. -/
def installed (manifestFile : String) (segments : List String) (directory : Location) : Path :=
  Location.path ⟨directory.names ++ inModules manifestFile segments⟩

/-- The manifest file in a directory. -/
def atHome (manifestFile : String) (directory : Location) : Path :=
  Location.path ⟨directory.names ++ [(manifestFile : RawText)]⟩

theorem isName_nodeModules : Path.IsName "node_modules" := by decide

/-- The steps from a directory to the manifest of a package installed in it are all names. -/
theorem isName_inModules (spells : SpellsPackage name segments)
    (plain : Path.IsName manifestFile) :
    ∀ step ∈ inModules manifestFile segments, Path.IsName step := by
  intro step mem
  rw [inModules, List.map_cons, List.map_append, List.mem_cons, List.mem_append] at mem
  rcases mem with rfl | segment | manifest
  · exact isName_nodeModules
  · exact spells.isName step segment
  · exact List.mem_singleton.mp manifest ▸ plain

/-- The manifest of a directory lies right in it. -/
theorem join_manifestFile {directory : Location} (proper : directory.IsProper)
    (plain : Path.IsName manifestFile) :
    directory.path.join ⟨manifestFile⟩ = atHome manifestFile directory :=
  Location.join_name proper plain

/-- A package is installed in a directory below its modules, one directory for every segment. -/
theorem dependencyPath_eq (spells : SpellsPackage name segments) {directory : Location}
    (proper : directory.IsProper) (plain : Path.IsName manifestFile) :
    dependencyPath manifestFile name directory = installed manifestFile segments directory := by
  have modules : Location.IsProper ⟨directory.names ++ [("node_modules" : RawText)]⟩ :=
    Location.isProper_append proper (by simpa using isName_nodeModules)
  have package := Location.isProper_append modules spells.isName
  have filled : segments.map RawText.ofText ≠ [] := by simpa using spells.ne_nil
  rw [dependencyPath, Location.join_name proper isName_nodeModules, spells.ofText_eq_join,
    Location.join_path modules spells.isName filled, Location.join_name package plain, installed,
    inModules]
  simp

/-- The directories in which packages are looked up as seen from a file. -/
def directories (file : Location) : List Location := (file.parent?.getD file).ancestors

/-- The directories around a file are made of names when the file is. -/
theorem isProper_of_mem_directories {file directory : Location} (proper : file.IsProper)
    (mem : directory ∈ directories file) : directory.IsProper := by
  apply Location.isProper_of_mem_ancestors _ mem
  unfold Location.parent?
  split
  · exact proper
  · exact fun name inside => proper name (List.dropLast_subset _ inside)

/-- A package is looked for in every directory around a file, from the nearest one on. -/
theorem dependencyPaths_eq (spells : SpellsPackage name segments) {file : Location}
    (proper : file.IsProper) (plain : Path.IsName manifestFile) :
    dependencyPaths manifestFile name file =
      (directories file).map (installed manifestFile segments) := by
  apply List.map_congr_left
  intro directory mem
  exact dependencyPath_eq spells (isProper_of_mem_directories proper mem) plain

/-- So is the manifest of the project. -/
theorem pathsAbove_eq {file inner : Location} (parent : file.parent? = some inner)
    (proper : file.IsProper) (plain : Path.IsName manifestFile) :
    pathsAbove manifestFile file = (directories file).map (atHome manifestFile) := by
  rw [pathsAbove, directories, parent]
  apply List.map_congr_left
  intro directory mem
  apply join_manifestFile _ plain
  apply isProper_of_mem_directories proper
  rwa [directories, parent]

/-! ### The lookup of a package as an inquiry -/

/-- Loading a manifest asks for the text of its file, unless it is remembered. -/
def loadInquiry (memo : Memo) (path : Path) : Inquiry (Lookup (Option Manifest)) :=
  match memo.find? path with
  | some manifest => .finish (.ok (some manifest), memo)
  | none =>
      .readText path fun text =>
        .finish
          (match text with
          | none => (.error (.unreadable path), memo)
          | some source =>
              match content source with
              | .nothing => (.ok none, memo)
              | .malformed => (.error (.malformed path), memo)
              | .manifest manifest => (.ok (some manifest), memo.remember path manifest))

/-- The manifest of the project of a file, if that has the given name. -/
def ownInquiry (manifestFile : String) (memo : Memo) (name : String) (file : Location) :
    Inquiry (Lookup (Option Manifest)) :=
  (Inquiry.firstFile (pathsAbove manifestFile file)).andThen fun path? =>
    match path? with
    | none => .finish (.ok none, memo)
    | some path =>
        (loadInquiry memo path).andThen fun loaded =>
          .finish
            (match loaded with
            | (.ok (some manifest), memo) =>
                (.ok (if manifest.name = some name then some manifest else none), memo)
            | answer => answer)

/-- The lookup of a package as seen from a file at a location asks for the manifest files of
dependencies first, and then for those of projects. -/
def inquiry (manifestFile : String) (memo : Memo) (name : String) (file : Path)
    (located : Option Location) : Inquiry (Lookup (Option Manifest)) :=
  if isPackageName name then
    match located with
    | none => .finish (.error (.noWorkingDirectory file), memo)
    | some location =>
        (Inquiry.firstFile (dependencyPaths manifestFile name location)).andThen fun path? =>
          match path? with
          | some path => loadInquiry memo path
          | none => ownInquiry manifestFile memo name location
  else
    .finish (.ok none, memo)

/-- The inquiry of a load answers as the load does. -/
theorem answer_loadInquiry (memo : Memo) (path : Path) :
    (loadInquiry memo path).answer host = load host memo path := by
  unfold loadInquiry load
  cases memo.find? path with
  | some manifest => rfl
  | none => rfl

/-- The inquiry of a load looks at no path but its own. -/
theorem eq_of_mem_consulted_loadInquiry {memo : Memo} {path other : Path}
    (mem : other ∈ (loadInquiry memo path).consulted host) : other = path := by
  unfold loadInquiry at mem
  split at mem
  · cases mem
  · exact List.mem_singleton.mp mem

/-- The inquiry for a package answers as the lookup of the package does. -/
theorem answer_inquiry (memo : Memo) (name : String) (file : Path) :
    (inquiry manifestFile memo name file (host.locate? file)).answer host =
      ofPackage host manifestFile memo name file := by
  unfold inquiry ofPackage
  split
  · cases host.locate? file with
    | none => rfl
    | some location =>
        dsimp only
        rw [Inquiry.answer_andThen, Inquiry.answer_firstFile, ofPackageFrom, dependency?]
        cases (dependencyPaths manifestFile name location).find? host.isFile with
        | some path => exact answer_loadInquiry memo path
        | none =>
            dsimp only [ownInquiry]
            rw [Inquiry.answer_andThen, Inquiry.answer_firstFile, nearest?]
            cases (pathsAbove manifestFile location).find? host.isFile with
            | none => rfl
            | some path =>
                dsimp only
                rw [Inquiry.answer_andThen, answer_loadInquiry]
                rfl
  · rfl

/-- Whatever the lookup of a package asks about is one of the candidates for its manifest file. -/
theorem mem_of_mem_consulted_inquiry {memo : Memo} {file path : Path} {location : Location}
    (mem : path ∈ (inquiry manifestFile memo name file (some location)).consulted host) :
    path ∈ dependencyPaths manifestFile name location ∨ path ∈ pathsAbove manifestFile location := by
  have files {paths : List Path} {found : Path}
      (first : (Inquiry.firstFile paths).answer host = some found) : found ∈ paths := by
    rw [Inquiry.answer_firstFile] at first
    exact List.mem_of_find?_eq_some first
  unfold inquiry at mem
  split at mem
  · dsimp only at mem
    rw [Inquiry.consulted_andThen, List.mem_append] at mem
    rcases mem with looking | mem
    · exact .inl (Inquiry.mem_of_mem_consulted_firstFile looking)
    · split at mem
      · rename_i found
        exact .inl (eq_of_mem_consulted_loadInquiry mem ▸ files found)
      · rw [ownInquiry, Inquiry.consulted_andThen, List.mem_append] at mem
        rcases mem with looking | mem
        · exact .inr (Inquiry.mem_of_mem_consulted_firstFile looking)
        · split at mem
          · cases mem
          · rename_i found
            rw [Inquiry.consulted_andThen, List.mem_append] at mem
            rcases mem with loading | finished
            · exact .inr (eq_of_mem_consulted_loadInquiry loading ▸ files found)
            · cases finished
  · cases mem

end Manifest

/-! ### Where packages are looked for -/

/-- The nearest directory in a list that has a file, the innermost first. -/
def IsNearest (directories : List Location) (host : Host) (fileIn : Location → Path)
    (directory : Location) : Prop :=
  host.isFile (fileIn directory) ∧ ∃ nearer further, directories = nearer ++ directory :: further ∧
    ∀ other ∈ nearer, host.isFile (fileIn other) = false

/-- Searching the directories from the nearest one on finds the nearest one that has the file. -/
theorem IsNearest.find?_eq {directories : List Location} {host : Host} {fileIn : Location → Path}
    {directory : Location} (nearest : IsNearest directories host fileIn directory) :
    (directories.map fileIn).find? host.isFile = some (fileIn directory) := by
  obtain ⟨isFile, nearer, further, rfl, others⟩ := nearest
  rw [List.find?_eq_some_iff_append]
  refine ⟨isFile, nearer.map fileIn, further.map fileIn, by simp, ?_⟩
  intro path mem
  obtain ⟨other, inside, rfl⟩ := List.mem_map.mp mem
  simp [others other inside]

/-- How a package with the given segments is looked up as seen from a file at a location. -/
structure LooksInside (host : Host) (manifestFile : String) (memo : Memo) (name : String)
    (segments : List String) (file : Path) (location : Location) : Prop where
  /-- Only the manifest files of the package and of projects are looked at, in the directories above
  the file. -/
  consults : ∀ path ∈ (Manifest.inquiry manifestFile memo name file (some location)).consulted host,
    ∃ directory ∈ Manifest.directories location,
      path = Manifest.installed manifestFile segments directory ∨
        path = Manifest.atHome manifestFile directory
  /-- The nearest directory in which the package is installed decides alone. -/
  dependency : ∀ directory,
    IsNearest (Manifest.directories location) host (Manifest.installed manifestFile segments)
        directory →
      Manifest.ofPackage host manifestFile memo name file =
        Manifest.load host memo (Manifest.installed manifestFile segments directory)
  /-- A manifest file there that says nothing is the end of the lookup. -/
  hollow : ∀ directory source json,
    IsNearest (Manifest.directories location) host (Manifest.installed manifestFile segments)
        directory →
      memo.find? (Manifest.installed manifestFile segments directory) = none →
      host.readText? (Manifest.installed manifestFile segments directory) = some source →
      Json.ofText? source = some json → json.isHollow →
      Manifest.ofPackage host manifestFile memo name file = (.ok none, memo)
  /-- When the package is installed nowhere, the nearest project decides: it is the package if it has
  its name. -/
  own : (∀ directory ∈ Manifest.directories location,
      host.isFile (Manifest.installed manifestFile segments directory) = false) →
    ∀ inner directory, location.parent? = some inner →
      IsNearest (Manifest.directories location) host (Manifest.atHome manifestFile) directory →
      Manifest.ofPackage host manifestFile memo name file =
        Lookup.andThen
          (fun memo => Manifest.load host memo (Manifest.atHome manifestFile directory))
          (fun manifest? memo =>
            (.ok (manifest?.filter fun manifest => manifest.name = some name), memo)) memo
  /-- When there is no project either, there is no package. -/
  missing : (∀ directory ∈ Manifest.directories location,
      host.isFile (Manifest.installed manifestFile segments directory) = false ∧
        host.isFile (Manifest.atHome manifestFile directory) = false) →
    Manifest.ofPackage host manifestFile memo name file = (.ok none, memo)
  /-- Other files that are alike in these places lead to the same answer. -/
  agrees : ∀ files, (∀ directory ∈ Manifest.directories location,
      host.Alike { host with files := files } (Manifest.installed manifestFile segments directory) ∧
        host.Alike { host with files := files } (Manifest.atHome manifestFile directory)) →
    Manifest.ofPackage { host with files := files } manifestFile memo name file =
      Manifest.ofPackage host manifestFile memo name file

section Places

variable {host : Host} {manifestFile name : String} {memo : Memo} {segments : List String}
  {file : Path} {location : Location}

/-- The candidates for the manifest file of a package. -/
theorem mem_candidates (plain : Path.IsName manifestFile) (spells : SpellsPackage name segments)
    (proper : location.IsProper) {path : Path}
    (mem : path ∈ Manifest.dependencyPaths manifestFile name location ∨
      path ∈ Manifest.pathsAbove manifestFile location) :
    ∃ directory ∈ Manifest.directories location,
      path = Manifest.installed manifestFile segments directory ∨
        path = Manifest.atHome manifestFile directory := by
  rcases mem with dependency | project
  · rw [Manifest.dependencyPaths_eq spells proper plain] at dependency
    obtain ⟨directory, above, rfl⟩ := List.mem_map.mp dependency
    exact ⟨directory, above, .inl rfl⟩
  · cases parent : location.parent? with
    | none =>
        rw [Manifest.pathsAbove, parent] at project
        cases project
    | some inner =>
        rw [Manifest.pathsAbove_eq parent proper plain] at project
        obtain ⟨directory, above, rfl⟩ := List.mem_map.mp project
        exact ⟨directory, above, .inr rfl⟩

/-- The lookup of a package with a proper name goes on from the location of the file. -/
theorem ofPackage_eq_ofPackageFrom (spells : SpellsPackage name segments)
    (located : host.locate? file = some location) :
    Manifest.ofPackage host manifestFile memo name file =
      Manifest.ofPackageFrom host manifestFile memo name location := by
  rw [Manifest.ofPackage, if_pos (Manifest.isPackageName_iff.mpr ⟨segments, spells⟩), located]

/-- A package that is installed in no directory around a file is not found among its dependencies. -/
theorem dependency?_eq_none (plain : Path.IsName manifestFile)
    (spells : SpellsPackage name segments) (proper : location.IsProper)
    (nowhere : ∀ directory ∈ Manifest.directories location,
      host.isFile (Manifest.installed manifestFile segments directory) = false) :
    Manifest.dependency? host manifestFile name location = none := by
  rw [Manifest.dependency?, Manifest.dependencyPaths_eq spells proper plain, List.find?_eq_none]
  intro path mem
  obtain ⟨directory, above, rfl⟩ := List.mem_map.mp mem
  simp [nowhere directory above]

/-- Where no directory around a file has a manifest, there is no nearest one. -/
theorem nearest?_eq_none (plain : Path.IsName manifestFile) (proper : location.IsProper)
    (nowhere : ∀ directory ∈ Manifest.directories location,
      host.isFile (Manifest.atHome manifestFile directory) = false) :
    Manifest.nearest? host manifestFile location = none := by
  rw [Manifest.nearest?, List.find?_eq_none]
  intro path mem
  cases parent : location.parent? with
  | none =>
      rw [Manifest.pathsAbove, parent] at mem
      cases mem
  | some inner =>
      rw [Manifest.pathsAbove_eq parent proper plain] at mem
      obtain ⟨directory, above, rfl⟩ := List.mem_map.mp mem
      simp [nowhere directory above]

/-- A package that is installed around a file is loaded from the nearest place. -/
theorem ofPackage_of_installed (plain : Path.IsName manifestFile)
    (spells : SpellsPackage name segments) (located : host.locate? file = some location)
    (proper : location.IsProper) {directory : Location}
    (nearest : IsNearest (Manifest.directories location) host
      (Manifest.installed manifestFile segments) directory) :
    Manifest.ofPackage host manifestFile memo name file =
      Manifest.load host memo (Manifest.installed manifestFile segments directory) := by
  have found : Manifest.dependency? host manifestFile name location =
      some (Manifest.installed manifestFile segments directory) := by
    rw [Manifest.dependency?, Manifest.dependencyPaths_eq spells proper plain, nearest.find?_eq]
  rw [ofPackage_eq_ofPackageFrom spells located, Manifest.ofPackageFrom, found]

theorem looksInside (plain : Path.IsName manifestFile) (spells : SpellsPackage name segments)
    (located : host.locate? file = some location) (proper : location.IsProper) :
    LooksInside host manifestFile memo name segments file location where
  consults path mem :=
    mem_candidates plain spells proper (Manifest.mem_of_mem_consulted_inquiry mem)
  dependency directory nearest := ofPackage_of_installed plain spells located proper nearest
  hollow directory source json nearest unknown text parsed hollow := by
    have nothing : Manifest.content source = .nothing :=
      Manifest.content_eq_nothing.mpr ⟨json, parsed, hollow⟩
    rw [ofPackage_of_installed plain spells located proper nearest, Manifest.load, unknown, text]
    dsimp only
    rw [nothing]
  own nowhere inner directory parent nearest := by
    have found : Manifest.nearest? host manifestFile location =
        some (Manifest.atHome manifestFile directory) := by
      rw [Manifest.nearest?, Manifest.pathsAbove_eq parent proper plain, nearest.find?_eq]
    rw [ofPackage_eq_ofPackageFrom spells located]
    exact Manifest.ofPackageFrom_eq (dependency?_eq_none plain spells proper nowhere) found
  missing nowhere := by
    have uninstalled : Manifest.dependency? host manifestFile name location = none :=
      dependency?_eq_none plain spells proper fun directory above => (nowhere directory above).1
    have outside : Manifest.nearest? host manifestFile location = none :=
      nearest?_eq_none plain proper fun directory above => (nowhere directory above).2
    rw [ofPackage_eq_ofPackageFrom spells located, Manifest.ofPackageFrom, uninstalled, outside]
  agrees files alike := by
    rw [← Manifest.answer_inquiry, ← Manifest.answer_inquiry]
    symm
    apply Inquiry.answer_congr
    intro path mem
    rw [located] at mem
    obtain ⟨directory, above, rfl | rfl⟩ :=
      mem_candidates plain spells proper (Manifest.mem_of_mem_consulted_inquiry mem)
    · exact (alike directory above).1
    · exact (alike directory above).2

end Places

/-- The lookup of a package is the answer to an inquiry that stays in the directories above a file and
in the package directories of their `node_modules`. A text that spells no package leads to no question
about any file. -/
theorem package_lookups_stay_inside {host : Host} {manifestFile : String}
    (plain : Path.IsName manifestFile)
    (proper : ∀ base, host.workingDirectory = some base → base.IsProper) (memo : Memo)
    (name : String) (file : Path) :
    (Manifest.inquiry manifestFile memo name file (host.locate? file)).answer host =
        Manifest.ofPackage host manifestFile memo name file ∧
      ((∀ segments, ¬SpellsPackage name segments) →
        (Manifest.inquiry manifestFile memo name file (host.locate? file)).consulted host = [] ∧
          Manifest.ofPackage host manifestFile memo name file = (.ok none, memo)) ∧
      ∀ segments, SpellsPackage name segments →
        (host.locate? file = none →
            (Manifest.inquiry manifestFile memo name file none).consulted host = [] ∧
              Manifest.ofPackage host manifestFile memo name file =
                (.error (.noWorkingDirectory file), memo)) ∧
          ∀ location, host.locate? file = some location →
            LooksInside host manifestFile memo name segments file location := by
  refine ⟨Manifest.answer_inquiry memo name file, ?_, ?_⟩
  · intro refused
    have unaccepted : ¬Manifest.isPackageName name := by
      intro accepted
      obtain ⟨segments, spells⟩ := Manifest.isPackageName_iff.mp accepted
      exact refused segments spells
    constructor
    · unfold Manifest.inquiry
      rw [if_neg unaccepted]
      rfl
    · rw [Manifest.ofPackage, if_neg unaccepted]
  · intro segments spells
    have accepted : Manifest.isPackageName name := Manifest.isPackageName_iff.mpr ⟨segments, spells⟩
    constructor
    · intro nowhere
      constructor
      · unfold Manifest.inquiry
        rw [if_pos accepted]
        rfl
      · rw [Manifest.ofPackage, if_pos accepted, nowhere]
    · intro location located
      exact looksInside plain spells located (Host.isProper_of_locate? proper located)

namespace Sample

/-- A project with a dependency whose manifest says nothing, seen from its source directory. -/
def hollowHost : Host where
  files :=
    (FileSystem.empty.write ⟨["app", "node_modules", "@scope", "dep", "package.json"]⟩
      "\x7b\x7d".toUTF8).write ⟨["app", "package.json"]⟩ "\x7b\"name\":\"@scope/dep\"\x7d".toUTF8
  workingDirectory := some ⟨["app", "src"]⟩
  localTime := ""
  clock := 0

theorem spells_dep : SpellsPackage ("@scope" ++ "/" ++ "dep") ["@scope", "dep"] := by
  apply SpellsPackage.inScope <;> decide

end Sample

/-- The installed dependency that says nothing hides the project of its name, and a path is refused
where the name of a package is expected. -/
theorem sample_lookups_stay_inside :
    Manifest.ofPackage Sample.hollowHost "package.json" [] ("@scope" ++ "/" ++ "dep") ⟨"main.js"⟩ =
        (.ok none, []) ∧
      Manifest.ofPackage Sample.hollowHost "package.json" [] "@scope/../.." ⟨"main.js"⟩ =
        (.ok none, []) := by
  have plain : Path.IsName "package.json" := by decide
  have proper : ∀ base, Sample.hollowHost.workingDirectory = some base → base.IsProper := by
    intro base eq
    rw [← Option.some.inj eq]
    decide
  constructor
  · obtain ⟨-, inside⟩ := (package_lookups_stay_inside plain proper [] ("@scope" ++ "/" ++ "dep")
      ⟨"main.js"⟩).2.2 _ Sample.spells_dep
    have located : Sample.hollowHost.locate? ⟨"main.js"⟩ = some ⟨["app", "src", "main.js"]⟩ := by
      decide
    apply (inside _ located).hollow ⟨["app"]⟩ "\x7b\x7d" (.object [])
    · refine ⟨by decide +kernel, [⟨["app", "src"]⟩], [⟨[]⟩], rfl, ?_⟩
      intro other mem
      rw [List.mem_singleton.mp mem]
      decide +kernel
    · rfl
    · decide +kernel
    · rfl
    · rfl
  · apply ((package_lookups_stay_inside plain proper [] "@scope/../.." ⟨"main.js"⟩).2.1 _).2
    intro segments spells
    have refused : ¬Manifest.isPackageName "@scope/../.." := by decide
    exact refused (Manifest.isPackageName_iff.mpr ⟨segments, spells⟩)

end Imprint

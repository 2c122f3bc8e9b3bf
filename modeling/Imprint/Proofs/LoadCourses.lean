/-
Module: Imprint.Proofs.LoadCourses
Purpose: Which manifests an operation loads, in which order, and what it finds in each of them. An
  operation follows a course: it loads a manifest, goes on with what it found there, and in the end
  has an answer. Every operation of a session is such a course, so what one load does to the memory
  can be followed through all loads of an operation.
Main exports: Course, Course.lookup, Course.loads, Operation.course, Session.perform_eq_course,
  Course.mem_lookup, Course.seen_of_mem_loads
-/
import Imprint.Proofs.SessionRuns

namespace Imprint

/-- What an operation does with the manifests on a host: it loads one from an absolute path where a
file is and goes on with what it found, until it has an answer. A load that fails ends it. -/
inductive Course (host : Host) (α : Type) where
  | finish (answer : Except LookupError α)
  | load (path : Path) (absolute : path.isAbsolute) (isFile : host.isFile path)
      (next : Option Manifest → Course host α)

/-- A load that took place: the path of the manifest, and what was found there. -/
structure Load where
  path : Path
  answer : Except LookupError (Option Manifest)

namespace Course

variable {host : Host} {α β : Type}

/-- A course that goes on with what another one found, unless that one failed. -/
def andThen : Course host α → (α → Course host β) → Course host β
  | .finish (.error error), _ => .finish (.error error)
  | .finish (.ok found), after => after found
  | .load path absolute isFile next, after =>
      .load path absolute isFile fun manifest? => (next manifest?).andThen after

/-- The lookup that follows a course. -/
def lookup : Course host α → Memo → Lookup α
  | .finish answer => fun memo => (answer, memo)
  | .load path _ _ next =>
      Lookup.andThen (fun memo => Manifest.load host memo path)
        fun manifest? => (next manifest?).lookup

/-- The loads that take place on a course, in order. -/
def loads : Course host α → Memo → List Load
  | .finish _, _ => []
  | .load path _ _ next, memo =>
      ⟨path, (Manifest.load host memo path).1⟩ ::
        match Manifest.load host memo path with
        | (.ok manifest?, memo) => (next manifest?).loads memo
        | (.error _, _) => []

/-- One course after the other looks up what the second finds with what the first found. -/
theorem lookup_andThen (first : Course host α) (next : α → Course host β) :
    (first.andThen next).lookup = Lookup.andThen first.lookup fun found => (next found).lookup := by
  induction first with
  | finish answer => cases answer <;> rfl
  | load path absolute isFile rest ih =>
      funext memo
      simp only [andThen, lookup, ih, Lookup.andThen]
      rcases Manifest.load host memo path with ⟨_ | manifest?, after⟩ <;> rfl

/-! ### The courses of the operations -/

section Operations

variable (host) (manifestFile : String)

/-- How the constants of a located file are found. -/
def constantsAt (now : String) (file : Location) : Course host Constants :=
  match found : Manifest.nearest? host manifestFile file with
  | none => .finish (.ok (.outside now))
  | some path =>
      if path.steps = file.names then .finish (.ok (.outside now))
      else
        .load path (Manifest.nearest?_eq_some found).1 (Manifest.nearest?_eq_some found).2
          fun manifest? => .finish
            (.ok (manifest?.elim (.outside now) fun manifest => .inside now manifest path file))

/-- How the constants of a file are found. -/
def constants (now : String) (file : Path) : Course host Constants :=
  match host.locate? file with
  | none => .finish (.error (.noWorkingDirectory file))
  | some location => constantsAt host manifestFile now location

/-- How a package is found by its own name, when no directory of dependencies has it. -/
def ownPackageAt (name : String) (file : Location) : Course host (Option Manifest) :=
  match found : Manifest.nearest? host manifestFile file with
  | none => .finish (.ok none)
  | some path =>
      .load path (Manifest.nearest?_eq_some found).1 (Manifest.nearest?_eq_some found).2
        fun manifest? => .finish
          (.ok (manifest?.filter fun manifest => manifest.name = some name))

/-- How a package is found as seen from a located file. -/
def packageAt (name : String) (file : Location) : Course host (Option Manifest) :=
  match found : Manifest.dependency? host manifestFile name file with
  | some path =>
      .load path (Manifest.dependency?_eq_some found).1 (Manifest.dependency?_eq_some found).2
        fun manifest? => .finish (.ok manifest?)
  | none => ownPackageAt host manifestFile name file

/-- How a package is found as seen from a file. -/
def package (name : String) (file : Path) : Course host (Option Manifest) :=
  if Manifest.isPackageName name then
    match host.locate? file with
    | none => .finish (.error (.noWorkingDirectory file))
    | some location => packageAt host manifestFile name location
  else
    .finish (.ok none)

/-- How the versions of packages are found, one package after the other. -/
def versions (file : Path) : List String → Course host (List (String × Option String))
  | [] => .finish (.ok [])
  | name :: rest =>
      (package host manifestFile name file).andThen fun manifest? =>
        (versions file rest).andThen fun others =>
          .finish (.ok ((name, manifest?.bind Manifest.version) :: others))

/-- How a tree with given constants is imprinted. -/
def imprinted (settings : Settings) (constants : Constants) (file : Path) (root : Node) :
    Course host Imprinted :=
  (versions host settings.manifestFile file (Rules.packagesOf root)).andThen fun found =>
    .finish (.ok (.ofRules (.ofSettings settings constants host.clock found) root))

end Operations

end Course

/-- The course of an operation. -/
def Operation.course (host : Host) (settings : Settings) (now : String) :
    Operation → Course host Found
  | .constants file =>
      (Course.constants host settings.manifestFile now file).andThen fun ofFile =>
        .finish (.ok (.constants ofFile))
  | .package name file =>
      (Course.package host settings.manifestFile name file).andThen fun manifest? =>
        .finish (.ok (.package manifest?))
  | .transform file root =>
      ((Course.constants host settings.manifestFile now file).andThen fun ofFile =>
        Course.imprinted host settings ofFile file root).andThen fun tree =>
          .finish (.ok (.imprinted tree))
  | .imprint ofFile file root =>
      (Course.imprinted host settings ofFile file root).andThen fun tree =>
        .finish (.ok (.imprinted tree))

namespace Course

variable (host : Host) (manifestFile : String)

/-- The course of the constants of a location finds these constants. -/
theorem lookup_constantsAt (now : String) (file : Location) :
    (constantsAt host manifestFile now file).lookup =
      fun memo => Constants.ofLocation host manifestFile now memo file := by
  funext memo
  unfold constantsAt
  split
  case h_1 missing => simp [lookup, Constants.ofLocation, missing]
  case h_2 path found =>
    split
    case isTrue own => simp [lookup, Constants.ofLocation, found, own]
    case isFalse other => exact (Constants.ofLocation_eq found other).symm

theorem lookup_constants (now : String) (file : Path) :
    (constants host manifestFile now file).lookup =
      fun memo => Constants.ofFile host manifestFile now memo file := by
  unfold constants Constants.ofFile
  cases host.locate? file with
  | none => rfl
  | some location => exact lookup_constantsAt host manifestFile now location

theorem lookup_packageAt (name : String) (file : Location) :
    (packageAt host manifestFile name file).lookup =
      fun memo => Manifest.ofPackageFrom host manifestFile memo name file := by
  funext memo
  unfold packageAt
  split
  case h_1 path found =>
    simp only [lookup, Lookup.andThen, Manifest.ofPackageFrom, found]
    rcases Manifest.load host memo path with ⟨_ | _, _⟩ <;> rfl
  case h_2 missing =>
    unfold ownPackageAt
    split
    case h_1 nowhere => simp [lookup, Manifest.ofPackageFrom, missing, nowhere]
    case h_2 path found => exact (Manifest.ofPackageFrom_eq missing found).symm

/-- The course of a package finds the package. -/
theorem lookup_package (name : String) (file : Path) :
    (package host manifestFile name file).lookup =
      fun memo => Manifest.ofPackage host manifestFile memo name file := by
  unfold package Manifest.ofPackage
  split
  · cases host.locate? file with
    | none => rfl
    | some location => exact lookup_packageAt host manifestFile name location
  · rfl

theorem lookup_versions (file : Path) (packages : List String) :
    (versions host manifestFile file packages).lookup =
      fun memo => Manifest.versionsOf host manifestFile file memo packages := by
  induction packages with
  | nil => rfl
  | cons name rest ih =>
      funext memo
      rw [versions, lookup_andThen, lookup_package, Manifest.versionsOf_cons]
      simp only [lookup_andThen, ih]
      rfl

/-- The course of an imprinted tree finds the imprinted tree. -/
theorem lookup_imprinted (settings : Settings) (constants : Constants) (file : Path)
    (root : Node) :
    (imprinted host settings constants file root).lookup =
      fun memo => Imprinted.ofTree host settings memo constants file root := by
  funext memo
  rw [imprinted, lookup_andThen, lookup_versions, Imprinted.ofTree_eq]
  rfl

end Course

/-- What an operation looks up is what its course finds. -/
theorem Operation.lookup_course (host : Host) (settings : Settings) (now : String)
    (operation : Operation) :
    (operation.course host settings now).lookup = operation.lookup host settings now := by
  cases operation with
  | constants file =>
      rw [course, Course.lookup_andThen, Course.lookup_constants]
      rfl
  | package name file =>
      rw [course, Course.lookup_andThen, Course.lookup_package]
      rfl
  | transform file root =>
      rw [course, Course.lookup_andThen, Course.lookup_andThen, Course.lookup_constants]
      simp only [Course.lookup_imprinted]
      rfl
  | imprint ofFile file root =>
      rw [course, Course.lookup_andThen, Course.lookup_imprinted]
      rfl

/-- A session answers an operation with what its course finds, and remembers what is loaded on it. -/
theorem Session.perform_eq_course (session : Session) (host : Host) (operation : Operation) :
    session.perform host operation =
      session.answer
        ((operation.course host session.settings session.now).lookup session.memo) := by
  rw [perform_eq, Operation.lookup_course]

/-! ### What the loads of a course do to the memory -/

namespace Memo

variable {memo later : Memo} {path : Path} {manifest : Manifest}

/-- Nothing is remembered of a path when no entry has its steps. -/
theorem find?_eq_none : memo.find? path = none ↔ path.steps ∉ memo.map Prod.fst := by
  rw [find?, List.lookup_eq_none_iff]
  constructor
  · intro others mem
    obtain ⟨entry, inside, eq⟩ := List.mem_map.mp mem
    simpa [eq] using others entry inside
  · intro missing entry inside
    have other : path.steps ≠ entry.1 := fun eq => missing (eq ▸ List.mem_map_of_mem inside)
    simpa using other

/-- What is remembered under one spelling of a path is remembered under every other. -/
theorem find?_eq_of_steps {other : Path} (steps : path.steps = other.steps) :
    memo.find? path = memo.find? other := by
  rw [find?, find?, steps]

/-- What is remembered of a path of which nothing was remembered is found. -/
theorem find?_remember (missing : memo.find? path = none) :
    (memo.remember path manifest).find? path = some manifest := by
  unfold find? at missing
  simp [find?, remember, List.lookup_append, missing]

/-- What is remembered stays remembered while the memory grows. -/
theorem find?_of_prefix (grown : memo <+: later) (found : memo.find? path = some manifest) :
    later.find? path = some manifest := by
  obtain ⟨rest, rfl⟩ := grown
  unfold find? at found
  simp [find?, List.lookup_append, found]

end Memo

namespace Manifest

variable {host : Host} {memo : Memo} {path : Path} {manifest : Manifest}

/-- What a load finds is remembered from then on. -/
theorem find?_load (found : (load host memo path).1 = .ok (some manifest)) :
    (load host memo path).2.find? path = some manifest := by
  rcases load_cases host memo path with
    ⟨known, remembered, eq⟩ | ⟨read, missing, -, eq⟩ | ⟨-, nothing, eq⟩
  · rw [eq] at found ⊢
    cases found
    exact remembered
  · rw [eq] at found ⊢
    cases found
    exact Memo.find?_remember missing
  · rw [eq] at found
    exact absurd found (nothing manifest)

/-- What a load adds to the memory is what it found, and what the file says. -/
theorem mem_load {entry : List RawText × Manifest} (mem : entry ∈ (load host memo path).2) :
    entry ∈ memo ∨
      (path.steps = entry.1 ∧ memo.find? path = none ∧
        (load host memo path).1 = .ok (some entry.2) ∧ read host path = .ok (some entry.2)) := by
  rcases load_cases host memo path with ⟨known, -, eq⟩ | ⟨found, missing, reads, eq⟩ | ⟨-, -, eq⟩
  · rw [eq] at mem
    exact .inl mem
  · rw [eq] at mem ⊢
    rcases List.mem_append.mp mem with old | new
    · exact .inl old
    · obtain rfl := List.mem_singleton.mp new
      exact .inr ⟨rfl, missing, rfl, reads⟩
  · rw [eq] at mem
    exact .inl mem

/-- A load keeps every path remembered at most once. -/
theorem nodup_load (distinct : (memo.map Prod.fst).Nodup) :
    ((load host memo path).2.map Prod.fst).Nodup := by
  rcases load_cases host memo path with ⟨_, -, eq⟩ | ⟨found, missing, -, eq⟩ | ⟨-, -, eq⟩
  · rwa [eq]
  · rw [eq, Memo.remember, List.map_append, List.nodup_append]
    refine ⟨distinct, by simp, ?_⟩
    intro key old other new
    obtain rfl := List.mem_singleton.mp new
    rintro rfl
    exact Memo.find?_eq_none.mp missing old
  · rwa [eq]

end Manifest

namespace Course

variable {host : Host} {α : Type} {course : Course host α} {memo : Memo} {load : Load}

theorem lookup_load_cases (path : Path) (absolute : path.isAbsolute) (isFile : host.isFile path)
    (next : Option Manifest → Course host α) (memo : Memo) :
    (∃ error, (Manifest.load host memo path).1 = .error error ∧
        ((Course.load path absolute isFile next).lookup memo).2 =
          (Manifest.load host memo path).2 ∧
        (Course.load path absolute isFile next).loads memo =
          [⟨path, (Manifest.load host memo path).1⟩]) ∨
      ∃ manifest?, (Manifest.load host memo path).1 = .ok manifest? ∧
        ((Course.load path absolute isFile next).lookup memo).2 =
          ((next manifest?).lookup (Manifest.load host memo path).2).2 ∧
        (Course.load path absolute isFile next).loads memo =
          ⟨path, (Manifest.load host memo path).1⟩ ::
            (next manifest?).loads (Manifest.load host memo path).2 := by
  simp only [lookup, loads, Lookup.andThen]
  rcases Manifest.load host memo path with ⟨error | manifest?, after⟩
  · exact .inl ⟨error, rfl, rfl, rfl⟩
  · exact .inr ⟨manifest?, rfl, rfl, rfl⟩

/-- The memory only grows on a course. -/
theorem grows (course : Course host α) (memo : Memo) : memo <+: (course.lookup memo).2 := by
  induction course generalizing memo with
  | finish answer => exact List.prefix_refl memo
  | load path absolute isFile next ih =>
      have first : memo <+: (Manifest.load host memo path).2 := Manifest.grows_load
      rcases lookup_load_cases path absolute isFile next memo with
        ⟨-, -, eq, -⟩ | ⟨manifest?, -, eq, -⟩
      · rwa [eq]
      · rw [eq]
        exact first.trans (ih manifest? _)

/-- So does a whole course of loads. -/
theorem nodup_lookup (course : Course host α) {memo : Memo}
    (distinct : (memo.map Prod.fst).Nodup) : ((course.lookup memo).2.map Prod.fst).Nodup := by
  induction course generalizing memo with
  | finish answer => exact distinct
  | load path absolute isFile next ih =>
      rcases lookup_load_cases path absolute isFile next memo with
        ⟨-, -, eq, -⟩ | ⟨manifest?, -, eq, -⟩
      · rw [eq]
        exact Manifest.nodup_load distinct
      · rw [eq]
        exact ih manifest? (Manifest.nodup_load distinct)

/-- Every load of a course takes place at some moment between the memory before the course and the
memory after it, and at a file. -/
theorem seen_of_mem_loads (mem : load ∈ course.loads memo) :
    load.path.isAbsolute ∧ host.isFile load.path ∧
      ∃ middle : Memo, memo <+: middle ∧ load.answer = (Manifest.load host middle load.path).1 ∧
        (Manifest.load host middle load.path).2 <+: (course.lookup memo).2 := by
  induction course generalizing memo with
  | finish answer => cases mem
  | load path absolute isFile next ih =>
      rcases lookup_load_cases path absolute isFile next memo with
        ⟨_, -, after, eq⟩ | ⟨manifest?, -, after, eq⟩
      · rw [eq] at mem
        obtain rfl := List.mem_singleton.mp mem
        exact ⟨absolute, isFile, memo, List.prefix_refl memo, rfl, after ▸ List.prefix_refl _⟩
      · rw [eq] at mem
        rw [after]
        rcases List.mem_cons.mp mem with rfl | later
        · exact ⟨absolute, isFile, memo, List.prefix_refl memo, rfl, (next manifest?).grows _⟩
        · obtain ⟨laterAbsolute, laterFile, middle, grown, answer, kept⟩ := ih manifest? later
          exact ⟨laterAbsolute, laterFile, middle, Manifest.grows_load.trans grown, answer, kept⟩

/-- What a course adds to the memory was found by one of its loads, for a path that was not remembered
before the course, and is what the file of that path says. -/
theorem mem_lookup {entry : List RawText × Manifest} (mem : entry ∈ (course.lookup memo).2) :
    entry ∈ memo ∨ ∃ load ∈ course.loads memo, load.path.steps = entry.1 ∧
      load.answer = .ok (some entry.2) ∧ memo.find? load.path = none ∧
      Manifest.read host load.path = .ok (some entry.2) := by
  induction course generalizing memo with
  | finish answer => exact .inl mem
  | load path absolute isFile next ih =>
      rcases lookup_load_cases path absolute isFile next memo with
        ⟨error, failed, after, eq⟩ | ⟨manifest?, -, after, eq⟩
      · rw [after] at mem
        rcases Manifest.mem_load mem with old | ⟨-, -, found, -⟩
        · exact .inl old
        · rw [failed] at found
          cases found
      · rw [after] at mem
        rw [eq]
        rcases ih manifest? mem with first | ⟨load, inside, steps, answer, missing, reads⟩
        · rcases Manifest.mem_load first with old | ⟨steps, missing, found, reads⟩
          · exact .inl old
          · exact .inr ⟨_, List.mem_cons_self, steps, found, missing, reads⟩
        · refine .inr ⟨load, List.mem_cons_of_mem _ inside, steps, answer, ?_, reads⟩
          cases known : memo.find? load.path with
          | none => rfl
          | some manifest =>
              rw [Memo.find?_of_prefix Manifest.grows_load known] at missing
              cases missing

variable {manifest : Manifest}

/-- A load of a path that is remembered finds what is remembered. -/
theorem answer_of_remembered (mem : load ∈ course.loads memo)
    (known : memo.find? load.path = some manifest) : load.answer = .ok (some manifest) := by
  obtain ⟨-, -, middle, grown, answer, -⟩ := seen_of_mem_loads mem
  have still : middle.find? load.path = some manifest := Memo.find?_of_prefix grown known
  rcases Manifest.load_cases host middle load.path with ⟨_, found, eq⟩ | ⟨_, missing, -⟩ | ⟨missing, -⟩
  · rw [found] at still
    rw [answer, eq, still]
  · simp [missing] at still
  · simp [missing] at still

/-- What a load finds is remembered after the course. -/
theorem find?_of_answer (mem : load ∈ course.loads memo)
    (found : load.answer = .ok (some manifest)) :
    (course.lookup memo).2.find? load.path = some manifest := by
  obtain ⟨-, -, middle, -, answer, kept⟩ := seen_of_mem_loads mem
  rw [answer] at found
  exact Memo.find?_of_prefix kept (Manifest.find?_load found)

/-- A load of a path that is not remembered, where there is no manifest to be read, answers with what
it reads and adds nothing for that path. -/
theorem refuses (mem : load ∈ course.loads memo) (missing : memo.find? load.path = none)
    (nothing : ∀ manifest, Manifest.read host load.path ≠ .ok (some manifest)) :
    (course.lookup memo).2.find? load.path = none ∧
      load.answer = Manifest.read host load.path := by
  obtain ⟨absolute, isFile, middle, -, answer, kept⟩ := seen_of_mem_loads mem
  have unknown : (course.lookup memo).2.find? load.path = none := by
    cases known : (course.lookup memo).2.find? load.path with
    | none => rfl
    | some manifest =>
        -- A manifest that some load of the same file found is what the file says.
        exfalso
        rcases mem_lookup (Memo.mem_of_find? known) with old | ⟨other, inside, steps, -, -, reads⟩
        · exact Memo.find?_eq_none.mp missing (List.mem_map_of_mem old)
        · obtain ⟨otherAbsolute, -, -⟩ := seen_of_mem_loads inside
          apply nothing manifest
          exact Manifest.read_eq_of_steps absolute otherAbsolute steps.symm isFile reads
  refine ⟨unknown, ?_⟩
  rcases Manifest.load_cases host middle load.path with
    ⟨manifest, known, eq⟩ | ⟨manifest, -, reads, -⟩ | ⟨-, -, eq⟩
  · rw [eq] at kept
    rw [Memo.find?_of_prefix kept known] at unknown
    cases unknown
  · exact absurd reads (nothing manifest)
  · rw [answer, eq]

end Course

end Imprint

/-
Module: Imprint.Proofs.Loads
Purpose: What every lookup is made of. The constants of a file, the manifest of a package and the
  versions that a tree asks for are all found by loading manifests one after the other, each time from
  the path of a file that is there. What one load does to the memory therefore holds of all of them:
  the memory only grows, and as long as the files stay as they are it has no influence on the answer.
Main exports: Manifest.read, Memo.Sound, Memo.Agree, Lookup.andThen, MadeOfLoads, MadeOfLoads.grows,
  MadeOfLoads.fst_eq, MadeOfLoads.transparent
-/
import Imprint.Constants
import Imprint.Proofs.LocationPaths

namespace Imprint

/-! ### Spellings of a path -/

namespace FileSystem

/-- Parts that lead nowhere can be left out of a path that leads somewhere. -/
theorem follow?_steps {files : FileSystem} {start finish : List RawText} {parts : List RawText}
    (reached : parts.foldlM files.follow? start = some finish) :
    (parts.filter fun part => !Path.isIdle part).foldlM files.follow? start = some finish := by
  induction parts generalizing start with
  | nil => exact reached
  | cons part rest ih =>
      rw [List.foldlM_cons] at reached
      obtain ⟨middle, step, reached⟩ := Option.bind_eq_some_iff.mp reached
      by_cases idle : Path.isIdle part
      · have stays : middle = start := by
          simp only [follow?, idle] at step
          split at step
          · cases step
          · exact (Option.some.inj step).symm
        rw [List.filter_cons_of_neg (by simp [idle])]
        exact ih (stays ▸ reached)
      · rw [List.filter_cons_of_pos (by simp [idle]), List.foldlM_cons]
        exact Option.bind_eq_some_iff.mpr ⟨middle, step, ih reached⟩

/-- The file of an absolute path is the one that its steps lead to from the root. -/
theorem file?_eq_some {files : FileSystem} {workingDirectory : Option Location} {path : Path}
    {file : File} (absolute : path.isAbsolute)
    (eq : files.file? workingDirectory path = some file) :
    ∃ names, path.steps.foldlM files.follow? [] = some names ∧
      files.entry? names = some (.file file) := by
  unfold file? at eq
  split at eq
  · cases eq
  · simp only [Option.bind_some] at eq
    split at eq
    · cases eq
    · rename_i names reached
      refine ⟨names, follow?_steps reached, ?_⟩
      split at eq
      · rename_i found
        rw [found, Option.some.inj eq]
      · cases eq

/-- Absolute paths with the same steps lead to the same file, if both lead to one. -/
theorem file?_eq_of_steps {files : FileSystem} {workingDirectory : Option Location}
    {path other : Path} {file found : File} (absolute : path.isAbsolute)
    (otherAbsolute : other.isAbsolute) (steps : path.steps = other.steps)
    (eq : files.file? workingDirectory path = some file)
    (otherEq : files.file? workingDirectory other = some found) : file = found := by
  obtain ⟨names, reached, entry⟩ := file?_eq_some absolute eq
  obtain ⟨others, otherReached, otherEntry⟩ := file?_eq_some otherAbsolute otherEq
  rw [steps, otherReached] at reached
  obtain rfl := Option.some.inj reached
  rw [otherEntry] at entry
  injection entry with same
  injection same with same
  exact same.symm

end FileSystem

namespace Path

/-- Whatever is joined to an absolute path, the path stays absolute. -/
theorem isAbsolute_join {base path : Path} (absolute : base.isAbsolute) :
    (base.join path).isAbsolute := by
  have head := isAbsolute_iff.mp absolute
  have stays (after : List UInt8) : isAbsolute ⟨⟨base.raw.bytes ++ after⟩⟩ := by
    rw [isAbsolute_iff, List.head?_append, head]
    rfl
  unfold join
  split
  · assumption
  · split
    · exact stays path.raw.bytes
    · rw [RawText.append_assoc]
      exact stays _

end Path

theorem Location.isAbsolute_path (location : Location) : location.path.isAbsolute := by
  simp [path, Path.isAbsolute]

/-! ### One load -/

namespace Manifest

/-- What the file at a path says, whatever is remembered. -/
def read (host : Host) (path : Path) : Except LookupError (Option Manifest) :=
  match host.readText? path with
  | none => .error (.unreadable path)
  | some source =>
      match content source with
      | .nothing => .ok none
      | .malformed => .error (.malformed path)
      | .manifest manifest => .ok (some manifest)

/-- A load finds a remembered manifest, or else reads a manifest and remembers it, or else answers with
what it reads and remembers nothing. -/
theorem load_cases (host : Host) (memo : Memo) (path : Path) :
    (∃ manifest, memo.find? path = some manifest ∧
        load host memo path = (.ok (some manifest), memo)) ∨
      (∃ manifest, memo.find? path = none ∧ read host path = .ok (some manifest) ∧
        load host memo path = (.ok (some manifest), memo.remember path manifest)) ∨
      (memo.find? path = none ∧ (∀ manifest, read host path ≠ .ok (some manifest)) ∧
        load host memo path = (read host path, memo)) := by
  unfold load read
  cases memo.find? path with
  | some manifest => exact .inl ⟨manifest, rfl, rfl⟩
  | none =>
      right
      cases host.readText? path with
      | none => exact .inr ⟨rfl, by simp, rfl⟩
      | some source =>
          dsimp only
          cases content source with
          | manifest manifest => exact .inl ⟨manifest, rfl, rfl, rfl⟩
          | nothing => exact .inr ⟨rfl, by simp, rfl⟩
          | malformed => exact .inr ⟨rfl, by simp, rfl⟩

/-- A load answers with the remembered manifest, or else with what it reads. -/
theorem load_fst_eq (host : Host) (memo : Memo) (path : Path) :
    (load host memo path).1 =
      (memo.find? path).elim (read host path) fun manifest => .ok (some manifest) := by
  rcases load_cases host memo path with ⟨_, found, eq⟩ | ⟨_, missing, reads, eq⟩ | ⟨missing, -, eq⟩
  · rw [eq, found, Option.elim_some]
  · rw [eq, missing, Option.elim_none, reads]
  · rw [eq, missing, Option.elim_none]

/-- A manifest is read from a text that says it. -/
theorem read_eq_manifest {host : Host} {path : Path} {manifest : Manifest} :
    read host path = .ok (some manifest) ↔
      ∃ source, host.readText? path = some source ∧ content source = .manifest manifest := by
  unfold read
  cases host.readText? path with
  | none => simp
  | some source => cases reads : content source <;> simp [reads]

/-- A manifest that is read under one spelling of a path is read under every other that leads to a
file. -/
theorem read_eq_of_steps {host : Host} {path other : Path} {manifest : Manifest}
    (absolute : path.isAbsolute) (otherAbsolute : other.isAbsolute)
    (steps : path.steps = other.steps) (isFile : host.isFile path)
    (reads : read host other = .ok (some manifest)) : read host path = .ok (some manifest) := by
  obtain ⟨source, text, meaning⟩ := read_eq_manifest.mp reads
  obtain ⟨file, found⟩ := Option.isSome_iff_exists.mp isFile
  obtain ⟨another, otherFound, decoded⟩ := Option.bind_eq_some_iff.mp text
  have same : file = another :=
    FileSystem.file?_eq_of_steps absolute otherAbsolute steps found otherFound
  refine read_eq_manifest.mpr ⟨source, ?_, meaning⟩
  exact Option.bind_eq_some_iff.mpr ⟨file, found, same ▸ decoded⟩

end Manifest

/-- Every remembered manifest is what a file of its path says. -/
def Memo.Sound (host : Host) (memo : Memo) : Prop :=
  ∀ entry ∈ memo, ∃ path : Path, path.isAbsolute ∧ path.steps = entry.1 ∧
    Manifest.read host path = .ok (some entry.2)

namespace Memo

theorem sound_nil (host : Host) : Sound host [] := by
  simp [Sound]

theorem mem_of_find? {memo : Memo} {path : Path} {manifest : Manifest}
    (found : memo.find? path = some manifest) : (path.steps, manifest) ∈ memo := by
  obtain ⟨before, after, rfl, -⟩ := List.lookup_eq_some_iff.mp found
  simp

/-- Remembering what a file says keeps the memory true of the files. -/
theorem Sound.remember {host : Host} {memo : Memo} (sound : Sound host memo) {path : Path}
    {manifest : Manifest} (absolute : path.isAbsolute)
    (reads : Manifest.read host path = .ok (some manifest)) :
    Sound host (memo.remember path manifest) := by
  intro entry mem
  rcases List.mem_append.mp mem with old | new
  · exact sound entry old
  · rw [List.mem_singleton.mp new]
    exact ⟨path, absolute, rfl, reads⟩

end Memo

namespace Manifest

variable {host : Host} {memo : Memo} {path : Path}

/-- A load forgets nothing. -/
theorem grows_load : memo <+: (load host memo path).2 := by
  rcases load_cases host memo path with ⟨_, -, eq⟩ | ⟨_, -, -, eq⟩ | ⟨-, -, eq⟩
  · simp only [eq, List.prefix_refl]
  · simp only [eq, Memo.remember, List.prefix_append]
  · simp only [eq, List.prefix_refl]

/-- A load keeps the memory true of the files. -/
theorem sound_load (absolute : path.isAbsolute) (sound : memo.Sound host) :
    (load host memo path).2.Sound host := by
  rcases load_cases host memo path with ⟨_, -, eq⟩ | ⟨_, -, reads, eq⟩ | ⟨-, -, eq⟩
  · rwa [eq]
  · rw [eq]
    exact sound.remember absolute reads
  · rwa [eq]

/-- With a memory that is true of the files, a load answers as if it read the file. -/
theorem load_fst (absolute : path.isAbsolute) (isFile : host.isFile path)
    (sound : memo.Sound host) : (load host memo path).1 = read host path := by
  rw [load_fst_eq]
  cases found : memo.find? path with
  | none => rfl
  | some manifest =>
      obtain ⟨origin, originAbsolute, steps, reads⟩ := sound _ (Memo.mem_of_find? found)
      exact (read_eq_of_steps absolute originAbsolute steps.symm isFile reads).symm

end Manifest

/-! ### Memories that answer alike -/

/-- Two memories from which every load on a host has the same answer. -/
def Memo.Agree (host : Host) (memo other : Memo) : Prop :=
  ∀ path : Path, path.isAbsolute → host.isFile path →
    (Manifest.load host memo path).1 = (Manifest.load host other path).1

namespace Memo.Agree

variable {host : Host} {memo other third : Memo} {path : Path}

theorem refl (memo : Memo) : memo.Agree host memo :=
  fun _ _ _ => rfl

theorem symm (agree : memo.Agree host other) : other.Agree host memo :=
  fun path absolute isFile => (agree path absolute isFile).symm

theorem trans (agree : memo.Agree host other) (onward : other.Agree host third) :
    memo.Agree host third :=
  fun path absolute isFile => (agree path absolute isFile).trans (onward path absolute isFile)

/-- Memories that are true of the files answer alike. -/
theorem of_sound (sound : memo.Sound host) (otherSound : other.Sound host) :
    memo.Agree host other :=
  fun _ absolute isFile => (Manifest.load_fst absolute isFile sound).trans
    (Manifest.load_fst absolute isFile otherSound).symm

/-- A load leaves a memory that answers as before, whatever was remembered. -/
theorem load (absolute : path.isAbsolute) :
    memo.Agree host (Manifest.load host memo path).2 := by
  rcases Manifest.load_cases host memo path with
    ⟨_, -, eq⟩ | ⟨manifest, missing, reads, eq⟩ | ⟨-, -, eq⟩
  · rw [eq]
    exact refl memo
  · rw [eq]
    intro another otherAbsolute otherIsFile
    have grown : (memo.remember path manifest).find? another =
        (memo.find? another).or (List.lookup another.steps [(path.steps, manifest)]) :=
      List.lookup_append
    rw [Manifest.load_fst_eq, Manifest.load_fst_eq, grown]
    cases memo.find? another with
    | some known => rfl
    | none =>
        rw [Option.none_or]
        by_cases same : another.steps = path.steps
        · -- The file is there under the other spelling too, and says what was remembered.
          rw [Manifest.read_eq_of_steps otherAbsolute absolute same otherIsFile reads, same,
            List.lookup_cons_self]
          rfl
        · rw [List.lookup_cons, beq_false_of_ne same]
          rfl
  · rw [eq]
    exact refl memo

end Memo.Agree

/-! ### Lookups made of loads -/

namespace Lookup

variable {α β : Type}

/-- A lookup that goes on with what another one found, unless that one failed. -/
def andThen (first : Memo → Lookup α) (next : α → Memo → Lookup β) (memo : Memo) : Lookup β :=
  match first memo with
  | (.error error, memo) => (.error error, memo)
  | (.ok found, memo) => next found memo

/-- Two lookups one after the other end with the first if that fails, and with the second if not. -/
theorem andThen_cases (first : Memo → Lookup α) (next : α → Memo → Lookup β) (memo : Memo) :
    (∃ error, (first memo).1 = .error error ∧
        andThen first next memo = (.error error, (first memo).2)) ∨
      (∃ found, (first memo).1 = .ok found ∧
        andThen first next memo = next found (first memo).2) := by
  unfold andThen
  obtain ⟨error | found, after⟩ := first memo
  · exact .inl ⟨error, rfl, rfl⟩
  · exact .inr ⟨found, rfl, rfl⟩

/-- If both lookups together find something, the first does, and the second finds it from there. -/
theorem andThen_eq_ok {first : Memo → Lookup α} {next : α → Memo → Lookup β} {memo after : Memo}
    {answer : β} (eq : andThen first next memo = (.ok answer, after)) :
    ∃ found middle, first memo = (.ok found, middle) ∧ next found middle = (.ok answer, after) := by
  rw [andThen] at eq
  cases went : first memo with
  | mk result middle =>
      rw [went] at eq
      cases result with
      | error error => cases eq
      | ok found => exact ⟨found, middle, rfl, eq⟩

/-- If both together fail, the first fails, or the second does after it. -/
theorem andThen_eq_error {first : Memo → Lookup α} {next : α → Memo → Lookup β}
    {memo after : Memo} {error : LookupError}
    (eq : andThen first next memo = (.error error, after)) :
    first memo = (.error error, after) ∨
      ∃ found middle, first memo = (.ok found, middle) ∧
        next found middle = (.error error, after) := by
  rw [andThen] at eq
  cases went : first memo with
  | mk result middle =>
      rw [went] at eq
      cases result with
      | error failure =>
          cases eq
          exact .inl rfl
      | ok found => exact .inr ⟨found, middle, rfl, eq⟩

/-- An answer that was worked out from another one. -/
theorem bind_eq_ok {answer : Except LookupError α} {next : α → Except LookupError β} {found : β}
    (eq : answer >>= next = .ok found) : ∃ first, answer = .ok first ∧ next first = .ok found := by
  cases answer with
  | error error => cases eq
  | ok first => exact ⟨first, rfl, eq⟩

/-- A lookup whose answer has something to show was successful. -/
theorem eq_ok_of_toOption {lookup : Lookup α} {f : α → β} {shown : β}
    (eq : lookup.1.toOption.map f = some shown) :
    ∃ value after, lookup = (.ok value, after) ∧ f value = shown := by
  obtain ⟨result, after⟩ := lookup
  cases result with
  | error error => cases eq
  | ok value => exact ⟨value, after, rfl, Option.some.inj eq⟩

/-- A lookup that fails whatever its answer is turned into was not successful. -/
theorem eq_error_of_map {lookup : Lookup α} {f : α → β} {error : LookupError}
    (eq : lookup.1.map f = .error error) : ∃ after, lookup = (.error error, after) := by
  obtain ⟨result, after⟩ := lookup
  cases result with
  | error failure =>
      obtain rfl := Except.error.inj eq
      exact ⟨after, rfl⟩
  | ok value => cases eq

end Lookup

/-- A lookup that uses the memory for nothing but loading manifests, one after the other, each from an
absolute path where a file is. -/
inductive MadeOfLoads (host : Host) : {α : Type} → (Memo → Lookup α) → Prop where
  | answer {α : Type} (answer : Except LookupError α) : MadeOfLoads host fun memo => (answer, memo)
  | load {path : Path} (absolute : path.isAbsolute) (isFile : host.isFile path) :
      MadeOfLoads host fun memo => Manifest.load host memo path
  | andThen {α β : Type} {first : Memo → Lookup α} {next : α → Memo → Lookup β}
      (start : MadeOfLoads host first) (rest : ∀ found, MadeOfLoads host (next found)) :
      MadeOfLoads host (Lookup.andThen first next)

namespace MadeOfLoads

variable {host : Host} {α : Type} {lookup : Memo → Lookup α}

/-- The memory only grows. -/
theorem grows (made : MadeOfLoads host lookup) (memo : Memo) : memo <+: (lookup memo).2 := by
  induction made generalizing memo with
  | answer => exact List.prefix_refl memo
  | load => exact Manifest.grows_load
  | @andThen _ _ first next _ _ ihFirst ihNext =>
      rcases Lookup.andThen_cases first next memo with ⟨_, -, eq⟩ | ⟨found, -, eq⟩
      · rw [eq]
        exact ihFirst memo
      · rw [eq]
        exact (ihFirst memo).trans (ihNext found _)

/-- What is remembered stays true of the files. -/
theorem sound (made : MadeOfLoads host lookup) {memo : Memo} (sound : memo.Sound host) :
    (lookup memo).2.Sound host := by
  induction made generalizing memo with
  | answer => exact sound
  | load absolute => exact Manifest.sound_load absolute sound
  | @andThen _ _ first next _ _ ihFirst ihNext =>
      rcases Lookup.andThen_cases first next memo with ⟨_, -, eq⟩ | ⟨found, -, eq⟩
      · rw [eq]
        exact ihFirst sound
      · rw [eq]
        exact ihNext found (ihFirst sound)

/-- Afterwards every load has the answer that it would have had before. -/
theorem agree (made : MadeOfLoads host lookup) (memo : Memo) :
    memo.Agree host (lookup memo).2 := by
  induction made generalizing memo with
  | answer => exact .refl memo
  | load absolute => exact .load absolute
  | @andThen _ _ first next _ _ ihFirst ihNext =>
      rcases Lookup.andThen_cases first next memo with ⟨_, -, eq⟩ | ⟨found, -, eq⟩
      · rw [eq]
        exact ihFirst memo
      · rw [eq]
        exact (ihFirst memo).trans (ihNext found _)

/-- From memories that answer alike the answer is the same. -/
theorem fst_eq (made : MadeOfLoads host lookup) {memo other : Memo}
    (agree : memo.Agree host other) : (lookup memo).1 = (lookup other).1 := by
  induction made generalizing memo other with
  | answer => rfl
  | load absolute isFile => exact agree _ absolute isFile
  | @andThen _ _ first next start _ ihFirst ihNext =>
      have same := ihFirst agree
      rcases Lookup.andThen_cases first next memo with ⟨error, failed, eq⟩ | ⟨found, went, eq⟩
      · rcases Lookup.andThen_cases first next other with
          ⟨_, otherFailed, otherEq⟩ | ⟨_, otherWent, -⟩
        · rw [failed, otherFailed] at same
          rw [eq, otherEq]
          exact congrArg Except.error (Except.error.inj same)
        · rw [failed, otherWent] at same
          cases same
      · rcases Lookup.andThen_cases first next other with
          ⟨_, otherFailed, -⟩ | ⟨_, otherWent, otherEq⟩
        · rw [went, otherFailed] at same
          cases same
        · rw [went, otherWent] at same
          obtain rfl := Except.ok.inj same
          rw [eq, otherEq]
          exact ihNext found
            (((start.agree memo).symm.trans agree).trans (start.agree other))

/-- What a lookup goes on with answers as it would have at the start. -/
theorem fst_andThen {β : Type} {first : Memo → Lookup α} {next : α → Memo → Lookup β}
    (start : MadeOfLoads host first) (rest : ∀ found, MadeOfLoads host (next found)) (memo : Memo) :
    (Lookup.andThen first next memo).1 = (first memo).1 >>= fun found => (next found memo).1 := by
  rcases Lookup.andThen_cases first next memo with ⟨error, failed, eq⟩ | ⟨found, went, eq⟩
  · rw [eq, failed]
    rfl
  · rw [eq, went]
    exact ((rest found).fst_eq (start.agree memo)).symm

/-- A memory that is true of the files has no influence on the answer. -/
theorem transparent (made : MadeOfLoads host lookup) {memo other : Memo}
    (sound : memo.Sound host) (otherSound : other.Sound host) :
    (lookup memo).1 = (lookup other).1 :=
  made.fst_eq (.of_sound sound otherSound)

/-- What is made of loads is a matter of what the lookup does, not of how it is written. -/
theorem congr {other : Memo → Lookup α} (made : MadeOfLoads host other)
    (eq : ∀ memo, lookup memo = other memo) : MadeOfLoads host lookup := by
  rw [funext eq]
  exact made

end MadeOfLoads

/-! ### The lookups of a session -/

section Paths

variable {host : Host} {manifestFile name : String} {file : Location} {path : Path}

/-- The nearest manifest is a file with an absolute path. -/
theorem Manifest.nearest?_eq_some (found : Manifest.nearest? host manifestFile file = some path) :
    path.isAbsolute ∧ host.isFile path := by
  refine ⟨?_, List.find?_some found⟩
  have mem := List.mem_of_find?_eq_some found
  unfold Manifest.pathsAbove at mem
  split at mem
  · cases mem
  · obtain ⟨ancestor, -, rfl⟩ := List.mem_map.mp mem
    exact Path.isAbsolute_join ancestor.isAbsolute_path

/-- So is the manifest of a dependency that is found. -/
theorem Manifest.dependency?_eq_some
    (found : Manifest.dependency? host manifestFile name file = some path) :
    path.isAbsolute ∧ host.isFile path := by
  refine ⟨?_, List.find?_some found⟩
  obtain ⟨ancestor, -, rfl⟩ := List.mem_map.mp (List.mem_of_find?_eq_some found)
  exact Path.isAbsolute_join (Path.isAbsolute_join (Path.isAbsolute_join ancestor.isAbsolute_path))

end Paths

/-- The versions of packages as seen from a file, as far as they have one, one after the other. -/
def Manifest.versionsOf (host : Host) (manifestFile : String) (file : Path) :
    Memo → List String → Lookup (List (String × Option String))
  | memo, [] => (.ok [], memo)
  | memo, package :: rest =>
      match Manifest.ofPackage host manifestFile memo package file with
      | (.error error, memo) => (.error error, memo)
      | (.ok manifest, memo) =>
          match versionsOf host manifestFile file memo rest with
          | (.error error, memo) => (.error error, memo)
          | (.ok versions, memo) =>
              (.ok ((package, manifest.bind Manifest.version) :: versions), memo)

section Steps

variable {host : Host} {manifestFile : String} {memo : Memo}

/-- The constants of a file are those of the project whose manifest is loaded, or those of no project
when that says nothing. -/
theorem Constants.ofLocation_eq {now : String} {file : Location} {path : Path}
    (found : Manifest.nearest? host manifestFile file = some path)
    (other : path.steps ≠ file.names) :
    ofLocation host manifestFile now memo file =
      Lookup.andThen (fun memo => Manifest.load host memo path)
        (fun manifest? memo =>
          (.ok (manifest?.elim (outside now) fun manifest => inside now manifest path file), memo))
        memo := by
  unfold ofLocation Lookup.andThen
  rw [found]
  dsimp only
  rw [if_neg other]
  obtain ⟨_ | _ | _, _⟩ := Manifest.load host memo path <;> rfl

/-- A package that is no dependency is the project itself if it has that name. -/
theorem Manifest.ofPackageFrom_eq {name : String} {file : Location} {path : Path}
    (missing : dependency? host manifestFile name file = none)
    (found : nearest? host manifestFile file = some path) :
    ofPackageFrom host manifestFile memo name file =
      Lookup.andThen (fun memo => load host memo path)
        (fun manifest? memo =>
          (.ok (manifest?.filter fun manifest => manifest.name = some name), memo)) memo := by
  unfold ofPackageFrom Lookup.andThen
  rw [missing, found]
  dsimp only
  obtain ⟨_ | _ | manifest, _⟩ := load host memo path
  · rfl
  · rfl
  · simp only [Option.filter, decide_eq_true_eq]

/-- The versions of packages are looked up one after the other. -/
theorem Manifest.versionsOf_cons {file : Path} {package : String} {rest : List String} :
    versionsOf host manifestFile file memo (package :: rest) =
      Lookup.andThen (fun memo => ofPackage host manifestFile memo package file)
        (fun manifest? => Lookup.andThen (fun memo => versionsOf host manifestFile file memo rest)
          fun versions memo => (.ok ((package, manifest?.bind Manifest.version) :: versions), memo))
        memo := by
  rw [versionsOf, Lookup.andThen]
  obtain ⟨_ | _, after⟩ := ofPackage host manifestFile memo package file
  · rfl
  · dsimp only [Lookup.andThen]
    obtain ⟨_ | _, _⟩ := versionsOf host manifestFile file after rest <;> rfl

end Steps

namespace MadeOfLoads

variable (host : Host) (manifestFile : String)

/-- The constants of a location take at most one load. -/
theorem constants_ofLocation (now : String) (file : Location) :
    MadeOfLoads host fun memo => Constants.ofLocation host manifestFile now memo file := by
  cases found : Manifest.nearest? host manifestFile file with
  | none =>
      refine congr (.answer (.ok (.outside now))) fun memo => ?_
      simp [Constants.ofLocation, found]
  | some path =>
      by_cases own : path.steps = file.names
      · refine congr (.answer (.ok (.outside now))) fun memo => ?_
        simp [Constants.ofLocation, found, own]
      · obtain ⟨absolute, isFile⟩ := Manifest.nearest?_eq_some found
        exact congr (.andThen (.load absolute isFile) fun _ => .answer _)
          fun _ => Constants.ofLocation_eq found own

theorem constants_ofFile (now : String) (file : Path) :
    MadeOfLoads host fun memo => Constants.ofFile host manifestFile now memo file := by
  unfold Constants.ofFile
  cases host.locate? file with
  | none => exact .answer _
  | some location => exact constants_ofLocation host manifestFile now location

/-- Looking up a package takes at most one load. -/
theorem manifest_ofPackageFrom (name : String) (file : Location) :
    MadeOfLoads host fun memo => Manifest.ofPackageFrom host manifestFile memo name file := by
  cases dependency : Manifest.dependency? host manifestFile name file with
  | some path =>
      obtain ⟨absolute, isFile⟩ := Manifest.dependency?_eq_some dependency
      refine congr (.load absolute isFile) fun memo => ?_
      simp [Manifest.ofPackageFrom, dependency]
  | none =>
      cases found : Manifest.nearest? host manifestFile file with
      | none =>
          refine congr (.answer (.ok none)) fun memo => ?_
          simp [Manifest.ofPackageFrom, dependency, found]
      | some path =>
          obtain ⟨absolute, isFile⟩ := Manifest.nearest?_eq_some found
          exact congr (.andThen (.load absolute isFile) fun _ => .answer _)
            fun _ => Manifest.ofPackageFrom_eq dependency found

theorem manifest_ofPackage (name : String) (file : Path) :
    MadeOfLoads host fun memo => Manifest.ofPackage host manifestFile memo name file := by
  unfold Manifest.ofPackage
  split
  · cases host.locate? file with
    | none => exact .answer _
    | some location => exact manifest_ofPackageFrom host manifestFile name location
  · exact .answer _

/-- Looking up the versions of packages takes one load after the other. -/
theorem manifest_versionsOf (file : Path) (packages : List String) :
    MadeOfLoads host fun memo => Manifest.versionsOf host manifestFile file memo packages := by
  induction packages with
  | nil => exact .answer _
  | cons package rest ih =>
      exact congr (.andThen (manifest_ofPackage host manifestFile package file) fun _ =>
        .andThen ih fun _ => .answer _) fun _ => Manifest.versionsOf_cons

end MadeOfLoads

end Imprint

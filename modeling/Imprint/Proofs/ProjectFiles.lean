/-
Module: Imprint.Proofs.ProjectFiles
Purpose: File trees that hold the same project. The path of a location leads to a file when every
  directory on the way is there, no name and not the path as a whole is too long, and the file is at
  that location. So what is at the same places below two roots is all that matters, and the same
  change made below both roots keeps the project the same.
Main exports: FileSystem.file?_path_eq_some, FileSystem.IsRoot, Roots.SameTree,
  Roots.SameTree.place, Roots.SameTree.remove, Roots.SameTree.sameFiles
-/
import Imprint.Proofs.Relocation

namespace Imprint

namespace FileSystem

variable {files : FileSystem} {workingDirectory : Option Location} {names : List RawText}
  {file : File}

theorem follow?_name {start : List RawText} {name : RawText} (isName : Path.IsName name) :
    files.follow? start name =
      if files.isDirectory start ∧ name.size ≤ nameLimit then some (start ++ [name])
      else none := by
  unfold follow?
  rw [isName.moves, if_neg isName.down]
  cases files.isDirectory start <;> simp

/-- There is a directory on every step of the way from a location along some names. -/
def IsWay (files : FileSystem) (start names : List RawText) : Prop :=
  ∀ front, front <+: names → front ≠ names → files.isDirectory (start ++ front)

theorem isWay_nil (start : List RawText) : files.IsWay start [] := by
  intro front starts other
  exact absurd (List.prefix_nil.mp starts) other

theorem isWay_cons {start : List RawText} {name : RawText} {rest : List RawText} :
    files.IsWay start (name :: rest) ↔
      files.isDirectory start ∧ files.IsWay (start ++ [name]) rest := by
  constructor
  · intro way
    constructor
    · simpa using way [] List.nil_prefix (List.cons_ne_nil name rest).symm
    · intro front starts other
      rw [List.append_assoc]
      apply way (name :: front) (List.cons_prefix_cons.mpr ⟨rfl, starts⟩)
      exact fun eq => other (List.cons.inj eq).2
  · rintro ⟨here, way⟩ front starts other
    cases front with
    | nil => simpa using here
    | cons first inner =>
        obtain ⟨rfl, inside⟩ := List.cons_prefix_cons.mp starts
        have onward := way inner inside fun eq => other (congrArg (first :: ·) eq)
        rwa [List.append_assoc] at onward

/-- Names lead from a directory to where they say, if there is a directory on every step of the way. -/
theorem foldlM_follow?_eq_some (each : ∀ name ∈ names, Path.IsName name)
    {start finish : List RawText} :
    names.foldlM files.follow? start = some finish ↔
      finish = start ++ names ∧ (∀ name ∈ names, name.size ≤ nameLimit) ∧
        files.IsWay start names := by
  induction names generalizing start with
  | nil =>
      rw [List.foldlM_nil, List.append_nil]
      constructor
      · intro eq
        exact ⟨(Option.some.inj eq).symm, fun name mem => absurd mem List.not_mem_nil, isWay_nil start⟩
      · rintro ⟨rfl, -, -⟩
        rfl
  | cons name rest ih =>
      have inner := @ih (fun other mem => each other (List.mem_cons_of_mem name mem))
        (start ++ [name])
      rw [List.foldlM_cons, follow?_name (each name List.mem_cons_self), isWay_cons,
        List.forall_mem_cons]
      by_cases here : files.isDirectory start ∧ name.size ≤ nameLimit
      · rw [if_pos here, Option.bind_eq_bind, Option.bind_some, inner, List.append_assoc]
        simp [here]
      · rw [if_neg here]
        constructor
        · intro eq
          cases eq
        · rintro ⟨-, ⟨short, -⟩, directory, -⟩
          exact absurd ⟨directory, short⟩ here

/-- An absolute path that is not too long leads to the file at the location that its parts lead to. -/
theorem file?_eq_some_iff {path : Path} (absolute : path.isAbsolute) :
    files.file? workingDirectory path = some file ↔
      path.raw.size ≤ pathLimit ∧ RawText.nul ∉ path.raw.bytes ∧
        ∃ names, path.parts.foldlM files.follow? [] = some names ∧
          files.entry? names = some (.file file) := by
  have filled : path.raw.isEmpty = false := by
    rw [Path.isAbsolute_iff] at absolute
    cases empty : path.raw.isEmpty with
    | false => rfl
    | true =>
        rw [List.isEmpty_iff.mp empty] at absolute
        cases absolute
  unfold file?
  rw [filled, if_pos absolute]
  simp only [Option.bind_some]
  by_cases readable : path.raw.size ≤ pathLimit ∧ RawText.nul ∉ path.raw.bytes
  · rw [if_neg (by simp [readable, Nat.not_lt.mpr readable.1]), and_iff_right readable.1,
      and_iff_right readable.2]
    cases path.parts.foldlM files.follow? [] with
    | none => simp
    | some names =>
        dsimp only
        cases found : files.entry? names with
        | none => simp [found]
        | some entry => cases entry <;> simp [found]
  · have refused : path.raw.size > pathLimit ∨ RawText.nul ∈ path.raw.bytes := by
      by_contra fits
      apply readable
      constructor
      · exact Nat.not_lt.mp fun long => fits (.inl long)
      · exact fun nul => fits (.inr nul)
    rw [if_pos (by simpa using refused)]
    constructor
    · intro eq
      cases eq
    · rintro ⟨short, whole, -⟩
      exact absurd ⟨short, whole⟩ readable

/-- The path of a location leads to the file at that location, if it leads to any. -/
theorem file?_path_eq_some (proper : Location.IsProper ⟨names⟩) :
    files.file? workingDirectory (Location.path ⟨names⟩) = some file ↔
      (Location.path ⟨names⟩).raw.size ≤ pathLimit ∧
        (∀ name ∈ names, RawText.nul ∉ name.bytes) ∧
        (∀ name ∈ names, name.size ≤ nameLimit) ∧ files.IsWay [] names ∧
        files.entry? names = some (.file file) := by
  have readable : RawText.nul ∉ (Location.path ⟨names⟩).raw.bytes ↔
      ∀ name ∈ names, RawText.nul ∉ name.bytes := by
    have other : RawText.nul ∉ (RawText.ofText "/").bytes := by decide
    rw [Location.path, RawText.bytes_append, List.mem_append, RawText.mem_join other,
      or_iff_right other]
    simp
  have way : (Location.path ⟨names⟩).parts.foldlM files.follow? [] =
      names.foldlM files.follow? [] := by
    have stays : files.follow? [] "" = some [] := rfl
    by_cases below : names = []
    · subst below
      rfl
    · rw [Location.parts_path proper below, List.foldlM_cons, stays]
      rfl
  rw [file?_eq_some_iff (Location.isAbsolute_path ⟨names⟩), readable, way]
  constructor
  · rintro ⟨short, whole, found, reached, file⟩
    obtain ⟨rfl, fits, directories⟩ := (foldlM_follow?_eq_some proper).mp reached
    exact ⟨short, whole, fits, directories, file⟩
  · rintro ⟨short, whole, fits, directories, file⟩
    exact ⟨short, whole, names, (foldlM_follow?_eq_some proper).mpr ⟨rfl, fits, directories⟩, file⟩

/-- A location that a project can be kept in: a directory, like everything that it is in, and of a name
that can be followed. -/
structure IsRoot (files : FileSystem) (root : Location) : Prop where
  directories : ∀ front, front <+: root.names → files.isDirectory front
  noFile : ∀ file, files.entry? root.names ≠ some (.file file)
  short : ∀ name ∈ root.names, name.size ≤ nameLimit
  readable : ∀ name ∈ root.names, RawText.nul ∉ name.bytes

/-- The paths of all files in a location are short enough. -/
def Fits (files : FileSystem) (root : Location) : Prop :=
  ∀ names file, files.entry? (root.names ++ names) = some (.file file) →
    (Location.path ⟨root.names ++ names⟩).raw.size ≤ pathLimit

/-- There are directories on the way through a root when there are directories on the way from it. -/
theorem isWay_append {root : Location} (isRoot : files.IsRoot root) :
    files.IsWay [] (root.names ++ names) ↔ files.IsWay root.names names := by
  constructor
  · intro way front starts other
    apply way (root.names ++ front) ((List.prefix_append_right_inj root.names).mpr starts)
    exact fun eq => other (List.append_cancel_left eq)
  · intro way front starts other
    rw [List.nil_append]
    rcases List.prefix_or_prefix_of_prefix starts (List.prefix_append root.names names) with
      above | ⟨inner, rfl⟩
    · exact isRoot.directories front above
    · apply way inner ((List.prefix_append_right_inj root.names).mp starts)
      rintro rfl
      exact other rfl

/-! ### Changes below a root -/

section Changes

variable {root : Location}

theorem isPrefixOf_append (root front names : List RawText) :
    (root ++ front).isPrefixOf (root ++ names) = front.isPrefixOf names := by
  rw [Bool.eq_iff_iff, List.isPrefixOf_iff_prefix, List.isPrefixOf_iff_prefix,
    List.prefix_append_right_inj]

/-- A place below a root is not at the root nor above it. -/
theorem not_prefix_of_above (below : names ≠ []) {front : List RawText}
    (above : front <+: root.names) : ¬root.names ++ names <+: front := by
  intro longer
  have first := longer.length_le
  have second := above.length_le
  have positive := List.length_pos_iff.mpr below
  rw [List.length_append] at first
  omega

theorem isInside_of_above (below : names ≠ []) {front : List RawText}
    (above : front <+: root.names) : isInside (root.names ++ names) front := by
  have shorter := above.length_le
  have positive := List.length_pos_iff.mpr below
  have starts := above.trans (List.prefix_append root.names names)
  simp only [isInside, List.isPrefixOf_iff_prefix.mpr starts, List.length_append, Bool.true_and,
    decide_eq_true_eq]
  omega

theorem ne_of_above (below : names ≠ []) {front : List RawText} (above : front <+: root.names) :
    front ≠ root.names ++ names := by
  rintro rfl
  exact not_prefix_of_above below above (List.prefix_refl _)

theorem IsRoot.place (isRoot : files.IsRoot root) (below : names ≠ []) (file : File) :
    (files.place ⟨root.names ++ names⟩ file).IsRoot root where
  directories front above := by
    simp [isDirectory, FileSystem.place, ne_of_above below above, isInside_of_above below above]
  noFile file := by
    have above := List.prefix_refl root.names
    simp [FileSystem.place, isInside_of_above below above, below]
  short := isRoot.short
  readable := isRoot.readable

theorem IsRoot.remove (isRoot : files.IsRoot root) (below : names ≠ []) :
    (files.remove ⟨root.names ++ names⟩).IsRoot root where
  directories front above := by
    have kept := not_prefix_of_above below above
    simpa [isDirectory, FileSystem.remove, kept] using isRoot.directories front above
  noFile file := by
    have kept := not_prefix_of_above below (List.prefix_refl root.names)
    simpa [FileSystem.remove, kept] using isRoot.noFile file
  short := isRoot.short
  readable := isRoot.readable

theorem Fits.place (fits : files.Fits root)
    (short : (Location.path ⟨root.names ++ names⟩).raw.size ≤ pathLimit)
    (file : File) : (files.place ⟨root.names ++ names⟩ file).Fits root := by
  intro place content found
  simp only [FileSystem.place, List.append_cancel_left_eq] at found
  split at found
  · rename_i here
    rwa [here]
  · split at found
    · cases found
    · exact fits place content found

theorem Fits.remove (fits : files.Fits root) (location : Location) :
    (files.remove location).Fits root := by
  intro place content found
  simp only [FileSystem.remove] at found
  split at found
  · cases found
  · exact fits place content found

end Changes

end FileSystem

namespace Roots

variable {roots : Roots} {files other : FileSystem} {names : List RawText}

variable (roots) in
/-- File trees that hold the same below two roots. -/
structure SameTree (files other : FileSystem) : Prop where
  entries : ∀ names, names ≠ [] →
    files.entry? (roots.first.names ++ names) = other.entry? (roots.second.names ++ names)
  isFirst : files.IsRoot roots.first
  isSecond : other.IsRoot roots.second
  fitsFirst : files.Fits roots.first
  fitsSecond : other.Fits roots.second

namespace SameTree

/-- Two roots in file trees with nothing else. -/
theorem start (short : ∀ root ∈ [roots.first, roots.second], ∀ name ∈ root.names,
      name.size ≤ FileSystem.nameLimit ∧ RawText.nul ∉ name.bytes) :
    roots.SameTree (.makeDirectory .empty roots.first) (.makeDirectory .empty roots.second) := by
  have nothing (root : Location) (names : List RawText) (file : File) :
      FileSystem.entry? (.makeDirectory .empty root) names ≠ some (.file file) := by
    simp only [FileSystem.makeDirectory, FileSystem.empty]
    split <;> simp
  have isRoot (root : Location) (mem : root ∈ [roots.first, roots.second]) :
      (FileSystem.empty.makeDirectory root).IsRoot root := by
    refine ⟨?_, nothing root root.names, ?_, ?_⟩
    · intro front above
      have inside : front = root.names ∨ FileSystem.isInside root.names front := by
        by_cases here : front = root.names
        · exact .inl here
        · right
          have shorter : front.length < root.names.length :=
            Nat.lt_of_le_of_ne above.length_le fun eq => here (above.eq_of_length eq)
          simp [FileSystem.isInside, List.isPrefixOf_iff_prefix.mpr above, shorter]
      simp [FileSystem.isDirectory, FileSystem.makeDirectory, inside]
    · exact fun name among => (short root mem name among).1
    · exact fun name among => (short root mem name among).2
  have below (root : Location) (names : List RawText) (filled : names ≠ []) :
      FileSystem.entry? (.makeDirectory .empty root) (root.names ++ names) = none := by
    have outside : ¬FileSystem.isInside root.names (root.names ++ names) := by
      simp [FileSystem.isInside]
    simp [FileSystem.makeDirectory, FileSystem.empty, filled, outside]
  refine ⟨?_, isRoot _ (by simp), isRoot _ (by simp), ?_, ?_⟩
  · intro names filled
    rw [below _ names filled, below _ names filled]
  · exact fun names file found => absurd found (nothing _ _ file)
  · exact fun names file found => absurd found (nothing _ _ file)

/-- A file is written at one place below both roots. -/
theorem place (same : roots.SameTree files other) (below : names ≠ [])
    (short : ∀ root ∈ [roots.first, roots.second],
      (Location.path ⟨root.names ++ names⟩).raw.size ≤ FileSystem.pathLimit)
    (file : File) :
    roots.SameTree (files.place ⟨roots.first.names ++ names⟩ file)
      (other.place ⟨roots.second.names ++ names⟩ file) where
  entries place filled := by
    have inside (root : List RawText) : FileSystem.isInside (root ++ names) (root ++ place) =
        FileSystem.isInside names place := by
      simp [FileSystem.isInside, FileSystem.isPrefixOf_append]
    simp only [FileSystem.place, List.append_cancel_left_eq, inside, same.entries place filled]
  isFirst := same.isFirst.place below file
  isSecond := same.isSecond.place below file
  fitsFirst := same.fitsFirst.place (short _ (by simp)) file
  fitsSecond := same.fitsSecond.place (short _ (by simp)) file

/-- What is at one place below both roots is removed. -/
theorem remove (same : roots.SameTree files other) (below : names ≠ []) :
    roots.SameTree (files.remove ⟨roots.first.names ++ names⟩)
      (other.remove ⟨roots.second.names ++ names⟩) where
  entries place filled := by
    simp only [FileSystem.remove, FileSystem.isPrefixOf_append, same.entries place filled]
  isFirst := same.isFirst.remove below
  isSecond := same.isSecond.remove below
  fitsFirst := same.fitsFirst.remove _
  fitsSecond := same.fitsSecond.remove _

/-- The same with the roots exchanged. -/
theorem symm (same : roots.SameTree files other) :
    SameTree ⟨roots.second, roots.first, roots.isProper_second, roots.isProper_first⟩ other files :=
  ⟨fun names below => (same.entries names below).symm, same.isSecond, same.isFirst,
    same.fitsSecond, same.fitsFirst⟩

/-- What is a file below the first root is one below the second root. -/
theorem file?_eq_some (same : roots.SameTree files other)
    {workingDirectory otherDirectory : Option Location}
    (each : ∀ name ∈ names, Path.IsName name) {file : File}
    (found : files.file? workingDirectory (Location.path ⟨roots.first.names ++ names⟩) =
      some file) :
    other.file? otherDirectory (Location.path ⟨roots.second.names ++ names⟩) = some file := by
  obtain ⟨-, readable, short, way, there⟩ := (FileSystem.file?_path_eq_some
    (Location.isProper_append roots.isProper_first each)).mp found
  have below : names ≠ [] := by
    rintro rfl
    rw [List.append_nil] at there
    exact same.isFirst.noFile file there
  rw [same.entries names below] at there
  apply (FileSystem.file?_path_eq_some (Location.isProper_append roots.isProper_second each)).mpr
  refine ⟨same.fitsSecond names file there, ?_, ?_, ?_, there⟩
  · exact List.forall_mem_append.mpr
      ⟨same.isSecond.readable, (List.forall_mem_append.mp readable).2⟩
  · exact List.forall_mem_append.mpr ⟨same.isSecond.short, (List.forall_mem_append.mp short).2⟩
  · rw [FileSystem.isWay_append same.isSecond]
    rw [FileSystem.isWay_append same.isFirst] at way
    intro front starts unfinished
    have directory := way front starts unfinished
    by_cases here : front = []
    · subst here
      rw [List.append_nil]
      exact same.isSecond.directories _ (List.prefix_refl _)
    · unfold FileSystem.isDirectory at directory ⊢
      rw [same.entries front here] at directory
      simpa [here] using directory

/-- File trees that hold the same below two roots have the same files there. -/
theorem sameFiles {host copy : Host} (same : roots.SameTree host.files copy.files) :
    roots.SameFiles host copy := by
  rintro _ _ ⟨names, each, rfl, rfl⟩
  apply Option.ext
  intro file
  constructor
  · exact same.file?_eq_some each
  · exact same.symm.file?_eq_some each

end SameTree

end Roots

end Imprint

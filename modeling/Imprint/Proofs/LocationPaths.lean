/-
Module: Imprint.Proofs.LocationPaths
Purpose: Paths that are written out from locations. A name is a step that goes down and nowhere else. A
  location that is made of names is named by the path that is written out from it, goes on when names
  are joined to that path, and loses its last name with the parent of that path.
Main exports: Path.IsName, Location.IsProper, Location.steps_path, Location.join_path,
  Location.parent_path, Location.mem_beginnings
-/
import Imprint.Files.Location
import Imprint.Proofs.ShownTexts

namespace Imprint

/-! ### Names -/

namespace Path

/-- A step that goes down, and by one level. -/
structure IsName (name : RawText) : Prop where
  moves : isIdle name = false
  down : name ≠ ".."
  whole : RawText.slash ∉ name.bytes

instance (name : RawText) : Decidable (IsName name) :=
  decidable_of_iff (isIdle name = false ∧ name ≠ ".." ∧ RawText.slash ∉ name.bytes)
    ⟨fun ⟨moves, down, whole⟩ => ⟨moves, down, whole⟩,
      fun ⟨moves, down, whole⟩ => ⟨moves, down, whole⟩⟩

theorem not_isName_empty : ¬IsName "" := fun name => Bool.noConfusion name.moves

/-- A part of a path leads somewhere unless it is empty or a single dot. -/
theorem isIdle_eq_false {part : RawText} : isIdle part = false ↔ part ≠ "" ∧ part ≠ "." := by
  simp [isIdle]

/-- The texts that are names. -/
theorem isName_ofText {text : String} :
    IsName text ↔ text ≠ "" ∧ text ≠ "." ∧ text ≠ ".." ∧ '/' ∉ text.toList := by
  constructor
  · rintro ⟨moves, down, whole⟩
    rw [isIdle_eq_false, Ne, Ne, RawText.ofText_inj, RawText.ofText_inj] at moves
    rw [Ne, RawText.ofText_inj] at down
    rw [RawText.slash_mem_ofText] at whole
    exact ⟨moves.1, moves.2, down, whole⟩
  · rintro ⟨filled, stays, down, whole⟩
    refine ⟨isIdle_eq_false.mpr ⟨?_, ?_⟩, ?_, ?_⟩
    · rwa [Ne, RawText.ofText_inj]
    · rwa [Ne, RawText.ofText_inj]
    · rwa [Ne, RawText.ofText_inj]
    · rwa [RawText.slash_mem_ofText]

/-- A name is shown as a name. -/
theorem IsName.shown {name : RawText} (isName : IsName name) : IsName name.shown := by
  obtain ⟨moves, down, whole⟩ := isName
  obtain ⟨filled, stays⟩ := isIdle_eq_false.mp moves
  refine isName_ofText.mpr ⟨?_, ?_, ?_, ?_⟩
  · rwa [Ne, RawText.shown_eq_iff (by simp)]
  · rwa [Ne, RawText.shown_eq_iff (by simp)]
  · rwa [Ne, RawText.shown_eq_iff (by simp)]
  · rwa [RawText.slash_mem_shown]

variable {path : Path} {step : RawText}

/-- A step that does not lead up is a name. -/
theorem isName_of_mem_steps (mem : step ∈ path.steps) (down : step ≠ "..") : IsName step := by
  obtain ⟨part, moves⟩ := List.mem_filter.mp mem
  exact ⟨by simpa using moves, down, RawText.slash_not_mem_of_mem_split part⟩

/-- The steps of a path that goes on after a slash. -/
theorem steps_append (before after : RawText) :
    steps ⟨before ++ "/" ++ after⟩ = steps ⟨before⟩ ++ steps ⟨after⟩ := by
  rw [steps, steps, steps, ← List.filter_append, parts, RawText.split_append]
  rfl

/-- A path is absolute when it begins with a slash. -/
theorem isAbsolute_iff : path.isAbsolute ↔ path.raw.bytes.head? = some RawText.slash := by
  simp [isAbsolute]

/-- Names that are joined do not make an absolute path. -/
theorem isAbsolute_join_names {names : List RawText} (each : ∀ name ∈ names, IsName name) :
    isAbsolute ⟨RawText.join "/" names⟩ = false := by
  rw [Bool.eq_false_iff, Ne, isAbsolute_iff]
  by_cases filled : names = []
  · simp [filled, RawText.join]
  · apply RawText.head?_join filled fun name mem => (each name mem).whole
    intro first
    exact not_isName_empty (each "" (List.mem_of_head? first))

end Path

/-! ### Locations made of names -/

namespace Location

/-- Every step of the location is a name. -/
def IsProper (location : Location) : Prop := ∀ name ∈ location.names, Path.IsName name

instance (location : Location) : Decidable location.IsProper :=
  inferInstanceAs (Decidable (∀ name ∈ location.names, Path.IsName name))

variable {location : Location} {names more : List RawText} {name : RawText}

theorem isProper_root : root.IsProper := by
  intro name mem
  cases mem

/-- Going down by names from a proper location leads to a proper one. -/
theorem isProper_append (proper : IsProper ⟨names⟩) (each : ∀ name ∈ more, Path.IsName name) :
    IsProper ⟨names ++ more⟩ := by
  intro name mem
  rcases List.mem_append.mp mem with before | after
  · exact proper name before
  · exact each name after

/-- The path of a location below the root: an empty piece before the first slash, and then the names. -/
theorem raw_path (below : names ≠ []) :
    (path ⟨names⟩).raw = RawText.join "/" (("" : RawText) :: names) := by
  rw [path, RawText.join_cons _ below]
  rfl

theorem whole_of_proper (proper : IsProper ⟨names⟩) :
    ∀ piece ∈ ("" : RawText) :: names, RawText.slash ∉ piece.bytes := by
  intro piece mem
  rcases List.mem_cons.mp mem with rfl | inside
  · exact List.not_mem_nil
  · exact (proper piece inside).whole

/-- A location below the root is written with an empty part in front, and then its names. -/
theorem parts_path (proper : IsProper ⟨names⟩) (below : names ≠ []) :
    (path ⟨names⟩).parts = ("" : RawText) :: names := by
  rw [Path.parts, raw_path below]
  exact RawText.split_join (List.cons_ne_nil _ names) (whole_of_proper proper)

/-- The path of a location takes the steps of the location. -/
theorem steps_path (proper : IsProper ⟨names⟩) : (path ⟨names⟩).steps = names := by
  by_cases below : names = []
  · rw [below]
    rfl
  · rw [Path.steps, parts_path proper below, List.filter_cons_of_neg (by decide)]
    apply List.filter_eq_self.mpr
    intro name mem
    rw [(proper name mem).moves]
    rfl

/-- Names that are joined to the path of a location go on from the location. -/
theorem join_path (proper : IsProper ⟨names⟩) (each : ∀ name ∈ more, Path.IsName name)
    (filled : more ≠ []) : (path ⟨names⟩).join ⟨RawText.join "/" more⟩ = path ⟨names ++ more⟩ := by
  have relative := Path.isAbsolute_join_names each
  by_cases below : names = []
  · subst below
    simp [Path.join, relative, path, RawText.join]
  · have ends : (path ⟨names⟩).raw.bytes.getLast? ≠ some RawText.slash := by
      rw [raw_path below]
      apply RawText.getLast?_join (List.cons_ne_nil _ names) (whole_of_proper proper)
      intro last
      rw [List.getLast?_cons_of_ne_nil below] at last
      exact Path.not_isName_empty (proper "" (List.mem_of_getLast? last))
    have some_bytes : (path ⟨names⟩).raw.isEmpty = false := by simp [path, RawText.isEmpty]
    rw [Path.join, if_neg (by simp [relative]), if_neg (by simp [some_bytes, ends])]
    simp only [path, RawText.join_append below filled, RawText.append_assoc]

/-- A name joined to the path of a location leads one step down. -/
theorem join_name (proper : location.IsProper) (isName : Path.IsName name) :
    location.path.join ⟨name⟩ = path ⟨location.names ++ [name]⟩ := by
  have each : ∀ other ∈ [name], Path.IsName other := by simpa using isName
  exact join_path proper each (List.cons_ne_nil name [])

/-- The parent of the path of a location is the path of the directory that it is in. -/
theorem parent_path (proper : IsProper ⟨names ++ [name]⟩) :
    (path ⟨names ++ [name]⟩).parent = path ⟨names⟩ := by
  have moves : Path.isIdle name = false := (proper name (by simp)).moves
  have ends : (path ⟨names ++ [name]⟩).parts.reverse = name :: (names.reverse ++ [("" : RawText)]) := by
    rw [parts_path proper (by simp)]
    simp
  unfold Path.parent
  simp only [ends, List.dropWhile_cons, moves, Bool.false_eq_true, if_false, List.drop_one,
    List.tail_cons]
  rcases List.eq_nil_or_concat names with rfl | ⟨front, last, rfl⟩
  · simp [Path.isIdle, path, Path.isAbsolute, RawText.join]
  · have stays : Path.isIdle last = false := (proper last (by simp)).moves
    have below : front ++ [last] ≠ [] := by simp
    have raw := raw_path below
    simp [stays, path] at raw ⊢
    exact raw.symm

/-! ### The location that a path names -/

/-- Steps that all lead down are put behind one another. -/
theorem foldl_step (down : ∀ step ∈ more, step ≠ "..") (names : List RawText) :
    more.foldl step names = names ++ more := by
  induction more generalizing names with
  | nil => simp
  | cons first rest ih =>
      have isDown : step names first = names ++ [first] := if_neg (down first List.mem_cons_self)
      rw [List.foldl_cons, isDown, ih fun step mem => down step (List.mem_cons_of_mem first mem)]
      simp

/-- A path names a location that is made of names, as seen from another one. -/
theorem isProper_resolve (proper : location.IsProper) (path : Path) :
    (location.resolve path).IsProper := by
  have inner (steps start : List RawText) (each : ∀ step ∈ steps, step ≠ ".." → Path.IsName step)
      (start' : IsProper ⟨start⟩) : IsProper ⟨steps.foldl step start⟩ := by
    induction steps generalizing start with
    | nil => exact start'
    | cons first rest ih =>
        apply ih _ fun step mem => each step (List.mem_cons_of_mem first mem)
        unfold step
        split
        · exact fun name mem => start' name (List.dropLast_subset start mem)
        · rename_i down
          apply isProper_append start'
          simpa using each first List.mem_cons_self down
  apply inner
  · exact fun step mem down => Path.isName_of_mem_steps mem down
  · split
    · exact isProper_root
    · exact proper

/-! ### Directories above a location -/

/-- The beginnings of a list are what it starts with. -/
theorem mem_beginnings {front names : List RawText} : front ∈ beginnings names ↔ front <+: names := by
  induction names generalizing front with
  | nil => simp [beginnings]
  | cons name rest ih =>
      rw [beginnings, List.mem_append, List.mem_map]
      constructor
      · rintro (⟨inner, mem, rfl⟩ | empty)
        · exact List.cons_prefix_cons.mpr ⟨rfl, ih.mp mem⟩
        · rw [List.mem_singleton.mp empty]
          exact List.nil_prefix
      · intro starts
        cases front with
        | nil => exact .inr List.mem_cons_self
        | cons first inner =>
            obtain ⟨rfl, inside⟩ := List.cons_prefix_cons.mp starts
            exact .inl ⟨inner, ih.mpr inside, rfl⟩

theorem beginnings_eq_cons (names : List RawText) :
    beginnings names = names :: (beginnings names).tail := by
  induction names with
  | nil => rfl
  | cons name rest ih =>
      rw [beginnings, ih]
      rfl

/-- The beginnings of two lists in a row: those that reach into the second list, and then those of the
first list that do not reach its end. -/
theorem beginnings_append (front rest : List RawText) :
    beginnings (front ++ rest) =
      (beginnings rest).map (front ++ ·) ++ (beginnings front).tail := by
  induction front with
  | nil => simp [beginnings]
  | cons name front ih =>
      rw [List.cons_append, beginnings, ih, beginnings, beginnings_eq_cons front]
      simp

/-- The beginnings that do not reach the end are those of the list without its last element. -/
theorem tail_beginnings {names : List RawText} (filled : names ≠ []) :
    (beginnings names).tail = beginnings names.dropLast := by
  rcases List.eq_nil_or_concat names with rfl | ⟨front, last, rfl⟩
  · exact absurd rfl filled
  · rw [List.concat_eq_append, beginnings_append, List.dropLast_concat, beginnings_eq_cons front]
    simp [beginnings]

/-- What follows a beginning does not depend on what stands before both. -/
theorem after?_append (front inner names : List RawText) :
    after? (front ++ inner) (front ++ names) = after? inner names := by
  induction front with
  | nil => rfl
  | cons name front ih => rw [List.cons_append, List.cons_append, after?, if_pos rfl, ih]

/-- Something is left behind every beginning. -/
theorem isSome_after? {front names : List RawText} (starts : front <+: names) :
    (after? front names).isSome := by
  obtain ⟨rest, rfl⟩ := starts
  have same := after?_append front [] rest
  rw [List.append_nil] at same
  rw [same]
  rfl

/-- What a place below a directory is called from there does not depend on what is above both. -/
theorem relativeText_append {above front place : List RawText} (proper : IsProper ⟨above ++ front⟩)
    (below : front <+: place) :
    relativeText (path ⟨above ++ front⟩) ⟨above ++ place⟩ =
      "/" ++ Text.join "/" (((after? front place).getD place).map RawText.shown) := by
  obtain ⟨rest, found⟩ := Option.isSome_iff_exists.mp (isSome_after? below)
  rw [relativeText, steps_path proper, after?_append, found]
  rfl

/-- The ancestors of a location are the locations that its names start with. -/
theorem mem_ancestors {directory location : Location} :
    directory ∈ location.ancestors ↔ directory.names <+: location.names := by
  rw [ancestors, List.mem_map]
  constructor
  · rintro ⟨names, mem, rfl⟩
    exact mem_beginnings.mp mem
  · intro starts
    exact ⟨directory.names, mem_beginnings.mpr starts, rfl⟩

/-- The ancestors of a proper location are proper. -/
theorem isProper_of_mem_ancestors {directory : Location} (proper : location.IsProper)
    (mem : directory ∈ location.ancestors) : directory.IsProper := by
  intro name inside
  exact proper name ((mem_ancestors.mp mem).subset inside)

end Location

end Imprint

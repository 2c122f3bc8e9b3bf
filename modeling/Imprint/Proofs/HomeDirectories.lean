/-
Module: Imprint.Proofs.HomeDirectories
Purpose: The home of a file is the nearest directory above it that has a manifest file. The search for a
  manifest finds the home or nothing, and the constants of a file are those of its home: the directory,
  and the way from there to the file, name by name as they are shown. The shown way leads to the file
  when its names are texts. A file without a home has no such constants, nor has the manifest file
  itself or a file whose home has a manifest that says nothing.
Main exports: Location.IsAbove, Location.find?_beginnings, IsHome, Manifest.nearest?_eq_some_iff,
  Manifest.nearest?_eq_none_iff, Constants.ofLocation_of_home, Constants.LeadTo,
  constants_lead_to_file
-/
import Imprint.Proofs.PackageLookups

namespace Imprint

/-! ### Directories above a location -/

namespace Location

variable {directory other location : Location}

/-- A directory is above a location: the location lies in it, at any depth. -/
def IsAbove (directory location : Location) : Prop :=
  directory.names <+: location.names ∧ directory.names ≠ location.names

instance (directory location : Location) : Decidable (directory.IsAbove location) :=
  inferInstanceAs (Decidable (_ ∧ _))

theorem IsAbove.isProper (above : directory.IsAbove location) (proper : location.IsProper) :
    directory.IsProper :=
  fun name mem => proper name (above.1.subset mem)

/-- There are some names on the way from a directory to what lies in it. -/
theorem IsAbove.exists_names (above : directory.IsAbove location) :
    ∃ names, names ≠ [] ∧ directory.names ++ names = location.names := by
  obtain ⟨⟨names, eq⟩, other⟩ := above
  refine ⟨names, ?_, eq⟩
  rintro rfl
  exact other (by rw [← eq, List.append_nil])

theorem IsAbove.names_ne_nil (above : directory.IsAbove location) : location.names ≠ [] := by
  intro root
  obtain ⟨starts, other⟩ := above
  rw [root] at starts other
  exact other (List.prefix_nil.mp starts)

/-- What is above a location is an ancestor of its parent. -/
theorem isAbove_iff_prefix_dropLast (filled : location.names ≠ []) :
    directory.IsAbove location ↔ directory.names <+: location.names.dropLast := by
  constructor
  · intro above
    obtain ⟨names, filledBelow, eq⟩ := above.exists_names
    rw [← eq, List.dropLast_append_of_ne_nil filledBelow]
    exact List.prefix_append _ _
  · intro starts
    refine ⟨starts.trans (List.dropLast_prefix _), fun eq => ?_⟩
    have shorter := starts.length_le
    have positive := List.length_pos_iff.mpr filled
    rw [eq, List.length_dropLast] at shorter
    omega

/-- The beginnings of a list get shorter and shorter. -/
theorem pairwise_beginnings (names : List RawText) :
    (beginnings names).Pairwise fun longer shorter => shorter <+: longer ∧ shorter ≠ longer := by
  induction names with
  | nil => exact List.pairwise_singleton _ _
  | cons name rest ih =>
      rw [beginnings, List.pairwise_append, List.pairwise_map]
      refine ⟨?_, List.pairwise_singleton _ _, ?_⟩
      · apply ih.imp
        rintro longer shorter ⟨starts, other⟩
        exact ⟨List.cons_prefix_cons.mpr ⟨rfl, starts⟩, fun eq => other (List.cons.inj eq).2⟩
      · intro longer mem shorter last
        obtain ⟨inner, -, rfl⟩ := List.mem_map.mp mem
        rw [List.mem_singleton.mp last]
        exact ⟨List.nil_prefix, (List.cons_ne_nil name inner).symm⟩

/-- The first of the beginnings with some property is the longest one that has it. -/
theorem find?_beginnings {p : List RawText → Bool} {names front : List RawText} :
    (beginnings names).find? p = some front ↔
      front <+: names ∧ p front ∧
        ∀ longer, longer <+: names → front <+: longer → front ≠ longer → p longer = false := by
  have ordered := pairwise_beginnings names
  rw [List.find?_eq_some_iff_append]
  constructor
  · rintro ⟨holds, before, after, eq, refused⟩
    rw [eq, List.pairwise_append, List.pairwise_cons] at ordered
    have starts : front <+: names := mem_beginnings.mp (by simp [eq])
    refine ⟨starts, holds, fun longer within begins other => ?_⟩
    have mem : longer ∈ before ++ front :: after := eq ▸ mem_beginnings.mpr within
    rcases List.mem_append.mp mem with earlier | here
    · simpa using refused longer earlier
    · rcases List.mem_cons.mp here with same | later
      · exact absurd same.symm other
      · -- What comes later is shorter.
        have shorter := (ordered.2.1.1 longer later).1.length_le
        exact absurd (begins.eq_of_length (Nat.le_antisymm begins.length_le shorter)) other
  · rintro ⟨starts, holds, longest⟩
    obtain ⟨before, after, eq⟩ := List.append_of_mem (mem_beginnings.mpr starts)
    refine ⟨holds, before, after, eq, fun longer mem => ?_⟩
    have within : longer <+: names := mem_beginnings.mp (by simp [eq, mem])
    rw [eq, List.pairwise_append] at ordered
    obtain ⟨begins, other⟩ := ordered.2.2 longer mem front List.mem_cons_self
    simpa using longest longer within begins other

end Location

/-! ### The home of a file -/

/-- The home of a file: a directory above it that has a manifest file, with no other one in between. -/
structure IsHome (host : Host) (manifestFile : String) (file directory : Location) : Prop where
  above : directory.IsAbove file
  holds : host.isFile (Manifest.atHome manifestFile directory)
  nearest : ∀ other : Location, other.IsAbove file → directory.IsAbove other →
    host.isFile (Manifest.atHome manifestFile other) = false

/-- No directory above a file has a manifest file. -/
def IsHomeless (host : Host) (manifestFile : String) (file : Location) : Prop :=
  ∀ directory : Location, directory.IsAbove file →
    host.isFile (Manifest.atHome manifestFile directory) = false

/-- The directory that a file lies in without any other in between is its home, if it has a manifest
file. -/
theorem isHome_of_holds {host : Host} {manifestFile : String} {names : List RawText} {name : RawText}
    (holds : host.isFile (Manifest.atHome manifestFile ⟨names⟩)) :
    IsHome host manifestFile ⟨names ++ [name]⟩ ⟨names⟩ where
  above := ⟨List.prefix_append names [name], by simp⟩
  holds := holds
  nearest other within begins := by
    have starts : other.names <+: names := by
      simpa using (Location.isAbove_iff_prefix_dropLast within.names_ne_nil).mp within
    exact absurd (begins.1.eq_of_length (Nat.le_antisymm begins.1.length_le starts.length_le)) begins.2

namespace Manifest

variable {host : Host} {manifestFile : String} {file : Location} {path : Path}

theorem steps_atHome (plain : Path.IsName manifestFile) {directory : Location}
    (proper : directory.IsProper) :
    (atHome manifestFile directory).steps = directory.names ++ [(manifestFile : RawText)] :=
  Location.steps_path (Location.isProper_append proper (by simpa using plain))

/-- Nothing lies above the root. -/
theorem nearest?_of_root (root : file.names = []) : nearest? host manifestFile file = none := by
  obtain ⟨names⟩ := file
  obtain rfl : names = [] := root
  rfl

/-- The search for a manifest goes through the beginnings of what a file lies in. -/
theorem nearest?_eq_find? (plain : Path.IsName manifestFile) (proper : file.IsProper)
    (filled : file.names ≠ []) :
    nearest? host manifestFile file =
      ((Location.beginnings file.names.dropLast).find? fun front =>
        host.isFile (atHome manifestFile ⟨front⟩)).map fun front => atHome manifestFile ⟨front⟩ := by
  have parent : file.parent? = some ⟨file.names.dropLast⟩ := by
    simp [Location.parent?, filled]
  rw [nearest?, pathsAbove_eq parent proper plain, directories, parent, Option.getD_some,
    Location.ancestors, List.map_map, List.find?_map]
  rfl

/-- The search for a manifest ends at the home of the file. -/
theorem nearest?_eq_some_iff (plain : Path.IsName manifestFile) (proper : file.IsProper) :
    nearest? host manifestFile file = some path ↔
      ∃ directory, IsHome host manifestFile file directory ∧ path = atHome manifestFile directory := by
  by_cases filled : file.names = []
  · rw [nearest?_of_root filled]
    constructor
    · intro found
      cases found
    · rintro ⟨directory, home, -⟩
      exact absurd filled home.above.names_ne_nil
  rw [nearest?_eq_find? plain proper filled, Option.map_eq_some_iff]
  constructor
  · rintro ⟨front, found, rfl⟩
    obtain ⟨starts, holds, longest⟩ := Location.find?_beginnings.mp found
    refine ⟨⟨front⟩, ⟨(Location.isAbove_iff_prefix_dropLast filled).mpr starts, holds, ?_⟩, rfl⟩
    intro other within begins
    exact longest other.names ((Location.isAbove_iff_prefix_dropLast filled).mp within) begins.1 begins.2
  · rintro ⟨directory, home, rfl⟩
    refine ⟨directory.names, Location.find?_beginnings.mpr ⟨?_, home.holds, ?_⟩, rfl⟩
    · exact (Location.isAbove_iff_prefix_dropLast filled).mp home.above
    · intro longer within begins other
      exact home.nearest ⟨longer⟩ ((Location.isAbove_iff_prefix_dropLast filled).mpr within)
        ⟨begins, other⟩

theorem nearest?_eq_none_iff (plain : Path.IsName manifestFile) (proper : file.IsProper) :
    nearest? host manifestFile file = none ↔ IsHomeless host manifestFile file := by
  by_cases filled : file.names = []
  · exact iff_of_true (nearest?_of_root filled) fun directory above =>
      absurd filled above.names_ne_nil
  rw [nearest?_eq_find? plain proper filled, Option.map_eq_none_iff, List.find?_eq_none]
  constructor
  · intro none directory above
    have starts := (Location.isAbove_iff_prefix_dropLast filled).mp above
    simpa using none directory.names (Location.mem_beginnings.mpr starts)
  · intro homeless front mem
    have above : (⟨front⟩ : Location).IsAbove file :=
      (Location.isAbove_iff_prefix_dropLast filled).mpr (Location.mem_beginnings.mp mem)
    simpa using homeless ⟨front⟩ above

end Manifest

/-! ### The constants of a file -/

theorem exists_home_or_homeless {host : Host} {manifestFile : String} {file : Location}
    (plain : Path.IsName manifestFile) (proper : file.IsProper) :
    (∃ directory, IsHome host manifestFile file directory) ∨ IsHomeless host manifestFile file := by
  cases found : Manifest.nearest? host manifestFile file with
  | none => exact .inr ((Manifest.nearest?_eq_none_iff plain proper).mp found)
  | some path =>
      obtain ⟨directory, home, -⟩ := (Manifest.nearest?_eq_some_iff plain proper).mp found
      exact .inl ⟨directory, home⟩

namespace Constants

section Homes

variable {host : Host} {manifestFile now : String} {memo after : Memo} {file directory : Location}
  {constants : Constants}

/-- Constants that are not those of a file outside every project come from the nearest manifest. -/
theorem exists_nearest_of_ofLocation
    (found : ofLocation host manifestFile now memo file = (.ok constants, after))
    (project : constants.isOutside = false) :
    ∃ path manifest, Manifest.nearest? host manifestFile file = some path ∧
      path.steps ≠ file.names ∧
      Manifest.load host memo path = (.ok (some manifest), after) ∧
      constants = .inside now manifest path file := by
  have notOutside : constants ≠ .outside now := by
    rintro rfl
    cases project
  cases nearest : Manifest.nearest? host manifestFile file with
  | none =>
      rw [ofLocation, nearest] at found
      exact absurd (Except.ok.inj (Prod.mk.inj found).1).symm notOutside
  | some path =>
      by_cases own : path.steps = file.names
      · rw [ofLocation, nearest] at found
        dsimp only at found
        rw [if_pos own] at found
        exact absurd (Except.ok.inj (Prod.mk.inj found).1).symm notOutside
      · rw [ofLocation_eq nearest own] at found
        obtain ⟨manifest?, middle, loaded, eq⟩ := Lookup.andThen_eq_ok found
        obtain ⟨same, rfl⟩ := Prod.mk.inj eq
        obtain rfl := Except.ok.inj same
        cases manifest? with
        | none => exact absurd rfl notOutside
        | some manifest => exact ⟨path, manifest, rfl, own, loaded, rfl⟩

variable (plain : Path.IsName manifestFile) (proper : file.IsProper)

include plain proper

theorem ofLocation_of_homeless (homeless : IsHomeless host manifestFile file) :
    ofLocation host manifestFile now memo file = (.ok (.outside now), memo) := by
  unfold ofLocation
  rw [(Manifest.nearest?_eq_none_iff plain proper).mpr homeless]

theorem ofLocation_of_own (home : IsHome host manifestFile file directory)
    (own : file.names = directory.names ++ [(manifestFile : RawText)]) :
    ofLocation host manifestFile now memo file = (.ok (.outside now), memo) := by
  have steps := Manifest.steps_atHome plain (home.above.isProper proper)
  unfold ofLocation
  rw [(Manifest.nearest?_eq_some_iff plain proper).mpr ⟨directory, home, rfl⟩]
  dsimp only
  rw [if_pos (steps.trans own.symm)]

/-- The constants of a file other than the manifest file of its home are up to the manifest that is
loaded there. -/
theorem ofLocation_of_home (home : IsHome host manifestFile file directory)
    (other : file.names ≠ directory.names ++ [(manifestFile : RawText)]) :
    ofLocation host manifestFile now memo file =
      Lookup.andThen
        (fun memo => Manifest.load host memo (Manifest.atHome manifestFile directory))
        (fun manifest? memo =>
          (.ok (manifest?.elim (outside now) fun manifest =>
            inside now manifest (Manifest.atHome manifestFile directory) file), memo)) memo := by
  have steps := Manifest.steps_atHome plain (home.above.isProper proper)
  apply ofLocation_eq
  · exact (Manifest.nearest?_eq_some_iff plain proper).mpr ⟨directory, home, rfl⟩
  · rw [steps]
    exact other.symm

/-- Only a file whose home has a manifest that says something has constants of its own. -/
theorem ofLocation_eq_inside
    (found : ofLocation host manifestFile now memo file = (.ok constants, after))
    (project : constants.isOutside = false) :
    ∃ directory manifest, IsHome host manifestFile file directory ∧
      file.names ≠ directory.names ++ [(manifestFile : RawText)] ∧
      Manifest.load host memo (Manifest.atHome manifestFile directory) =
        (.ok (some manifest), after) ∧
      constants = .inside now manifest (Manifest.atHome manifestFile directory) file := by
  obtain ⟨path, manifest, nearest, other, loaded, rfl⟩ := exists_nearest_of_ofLocation found project
  obtain ⟨directory, home, rfl⟩ := (Manifest.nearest?_eq_some_iff plain proper).mp nearest
  rw [Manifest.steps_atHome plain (home.above.isProper proper)] at other
  exact ⟨directory, manifest, home, other.symm, loaded, rfl⟩

end Homes

/-- The constants of a file lead from a directory to the file, name by name. -/
structure LeadTo (constants : Constants) (directory file : Location) (names : List RawText) :
    Prop where
  filled : names ≠ []
  named : ∀ name ∈ names, Path.IsName name
  whole : directory.names ++ names = file.names
  joined : directory.path.join ⟨RawText.join "/" names⟩ = file.path
  start : constants.directory = some directory.path
  /-- What the constants say are the names as they are shown, and these are names too. -/
  shown : ∀ name ∈ names.map RawText.shown, Path.IsName name
  filename : constants.filename = some ("/" ++ Text.join "/" (names.map RawText.shown))
  dirname : constants.dirname = some ("/" ++ Text.join "/" (names.map RawText.shown).dropLast)
  /-- The shown names lead to the file as well exactly when each name is a text. -/
  exact : directory.path.join ⟨Text.join "/" (names.map RawText.shown)⟩ = file.path ↔
    ∀ name ∈ names, ∃ text : String, name = text

theorem relativeText_below {directory : Location} (proper : directory.IsProper)
    (names : List RawText) :
    Location.relativeText directory.path ⟨directory.names ++ names⟩ =
      "/" ++ Text.join "/" (names.map RawText.shown) := by
  obtain ⟨above⟩ := directory
  have within : Location.IsProper ⟨above ++ []⟩ := by rwa [List.append_nil]
  have same := Location.relativeText_append within (List.nil_prefix (l := names))
  rw [List.append_nil] at same
  exact same

/-- Names that are joined as they are shown lead to where the names lead when each name is a text, and
elsewhere otherwise. -/
theorem join_shown_eq_iff {directory : Location} {names : List RawText}
    (proper : directory.IsProper) (named : ∀ name ∈ names, Path.IsName name) (filled : names ≠ []) :
    directory.path.join ⟨Text.join "/" (names.map RawText.shown)⟩ =
        Location.path ⟨directory.names ++ names⟩ ↔
      ∀ name ∈ names, ∃ text : String, name = text := by
  have shown : ∀ name ∈ (names.map RawText.shown).map RawText.ofText, Path.IsName name := by
    intro name mem
    obtain ⟨text, inner, rfl⟩ := List.mem_map.mp mem
    obtain ⟨origin, inside, rfl⟩ := List.mem_map.mp inner
    exact (named origin inside).shown
  rw [RawText.ofText_join, Location.join_path proper shown (by simpa using filled)]
  constructor
  · intro same name mem
    have steps := congrArg Path.steps same
    rw [Location.steps_path (Location.isProper_append proper shown),
      Location.steps_path (Location.isProper_append proper named), List.append_cancel_left_eq,
      List.map_map] at steps
    have kept : names.map (RawText.ofText ∘ RawText.shown) = names.map id := by
      rw [steps, List.map_id]
    exact ⟨name.shown, (List.map_inj_left.mp kept name mem).symm⟩
  · intro texts
    have kept : (names.map RawText.shown).map RawText.ofText = names.map id := by
      rw [List.map_map]
      exact List.map_congr_left fun name mem => RawText.ofText_shown (texts name mem)
    rw [kept, List.map_id]

/-- The constants of a file in a project lead from a directory above the file to it. -/
theorem leadTo_inside {manifestFile now : String} {manifest : Manifest}
    {file directory : Location} (plain : Path.IsName manifestFile) (proper : file.IsProper)
    (above : directory.IsAbove file) :
    ∃ names, (inside now manifest (Manifest.atHome manifestFile directory) file).LeadTo directory
      file names := by
  obtain ⟨names, filled, whole⟩ := above.exists_names
  have properAbove := above.isProper proper
  obtain ⟨all⟩ := file
  obtain rfl : directory.names ++ names = all := whole
  have named : ∀ name ∈ names, Path.IsName name :=
    fun name mem => proper name (List.mem_append_right _ mem)
  have parent : (Manifest.atHome manifestFile directory).parent = directory.path :=
    Location.parent_path (Location.isProper_append properAbove (by simpa using plain))
  have inner : Location.parent? ⟨directory.names ++ names⟩ =
      some ⟨directory.names ++ names.dropLast⟩ := by
    simp [Location.parent?, filled, List.dropLast_append_of_ne_nil filled]
  exact ⟨names, {
    filled := filled
    named := named
    whole := rfl
    joined := Location.join_path properAbove named filled
    start := congrArg some parent
    shown := by
      intro name mem
      obtain ⟨origin, inside, rfl⟩ := List.mem_map.mp mem
      exact (named origin inside).shown
    filename := congrArg some ((congrArg (Location.relativeText · _) parent).trans
      (relativeText_below properAbove names))
    dirname := by
      show Option.map _ (Location.parent? _) = _
      rw [inner, Option.map_some, ← List.map_dropLast]
      exact congrArg some ((congrArg (Location.relativeText · _) parent).trans
        (relativeText_below properAbove names.dropLast))
    exact := join_shown_eq_iff properAbove named filled }⟩

end Constants

/-- The constants of a file in a project name its home and lead from there to the file, by names that are
shown as texts; every other file in a home from which a manifest is loaded is in its project. A file
without a home has no such constants, nor has the manifest file of a home, or a file in whose home the
manifest says nothing and nothing is remembered of it, whatever there is further up. -/
theorem constants_lead_to_file {host : Host} {manifestFile now : String}
    (plain : Path.IsName manifestFile)
    (proper : ∀ base, host.workingDirectory = some base → base.IsProper) {file : Path}
    {location : Location} (located : host.locate? file = some location) (memo : Memo) :
    (∀ constants after,
        Constants.ofFile host manifestFile now memo file = (.ok constants, after) →
        constants.isOutside = false →
        ∃ directory names, IsHome host manifestFile location directory ∧
          constants.LeadTo directory location names) ∧
      (∀ directory manifest after, IsHome host manifestFile location directory →
        location.names ≠ directory.names ++ [(manifestFile : RawText)] →
        Manifest.load host memo (Manifest.atHome manifestFile directory) =
            (.ok (some manifest), after) →
        ∃ constants, Constants.ofFile host manifestFile now memo file = (.ok constants, after) ∧
          constants.manifest = some manifest) ∧
      (IsHomeless host manifestFile location →
        Constants.ofFile host manifestFile now memo file = (.ok (.outside now), memo)) ∧
      ∀ directory, IsHome host manifestFile location directory →
        (location.names = directory.names ++ [(manifestFile : RawText)] ∨
          memo.find? (Manifest.atHome manifestFile directory) = none ∧
            ∃ source json, host.readText? (Manifest.atHome manifestFile directory) = some source ∧
              Json.ofText? source = some json ∧ json.isHollow) →
        Constants.ofFile host manifestFile now memo file = (.ok (.outside now), memo) := by
  have isProper := Host.isProper_of_locate? proper located
  have eq : Constants.ofFile host manifestFile now memo file =
      Constants.ofLocation host manifestFile now memo location := by
    rw [Constants.ofFile, located]
  rw [eq]
  refine ⟨?_, ?_, Constants.ofLocation_of_homeless plain isProper, ?_⟩
  · intro constants after found project
    obtain ⟨directory, manifest, home, -, -, rfl⟩ :=
      Constants.ofLocation_eq_inside plain isProper found project
    obtain ⟨names, leads⟩ := Constants.leadTo_inside plain isProper home.above
    exact ⟨directory, names, home, leads⟩
  · intro directory manifest after home other loaded
    rw [Constants.ofLocation_of_home plain isProper home other, Lookup.andThen, loaded]
    exact ⟨_, rfl, rfl⟩
  · intro directory home empty
    by_cases own : location.names = directory.names ++ [(manifestFile : RawText)]
    · exact Constants.ofLocation_of_own plain isProper home own
    · obtain ⟨unknown, source, json, text, parsed, hollow⟩ := empty.resolve_left own
      have nothing : Manifest.content source = .nothing :=
        Manifest.content_eq_nothing.mpr ⟨json, parsed, hollow⟩
      have loaded : Manifest.load host memo (Manifest.atHome manifestFile directory) =
          (.ok none, memo) := by
        rw [Manifest.load, unknown, text]
        dsimp only
        rw [nothing]
      rw [Constants.ofLocation_of_home plain isProper home own, Lookup.andThen, loaded]
      rfl

namespace Sample

/-- A project inside another one, and in it a directory whose manifest says nothing. -/
def nestedHost : Host where
  files :=
    ((FileSystem.empty.write ⟨["package.json"]⟩ "\x7b\"name\":\"outer\"\x7d".toUTF8).write
      ⟨["app", "package.json"]⟩ "\x7b\"name\":\"app\"\x7d".toUTF8).write
      ⟨["app", "empty", "package.json"]⟩ "\x7b\x7d".toUTF8
  workingDirectory := some ⟨["app", "src"]⟩
  localTime := ""
  clock := 0

/-- A project of one directory, whose manifest has the given text. -/
def plainHost (manifest : String) : Host where
  files := .write .empty ⟨["p", "package.json"]⟩ manifest.toUTF8
  workingDirectory := some ⟨["p"]⟩
  localTime := ""
  clock := 0

/-- A file whose name has a byte that no text has. -/
def strangeFile : Path := ⟨"/p/" ++ ⟨[0xFF]⟩ ++ ".js"⟩

end Sample

/-- The file of the inner project is seen from there, and the one beside the manifest that says nothing
is in no project. -/
theorem sample_constants_lead_to_file :
    (∃ constants after,
        Constants.ofFile Sample.nestedHost "package.json" "" [] ⟨"../lib/.//main.js"⟩ =
            (.ok constants, after) ∧
          (constants.isOutside, constants.filename) = (false, some "/lib/main.js") ∧
          ∃ directory names,
            IsHome Sample.nestedHost "package.json" ⟨["app", "lib", "main.js"]⟩ directory ∧
              constants.LeadTo directory ⟨["app", "lib", "main.js"]⟩ names) ∧
      Constants.ofFile Sample.nestedHost "package.json" "" [] ⟨"/app/empty/x.js"⟩ =
        (.ok (.outside ""), []) := by
  have plain : Path.IsName "package.json" := by decide
  have proper : ∀ base, Sample.nestedHost.workingDirectory = some base → base.IsProper := by
    intro base eq
    rw [← Option.some.inj eq]
    decide
  constructor
  · have shown : (Constants.ofFile Sample.nestedHost "package.json" "" []
        ⟨"../lib/.//main.js"⟩).1.toOption.map (fun constants =>
          (constants.isOutside, constants.filename)) = some (false, some "/lib/main.js") := by
      decide +kernel
    have located : Sample.nestedHost.locate? ⟨"../lib/.//main.js"⟩ =
        some ⟨["app", "lib", "main.js"]⟩ := by
      decide
    obtain ⟨constants, after, went, shown⟩ := Lookup.eq_ok_of_toOption shown
    exact ⟨constants, after, went, shown,
      (constants_lead_to_file plain proper located []).1 constants after went
        (Prod.mk.inj shown).1⟩
  · have located : Sample.nestedHost.locate? ⟨"/app/empty/x.js"⟩ =
        some ⟨["app", "empty", "x.js"]⟩ := by
      decide
    have holds : Sample.nestedHost.isFile (Manifest.atHome "package.json" ⟨["app", "empty"]⟩) := by
      decide +kernel
    have home : IsHome Sample.nestedHost "package.json" ⟨["app", "empty", "x.js"]⟩
        ⟨["app", "empty"]⟩ :=
      isHome_of_holds holds
    apply (constants_lead_to_file plain proper located []).2.2.2 _ home
    refine .inr ⟨rfl, "\x7b\x7d", .object [], ?_, rfl, rfl⟩
    decide +kernel

/-- The constants do not lead back to a file whose name is no text, and a file is taken for one of a project
whose manifest says nothing any more, as long as what it said is remembered. -/
theorem not_constants_exact :
    ((Constants.ofFile (Sample.plainHost "\x7b\"name\":\"app\"\x7d") "package.json" "" []
            Sample.strangeFile).1.toOption.map fun constants =>
          (constants.isOutside, constants.directory, constants.filename)) =
        some (false, some ⟨"/p"⟩, some "/\uFFFD.js") ∧
      ((Sample.plainHost "").locate? Sample.strangeFile).map Location.path =
        some Sample.strangeFile ∧
      Path.join ⟨"/p"⟩ ⟨"\uFFFD.js"⟩ ≠ Sample.strangeFile ∧
      (Sample.plainHost "\x7b\x7d").readText? ⟨"/p/package.json"⟩ = some "\x7b\x7d" ∧
      (Constants.ofFile (Sample.plainHost "\x7b\x7d") "package.json" ""
            (Constants.ofFile (Sample.plainHost "\x7b\"name\":\"app\"\x7d") "package.json" "" []
              ⟨"/p/a.js"⟩).2
            ⟨"/p/a.js"⟩).1.toOption.map (fun constants =>
          (constants.isOutside, constants.filename)) =
        some (false, some "/a.js") := by
  refine ⟨?_, ?_, ?_, ?_, ?_⟩
  all_goals decide +kernel

end Imprint

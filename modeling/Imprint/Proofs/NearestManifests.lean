/-
Module: Imprint.Proofs.NearestManifests
Purpose: The constants of a file are up to the nearest manifest file alone, as long as nothing is
  remembered: two file trees in which it lies in the same place, has the same bytes and can be read in
  both or in neither give the same constants or the same failure. A file that has a location fails
  exactly when that manifest file cannot be read, when its bytes are no text, when the text is no JSON,
  or when it is an object whose name or version is neither left out nor `null` nor a text; of a repeated
  key the last value counts.
Main exports: Json.lastMember?, Manifest.IsMalformed, Manifest.content_eq_malformed, Manifest.Fault,
  SameHome, only_nearest_manifest_matters
-/
import Imprint.Proofs.HomeDirectories
import Mathlib.Data.List.Induction

namespace Imprint

/-! ### The last value of a key -/

namespace Json

variable {α β : Type} {key : String} {members : List (String × α)}

/-- The value of a key in an object, the last one if there are several. -/
def lastMember? (key : String) (members : List (String × α)) : Option α :=
  member? key members.reverse

/-- The first member is the one for its own key; any other key is looked for behind it. -/
theorem member?_cons (key other : String) (value : α) (rest : List (String × α)) :
    member? key ((other, value) :: rest) = if other = key then some value else member? key rest := by
  by_cases same : other = key <;> simp [member?, same]

/-- A member that was set is found under its key, and all others as before. -/
theorem member?_setMember (key other : String) (value : α) (members : List (String × α)) :
    member? key (setMember other value members) =
      if other = key then some value else member? key members := by
  induction members with
  | nil => exact member?_cons key other value []
  | cons first rest ih =>
      obtain ⟨name, old⟩ := first
      rw [setMember]
      by_cases here : name = other
      · rw [if_pos here, member?_cons, member?_cons, here]
        by_cases same : other = key <;> simp [same]
      · rw [if_neg here, member?_cons, member?_cons, ih]
        by_cases same : name = key
        · have different : ¬other = key := fun eq => here (same.trans eq.symm)
          simp [same, different]
        · simp [same]

/-- Of distinct members there is one for each key, with the last value of the key. -/
theorem member?_lastWins : member? key (lastWins members) = lastMember? key members := by
  induction members using List.reverseRecOn with
  | nil => rfl
  | append_singleton front last ih =>
      obtain ⟨other, value⟩ := last
      have ends : lastWins (front ++ [(other, value)]) = setMember other value (lastWins front) := by
        rw [lastWins, List.foldl_append]
        rfl
      rw [ends, member?_setMember, ih, lastMember?, lastMember?, List.reverse_append,
        List.reverse_singleton, List.singleton_append, member?_cons]

/-- A member is found among changed members as the changed one. -/
theorem member?_map (f : α → β) :
    member? key (members.map fun member => (member.1, f member.2)) = (member? key members).map f := by
  induction members with
  | nil => rfl
  | cons first rest ih =>
      obtain ⟨other, value⟩ := first
      rw [List.map_cons, member?_cons, member?_cons, ih]
      by_cases same : other = key <;> simp [same]

/-- The same for the last member with a key. -/
theorem lastMember?_map (f : α → β) :
    lastMember? key (members.map fun member => (member.1, f member.2)) =
      (lastMember? key members).map f := by
  rw [lastMember?, ← List.map_reverse, member?_map, lastMember?]

/-- A text, or `null` in its place. -/
def isOptionalText : Json → Bool
  | .null => true
  | .text _ => true
  | _ => false

end Json

/-! ### Malformed manifests -/

namespace Manifest

/-- A manifest text is malformed: it is no JSON, or an object whose name or version has a last value
that is neither `null` nor a text. -/
inductive IsMalformed (source : String) : Prop where
  | unparsed (refused : Json.ofText? source = none)
  | mistyped {members : List (String × Json)} {key : String} {value : Json}
      (parsed : Json.ofText? source = some (.object members))
      (known : key = "name" ∨ key = "version")
      (last : Json.lastMember? key members = some value)
      (wrong : value.isOptionalText = false)

/-- The values of members lose their repeated keys one by one. -/
theorem distinctMembers_eq_map (members : List (String × Json)) :
    distinctMembers members = members.map fun member => (member.1, distinct member.2) := by
  induction members with
  | nil => rfl
  | cons first rest ih => rw [distinctMembers, ih, List.map_cons]

/-- Whether a value can stand for an optional text has nothing to do with repeated keys. -/
theorem isOptionalText_distinct (json : Json) :
    (distinct json).isOptionalText = json.isOptionalText := by
  cases json <;> simp [distinct, Json.isOptionalText]

/-- An optional text is wrong when there is a value for it that is neither a text nor null. -/
theorem optionalText?_eq_none {key : String} {members : List (String × Json)} :
    optionalText? key members = none ↔
      ∃ value, Json.member? key members = some value ∧ value.isOptionalText = false := by
  unfold optionalText?
  cases Json.member? key members with
  | none => simp
  | some value => cases value <;> simp [Json.isOptionalText]

/-- With repeated keys it is the last value that counts. -/
theorem optionalText?_distinct {key : String} {members : List (String × Json)} :
    optionalText? key (Json.lastWins (distinctMembers members)) = none ↔
      ∃ value, Json.lastMember? key members = some value ∧ value.isOptionalText = false := by
  rw [optionalText?_eq_none, Json.member?_lastWins, distinctMembers_eq_map, Json.lastMember?_map]
  constructor
  · rintro ⟨_, lastDistinct, wrong⟩
    obtain ⟨value, last, rfl⟩ := Option.map_eq_some_iff.mp lastDistinct
    exact ⟨value, last, isOptionalText_distinct value ▸ wrong⟩
  · rintro ⟨value, last, wrong⟩
    exact ⟨distinct value, by rw [last]; rfl, (isOptionalText_distinct value).trans wrong⟩

/-- An object is no manifest when its name or its version is wrong. -/
theorem ofMembers_eq_malformed {members : List (String × Json)} :
    ofMembers members = .malformed ↔
      optionalText? "name" members = none ∨ optionalText? "version" members = none := by
  unfold ofMembers
  cases optionalText? "name" members <;> cases optionalText? "version" members <;> simp

/-- An object is made distinct before its name and version are read, which no empty object has. -/
theorem ofJson_object_eq_malformed {members : List (String × Json)} :
    ofJson (.object members) = .malformed ↔
      ofMembers (Json.lastWins (distinctMembers members)) = .malformed := by
  rw [ofJson, distinct]
  cases Json.lastWins (distinctMembers members) with
  | nil => simp [ofMembers, optionalText?, Json.member?]
  | cons first rest => rfl

theorem ofJson_eq_malformed {json : Json} :
    ofJson json = .malformed ↔
      ∃ members key value, json = .object members ∧ (key = "name" ∨ key = "version") ∧
        Json.lastMember? key members = some value ∧ value.isOptionalText = false := by
  by_cases isObject : ∃ members, json = .object members
  · obtain ⟨members, rfl⟩ := isObject
    rw [ofJson_object_eq_malformed, ofMembers_eq_malformed, optionalText?_distinct,
      optionalText?_distinct]
    constructor
    · rintro (⟨value, last, wrong⟩ | ⟨value, last, wrong⟩)
      · exact ⟨members, "name", value, rfl, .inl rfl, last, wrong⟩
      · exact ⟨members, "version", value, rfl, .inr rfl, last, wrong⟩
    · rintro ⟨_, _, value, eq, rfl | rfl, last, wrong⟩
      · obtain rfl := Json.object.inj eq
        exact .inl ⟨value, last, wrong⟩
      · obtain rfl := Json.object.inj eq
        exact .inr ⟨value, last, wrong⟩
  · constructor
    · intro malformed
      cases json with
      | object members => exact absurd ⟨members, rfl⟩ isObject
      | text content => by_cases empty : content.isEmpty <;> simp [ofJson, distinct, empty] at malformed
      | array items => cases items <;> simp [ofJson, distinct, distinctItems] at malformed
      | null => simp [ofJson, distinct] at malformed
      | bool value => simp [ofJson, distinct] at malformed
      | number value => simp [ofJson, distinct] at malformed
    · rintro ⟨members, _, _, eq, -⟩
      exact absurd ⟨members, eq⟩ isObject

/-- What is malformed can be told from the text without reading it as a manifest. -/
theorem content_eq_malformed {source : String} :
    content source = .malformed ↔ IsMalformed source := by
  unfold content
  cases parsed : Json.ofText? source with
  | none => exact iff_of_true rfl (.unparsed parsed)
  | some json =>
      dsimp only
      rw [ofJson_eq_malformed]
      constructor
      · rintro ⟨members, key, value, rfl, known, last, wrong⟩
        exact .mistyped parsed known last wrong
      · rintro (refused | ⟨same, known, last, wrong⟩)
        · rw [parsed] at refused
          cases refused
        · rw [parsed] at same
          exact ⟨_, _, _, Option.some.inj same, known, last, wrong⟩

/-! ### Reading a manifest file -/

/-- What is wrong with a manifest file at a path: it cannot be read, its bytes are no text, or the text is
malformed. -/
inductive Fault (path : Path) (file : File) : LookupError → Prop where
  | unreadable (withheld : file.isReadable = false) : Fault path file (.unreadable path)
  | undecoded (undecoded : String.fromUTF8? file.bytes = none) : Fault path file (.unreadable path)
  | malformed {source : String} (readable : file.isReadable)
      (decoded : String.fromUTF8? file.bytes = some source) (malformed : IsMalformed source) :
      Fault path file (.malformed path)

end Manifest

/-- The file that a path leads to. -/
def Host.file? (host : Host) (path : Path) : Option File :=
  host.files.file? host.workingDirectory path

/-- A file has no text when it cannot be read or is not encoded as one. -/
theorem File.text?_eq_none {file : File} :
    file.text? = none ↔ file.isReadable = false ∨ String.fromUTF8? file.bytes = none := by
  unfold text?
  cases file.isReadable <;> simp

/-- A file has the text that its bytes encode, if it can be read. -/
theorem File.text?_eq_some {file : File} {source : String} :
    file.text? = some source ↔ file.isReadable ∧ String.fromUTF8? file.bytes = some source := by
  unfold text?
  cases file.isReadable <;> simp

namespace Manifest

variable {host other : Host} {path : Path} {file : File} {error : LookupError}

/-- Reading a manifest file fails exactly when something is wrong with it, and says what. -/
theorem read_eq_error (found : host.file? path = some file) :
    read host path = .error error ↔ Fault path file error := by
  have text : host.readText? path = file.text? := by
    show (host.file? path).bind File.text? = _
    rw [found, Option.bind_some]
  rw [read, text]
  constructor
  · intro failed
    cases content? : file.text? with
    | none =>
        rw [content?] at failed
        obtain rfl := Except.error.inj failed
        rcases File.text?_eq_none.mp content? with withheld | undecoded
        · exact .unreadable withheld
        · exact .undecoded undecoded
    | some source =>
        rw [content?] at failed
        obtain ⟨readable, decoded⟩ := File.text?_eq_some.mp content?
        dsimp only at failed
        cases meaning : content source with
        | malformed =>
            rw [meaning] at failed
            obtain rfl := Except.error.inj failed
            exact .malformed readable decoded (content_eq_malformed.mp meaning)
        | nothing =>
            rw [meaning] at failed
            cases failed
        | manifest manifest =>
            rw [meaning] at failed
            cases failed
  · rintro (withheld | undecoded | ⟨readable, decoded, wrong⟩)
    · rw [File.text?_eq_none.mpr (.inl withheld)]
    · rw [File.text?_eq_none.mpr (.inr undecoded)]
    · rw [File.text?_eq_some.mpr ⟨readable, decoded⟩]
      dsimp only
      rw [content_eq_malformed.mpr wrong]

/-- A load asks the files for nothing but the file at its path. -/
theorem load_eq_of_file (same : host.file? path = other.file? path) (memo : Memo) :
    load host memo path = load other memo path := by
  have text : host.readText? path = other.readText? path :=
    congrArg (Option.bind · File.text?) same
  rw [load, load, text]

end Manifest

/-! ### The nearest manifest -/

/-- Two hosts agree on the nearest manifest file of a file: it lies in the same directory, has the same
bytes and can be read on both of them or on neither, or there is none on either of them. -/
inductive SameHome (host other : Host) (manifestFile : String) (file : Location) : Prop where
  | home {directory : Location} (home : IsHome host manifestFile file directory)
      (otherHome : IsHome other manifestFile file directory)
      (same : host.file? (Manifest.atHome manifestFile directory) =
        other.file? (Manifest.atHome manifestFile directory))
  | homeless (homeless : IsHomeless host manifestFile file)
      (otherHomeless : IsHomeless other manifestFile file)

namespace Constants

variable {host other : Host} {manifestFile now : String} {file : Location}

/-- Where a file has the same home on two hosts, it has the same constants there, from every memory. -/
theorem ofLocation_eq_of_sameHome (plain : Path.IsName manifestFile) (proper : file.IsProper)
    (same : SameHome host other manifestFile file) (memo : Memo) :
    ofLocation host manifestFile now memo file = ofLocation other manifestFile now memo file := by
  rcases same with @⟨directory, home, otherHome, same⟩ | ⟨homeless, otherHomeless⟩
  · by_cases own : file.names = directory.names ++ [(manifestFile : RawText)]
    · rw [ofLocation_of_own plain proper home own, ofLocation_of_own plain proper otherHome own]
    · rw [ofLocation_of_home plain proper home own, ofLocation_of_home plain proper otherHome own,
        Lookup.andThen, Lookup.andThen, Manifest.load_eq_of_file same]
  · rw [ofLocation_of_homeless plain proper homeless,
      ofLocation_of_homeless plain proper otherHomeless]

section Failures

variable {memo : Memo} {error : LookupError} (plain : Path.IsName manifestFile)
  (proper : file.IsProper)

include plain proper

/-- Only the load of its manifest makes a file with a home fail. -/
theorem ofLocation_eq_error_of_home {directory : Location}
    (home : IsHome host manifestFile file directory)
    (other : file.names ≠ directory.names ++ [(manifestFile : RawText)]) :
    (ofLocation host manifestFile now memo file).1 = .error error ↔
      (Manifest.load host memo (Manifest.atHome manifestFile directory)).1 = .error error := by
  rw [ofLocation_of_home plain proper home other, Lookup.andThen]
  obtain ⟨failure | manifest?, after⟩ :=
    Manifest.load host memo (Manifest.atHome manifestFile directory)
  · simp only [Except.error.injEq]
  · exact iff_of_false (fun failed => by cases failed) (fun failed => by cases failed)

/-- Without any memory the load reads the manifest file. -/
theorem ofLocation_eq_error :
    (ofLocation host manifestFile now [] file).1 = .error error ↔
      ∃ directory found, IsHome host manifestFile file directory ∧
        file.names ≠ directory.names ++ [(manifestFile : RawText)] ∧
        host.file? (Manifest.atHome manifestFile directory) = some found ∧
        Manifest.Fault (Manifest.atHome manifestFile directory) found error := by
  have reads : ∀ directory, IsHome host manifestFile file directory →
      (Manifest.load host [] (Manifest.atHome manifestFile directory)).1 =
        Manifest.read host (Manifest.atHome manifestFile directory) :=
    fun directory home =>
      Manifest.load_fst (Location.isAbsolute_path _) home.holds (Memo.sound_nil host)
  constructor
  · intro failed
    rcases exists_home_or_homeless plain proper with ⟨directory, home⟩ | homeless
    · by_cases own : file.names = directory.names ++ [(manifestFile : RawText)]
      · rw [ofLocation_of_own plain proper home own] at failed
        cases failed
      · obtain ⟨found, there⟩ := Option.isSome_iff_exists.mp home.holds
        rw [ofLocation_eq_error_of_home plain proper home own, reads directory home] at failed
        exact ⟨directory, found, home, own, there, (Manifest.read_eq_error there).mp failed⟩
    · rw [ofLocation_of_homeless plain proper homeless] at failed
      cases failed
  · rintro ⟨directory, found, home, other, there, fault⟩
    rw [ofLocation_eq_error_of_home plain proper home other, reads directory home]
    exact (Manifest.read_eq_error there).mpr fault

end Failures

end Constants

/-- The constants of a file are up to its nearest manifest file, unless something is remembered: nothing
else in the file tree has any influence, and there are no constants exactly when the file has no location
or that manifest file is another file that cannot be read or is malformed. -/
theorem only_nearest_manifest_matters {host : Host} {manifestFile now : String}
    (plain : Path.IsName manifestFile)
    (proper : ∀ base, host.workingDirectory = some base → base.IsProper) (file : Path) :
    (∀ files : FileSystem,
        (∀ location, host.locate? file = some location →
          SameHome host { host with files := files } manifestFile location) →
        Constants.ofFile host manifestFile now [] file =
          Constants.ofFile { host with files := files } manifestFile now [] file) ∧
      ∀ error, (Constants.ofFile host manifestFile now [] file).1 = .error error ↔
        (host.locate? file = none ∧ error = .noWorkingDirectory file) ∨
          ∃ location directory found, host.locate? file = some location ∧
            IsHome host manifestFile location directory ∧
            location.names ≠ directory.names ++ [(manifestFile : RawText)] ∧
            host.file? (Manifest.atHome manifestFile directory) = some found ∧
            Manifest.Fault (Manifest.atHome manifestFile directory) found error := by
  cases located : host.locate? file with
  | none =>
      have missing : Constants.ofFile host manifestFile now [] file =
          (.error (.noWorkingDirectory file), []) := by
        rw [Constants.ofFile, located]
      refine ⟨fun files _ => ?_, fun error => ?_⟩
      · have alsoMissing : Host.locate? { host with files := files } file = none := located
        rw [missing, Constants.ofFile, alsoMissing]
      · rw [missing]
        constructor
        · intro failed
          exact .inl ⟨rfl, (Except.error.inj failed).symm⟩
        · rintro (⟨-, rfl⟩ | ⟨location, _, _, found, -⟩)
          · rfl
          · cases found
  | some location =>
      have isProper := Host.isProper_of_locate? proper located
      have eq : Constants.ofFile host manifestFile now [] file =
          Constants.ofLocation host manifestFile now [] location := by
        rw [Constants.ofFile, located]
      refine ⟨fun files same => ?_, fun error => ?_⟩
      · have alsoLocated : Host.locate? { host with files := files } file = some location := located
        rw [eq, Constants.ofFile, alsoLocated]
        exact Constants.ofLocation_eq_of_sameHome plain isProper (same location rfl) []
      · rw [eq, Constants.ofLocation_eq_error plain isProper]
        constructor
        · rintro ⟨directory, found, faulty⟩
          exact .inr ⟨location, directory, found, rfl, faulty⟩
        · rintro (⟨missing, -⟩ | ⟨place, directory, found, same, faulty⟩)
          · cases missing
          · obtain rfl := Option.some.inj same
            exact ⟨directory, found, faulty⟩

namespace Sample

/-- A project below a manifest that is no JSON. -/
def brokenAbove : Host where
  files :=
    (FileSystem.empty.write ⟨["package.json"]⟩ "\x7b not json".toUTF8).write
      ⟨["app", "package.json"]⟩ "\x7b\"name\":\"app\"\x7d".toUTF8
  workingDirectory := none
  localTime := ""
  clock := 0

/-- The project alone, with a file that is no text elsewhere in it. -/
def brokenInside : FileSystem :=
  (FileSystem.empty.write ⟨["app", "package.json"]⟩ "\x7b\"name\":\"app\"\x7d".toUTF8).write
    ⟨["app", "lib", "package.json"]⟩ ⟨#[255]⟩

end Sample

/-- Broken manifests further up or further down do not matter to the file of the inner project; a file of
the outer project fails. -/
theorem sample_only_nearest_manifest_matters :
    Constants.ofFile Sample.brokenAbove "package.json" "" [] ⟨"/app/main.js"⟩ =
        Constants.ofFile { Sample.brokenAbove with files := Sample.brokenInside } "package.json" ""
          [] ⟨"/app/main.js"⟩ ∧
      (Constants.ofFile Sample.brokenAbove "package.json" "" [] ⟨"/other.js"⟩).1 =
        .error (.malformed ⟨"/package.json"⟩) := by
  have plain : Path.IsName "package.json" := by decide
  have proper : ∀ base, Sample.brokenAbove.workingDirectory = some base → base.IsProper := by
    intro base eq
    cases eq
  constructor
  · apply (only_nearest_manifest_matters plain proper _).1
    intro location located
    have place : Sample.brokenAbove.locate? ⟨"/app/main.js"⟩ = some ⟨["app", "main.js"]⟩ := by
      decide
    obtain rfl := Option.some.inj (place.symm.trans located)
    have holds : Sample.brokenAbove.isFile (Manifest.atHome "package.json" ⟨["app"]⟩) := by
      decide +kernel
    have alsoHolds : Host.isFile { Sample.brokenAbove with files := Sample.brokenInside }
        (Manifest.atHome "package.json" ⟨["app"]⟩) := by
      decide +kernel
    exact .home (isHome_of_holds holds) (isHome_of_holds alsoHolds) rfl
  · apply ((only_nearest_manifest_matters plain proper _).2 _).mpr
    have holds : Sample.brokenAbove.isFile (Manifest.atHome "package.json" ⟨[]⟩) := by
      decide +kernel
    have home : IsHome Sample.brokenAbove "package.json" ⟨["other.js"]⟩ ⟨[]⟩ :=
      isHome_of_holds holds
    have there : Sample.brokenAbove.file? ⟨"/package.json"⟩ =
        some (.readable "\x7b not json".toUTF8) := by
      rfl
    refine .inr ⟨⟨["other.js"]⟩, ⟨[]⟩, _, by decide, home, by decide, there, ?_⟩
    have decoded : String.fromUTF8? "\x7b not json".toUTF8 = some "\x7b not json" := by
      decide +kernel
    exact .malformed rfl decoded (.unparsed rfl)

namespace Sample

/-- A project whose manifest can be read or not, with a working directory in it. -/
def guardedHost (isReadable : Bool) : Host where
  files := .place .empty ⟨["app", "package.json"]⟩ ⟨"\x7b\"name\":\"app\"\x7d".toUTF8, isReadable⟩
  workingDirectory := some ⟨["app", "src"]⟩
  localTime := ""
  clock := 0

end Sample

/-- The bytes of the nearest manifest do not decide alone: the file fails when they cannot be read, and,
where the manifest can be read, when its path is relative to a directory that was removed. -/
theorem not_only_bytes_matter :
    ((Sample.guardedHost false).file? ⟨"/app/package.json"⟩).map File.bytes =
        ((Sample.guardedHost true).file? ⟨"/app/package.json"⟩).map File.bytes ∧
      (Constants.ofFile (Sample.guardedHost true) "package.json" "" [] ⟨"main.js"⟩).1.map
          Constants.filename = .ok (some "/src/main.js") ∧
      (Constants.ofFile (Sample.guardedHost false) "package.json" "" [] ⟨"main.js"⟩).1.map
          Constants.filename = .error (.unreadable ⟨"/app/package.json"⟩) ∧
      (Constants.ofFile ((Sample.guardedHost true).remove ⟨["app", "src"]⟩) "package.json" ""
          [] ⟨"main.js"⟩).1.map Constants.filename = .error (.noWorkingDirectory ⟨"main.js"⟩) := by
  refine ⟨?_, ?_, ?_, ?_⟩
  all_goals decide +kernel

end Imprint

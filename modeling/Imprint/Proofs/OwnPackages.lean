/-
Module: Imprint.Proofs.OwnPackages
Purpose: A project is its own package. When the constants of a file were found, its project is looked up
  under its own name with the same outcome, unless a package of that name is installed above the file:
  the manifest is remembered, so this holds even if the file has changed since it was loaded. In the tree
  that is returned the call of the package version with that name has therefore given way to the same
  string as the call without arguments.
Main exports: Manifest.ofPackage_of_remembered, Node.AsksVersionOf, Imprinted.PutsVersion,
  project_is_its_own_package
-/
import Imprint.Proofs.Composition
import Imprint.Proofs.DependencyCalls
import Imprint.Proofs.HomeDirectories

namespace Imprint

/-! ### The manifest of the project -/

section Lookups

variable {host : Host} {manifestFile name now : String} {memo after : Memo} {file : Path}
  {location : Location} {path : Path} {constants : Constants} {manifest : Manifest}

/-- Constants with a manifest were loaded from the nearest one, which is remembered from then on. -/
theorem Constants.remembered_of_ofFile (located : host.locate? file = some location)
    (found : ofFile host manifestFile now memo file = (.ok constants, after))
    (project : constants.manifest = some manifest) :
    ∃ path, Manifest.nearest? host manifestFile location = some path ∧
      after.find? path = some manifest := by
  rw [ofFile, located] at found
  have inside : constants.isOutside = false := by rw [isOutside, project, Option.isNone_some]
  obtain ⟨path, other, nearest, -, loaded, rfl⟩ := exists_nearest_of_ofLocation found inside
  obtain rfl : other = manifest := Option.some.inj project
  have remembered := Manifest.find?_load (congrArg Prod.fst loaded)
  rw [loaded] at remembered
  exact ⟨path, nearest, remembered⟩

namespace Manifest

theorem dependency?_eq_none_of_above (nearest : nearest? host manifestFile location = some path)
    (uninstalled : ∀ directory : Location, directory.IsAbove location →
      host.isFile (dependencyPath manifestFile name directory) = false) :
    dependency? host manifestFile name location = none := by
  have filled : location.names ≠ [] := by
    intro root
    rw [nearest?_of_root root] at nearest
    cases nearest
  have parent : location.parent? = some ⟨location.names.dropLast⟩ := by
    simp [Location.parent?, filled]
  rw [dependency?, dependencyPaths, parent, Option.getD_some, List.find?_eq_none]
  intro path mem
  obtain ⟨directory, ancestor, rfl⟩ := List.mem_map.mp mem
  have above := (Location.isAbove_iff_prefix_dropLast filled).mpr (Location.mem_ancestors.mp ancestor)
  simp [uninstalled directory above]

/-- A project is found under its own name as long as its manifest is remembered. -/
theorem ofPackage_of_remembered (isName : isPackageName name)
    (located : host.locate? file = some location)
    (missing : dependency? host manifestFile name location = none)
    (nearest : nearest? host manifestFile location = some path)
    (remembered : memo.find? path = some manifest) (named : manifest.name = some name) :
    ofPackage host manifestFile memo name file = (.ok (some manifest), memo) := by
  have loaded : load host memo path = (.ok (some manifest), memo) := by
    rw [load, remembered]
  rw [ofPackage, if_pos isName, located]
  dsimp only
  rw [ofPackageFrom_eq missing nearest, Lookup.andThen, loaded]
  simp [named]

/-- The version of a package that has the same answer at every moment is the one that is found for it. -/
theorem version_eq_of_versionsOf {version : String} {packages : List String}
    {versions : List (String × Option String)}
    (answers : ∀ moment, memo <+: moment →
      ofPackage host manifestFile moment name file = (.ok (some manifest), moment))
    (versioned : manifest.version = some version)
    (looked : versionsOf host manifestFile file memo packages = (.ok versions, after))
    (mem : name ∈ packages) : ((versions.lookup name).bind id).getD "" = version := by
  obtain ⟨moment, manifest?, next, grown, found, -, eq⟩ :=
    versionSeen_of_versionsOf looked name mem
  rw [answers moment grown] at found
  obtain ⟨same, -⟩ := Prod.mk.inj found
  obtain rfl := Except.ok.inj same
  rw [eq, Option.bind_some, versioned, Option.getD_some]

end Manifest

end Lookups

/-! ### Calls that ask for the version of a project -/

/-- A call of the package version without arguments, or with the given name, as a string literal, for
its only argument. -/
inductive Node.AsksVersionOf (name : String) : Node → Prop where
  | own {span : Span} {callee : Node} (called : callee.identifier? = some Rules.versionName) :
      AsksVersionOf name ⟨span, .call callee []⟩
  | dependency {span : Span} {callee argument : Node}
      (called : callee.identifier? = some Rules.versionName) (text : argument.text? = some name) :
      AsksVersionOf name ⟨span, .call callee [argument]⟩

/-- Wherever a call in a tree asks for the version of a project with the given name, the version stands in
the imprinted tree, as a string with the span of the call, unless a literal was put in further out. -/
def Imprinted.PutsVersion (imprinted : Imprinted) (rules : Rules) (name version : String)
    (root : Node) : Prop :=
  ∀ trail places position node, Leads root trail places position node → position ≠ .kept →
    node.AsksVersionOf name →
    imprinted.root.follow? trail = some (places, (Node.string version).withSpan node.span) ∨
      rules.ReplacesAbove root trail

namespace Rules

/-- The walk replaces both calls by the version of a project when it is the literal for the one without
arguments and the version of the package that the other one asks for. -/
theorem replacement?_of_asks {rules : Rules} {name version : String} {position : Position}
    {node : Node} (bareCall : rules.bareCall? = some (Node.string version))
    (known : asked? position node = some name → rules.version name = version)
    (walked : position ≠ .kept) (asks : node.AsksVersionOf name) :
    rules.replacement? position node = some (versionName, Node.string version) := by
  cases asks with
  | own called =>
      simp only [replacement?, callLiteral?, versionCall?, if_neg walked, if_pos called, bareCall,
        Option.map_some]
  | @dependency span callee argument called text =>
      have uses : versionCall? callee [argument] = some (.dependency name) := by
        simp only [versionCall?, if_pos called, text, Option.map_some]
      have asked : asked? position ⟨span, .call callee [argument]⟩ = some name := by
        simp only [asked?, uses, if_neg walked]
      simp only [replacement?, callLiteral?, uses, if_neg walked, known asked, Option.map_some]

/-- What the rules make of a tree has the version of a project in the place of both calls when it is the
literal for the one without arguments and the version that is known for its name, should the tree ask
for that. -/
theorem putsVersion_ofRules {rules : Rules} {name version : String} {root : Node}
    (bareCall : rules.bareCall? = some (Node.string version))
    (known : name ∈ packagesOf root → rules.version name = version) :
    (Imprinted.ofRules rules root).PutsVersion rules name version root := by
  intro trail places position node leads walked asks
  have replaced : rules.replacement? position node = some (versionName, Node.string version) := by
    refine replacement?_of_asks bareCall (fun asked => known ?_) walked asks
    exact (mem_packages_visit silent).mpr ⟨position, node, leads.reaches, asked⟩
  have put : (rules.visit position node).value = (Node.string version).withSpan node.span := by
    rw [value_visit, replaced]
  rw [← put]
  exact rules.follow?_visit leads

theorem builtIn?_packageVersion {settings : Settings} {constants : Constants} {clock : Int}
    {manifest : Manifest} {version : String} (project : constants.manifest = some manifest)
    (versioned : manifest.version = some version) (enabled : settings.isEnabled .packageVersion) :
    builtIn? settings constants clock .packageVersion = some (Node.string version) := by
  simp [builtIn?, enabled, Constants.literal?, Constants.isOutside, project, versioned]

end Rules

/-! ### Sessions -/

theorem Session.answer_eq_ok {α : Type} {session later : Session} {lookup : Lookup α} {value : α}
    (eq : session.answer lookup = (.ok value, later)) :
    ∃ memo, lookup = (.ok value, memo) ∧ later = { session with memo := memo } := by
  obtain ⟨result, memo⟩ := lookup
  obtain ⟨same, rfl⟩ := Prod.mk.inj eq
  exact ⟨memo, congrArg (·, memo) same, rfl⟩

/-- The project of a file is found under its own name, with the manifest that the constants of the file
have, unless a package of that name is installed above the file. A tree that calls for no other package
is imprinted; and when the project has a version and the built-in for it is switched on, every imprinted
tree has one and the same string where the call of the package version with its name stood and where
the call without arguments stood. -/
theorem project_is_its_own_package {session later : Session} {host : Host} {file : Path}
    {location : Location} {constants : Constants} {manifest : Manifest} {name : String}
    (located : host.locate? file = some location)
    (found : session.constants host file = (.ok constants, later))
    (project : constants.manifest = some manifest) (named : manifest.name = some name)
    (isName : Manifest.isPackageName name)
    (uninstalled : ∀ directory : Location, directory.IsAbove location →
      host.isFile (Manifest.dependencyPath session.settings.manifestFile name directory) = false) :
    later.package host name file = (.ok (some manifest), later) ∧
      (∀ root, (∀ package, root.CallsFor package → package = name) →
        ∃ imprinted after, session.transform host file root = (.ok imprinted, after)) ∧
      ∀ version, manifest.version = some version → session.settings.isEnabled .packageVersion →
        ∀ root imprinted after, session.transform host file root = (.ok imprinted, after) →
          ∃ versions,
            Manifest.versionsOf host session.settings.manifestFile file later.memo
                (Rules.packagesOf root) = (.ok versions, after.memo) ∧
              imprinted =
                .ofRules (.ofSettings session.settings constants host.clock versions) root ∧
              imprinted.PutsVersion
                (.ofSettings session.settings constants host.clock versions) name version root := by
  have transformed : ∀ root,
      session.transform host file root = later.imprint host constants file root := by
    intro root
    rw [Session.transform, found]
  obtain ⟨memo, went, rfl⟩ := Session.answer_eq_ok found
  obtain ⟨path, nearest, remembered⟩ := Constants.remembered_of_ofFile located went project
  have missing := Manifest.dependency?_eq_none_of_above nearest uninstalled
  have answers : ∀ moment, memo <+: moment →
      Manifest.ofPackage host session.settings.manifestFile moment name file =
        (.ok (some manifest), moment) :=
    fun moment grown => Manifest.ofPackage_of_remembered isName located missing nearest
      (Memo.find?_of_prefix grown remembered) named
  refine ⟨?_, ?_, ?_⟩
  · rw [Session.package, answers memo (List.prefix_refl memo)]
    rfl
  · intro root only
    rw [transformed, Session.imprint]
    cases outcome : Imprinted.ofTree host session.settings memo constants file root with
    | mk result after =>
        cases result with
        | ok imprinted => exact ⟨imprinted, _, rfl⟩
        | error error =>
            -- A failing walk is the failure of a package, and the only one that is called for is found.
            have grown :=
              (MadeOfLoads.imprinted_ofTree host session.settings constants file root).grows memo
            rw [outcome] at grown
            obtain ⟨package, calls, fails⟩ := Imprinted.ofTree_eq_error outcome
            have unfound := fails memo grown
            rw [only package calls, answers memo (List.prefix_refl memo)] at unfound
            cases unfound
  · intro version versioned enabled root imprinted after succeeded
    rw [transformed] at succeeded
    obtain ⟨last, walked, rfl⟩ := Session.answer_eq_ok succeeded
    obtain ⟨versions, looked, rfl⟩ := Imprinted.ofTree_eq_ok walked
    refine ⟨versions, looked, rfl, ?_⟩
    apply Rules.putsVersion_ofRules (Rules.builtIn?_packageVersion project versioned enabled)
    exact Manifest.version_eq_of_versionsOf answers versioned looked

namespace Sample

/-- A manifest that was remembered before its file became malformed. -/
def formerManifest : Manifest := ⟨some "app", some "1.0.0", []⟩

def remembering : Session :=
  { Session.start .initial "" with memo := [(["app", "package.json"], formerManifest)] }

def editedHost : Host where
  files := .write .empty ⟨["app", "package.json"]⟩ "\x7b".toUTF8
  workingDirectory := none
  localTime := ""
  clock := 0

/-- The source tree of `[__packageversion__(), __packageversion__("app")]`. -/
def bothCalls : Node :=
  ⟨⟨0, 49⟩, .array [some (bareCall.withSpan ⟨1, 21⟩),
    some ⟨⟨23, 48⟩, .call ⟨⟨23, 41⟩, .identifier "__packageversion__"⟩
      [⟨⟨42, 47⟩, .leaf (.text "app")⟩]⟩]⟩

theorem eq_app_of_callsFor_bothCalls {package : String} (calls : bothCalls.CallsFor package) :
    package = "app" := by
  obtain ⟨span, callee, argument, mem, -, text⟩ := calls
  simp [bothCalls, bareCall, Node.withSpan, Node.nodes_eq, Kind.children] at mem
  obtain ⟨-, -, rfl⟩ := mem
  exact (Option.some.inj text).symm

/-- The two calls in the array, with the trails to them. -/
theorem leads_bothCalls {index : Nat} {node : Node}
    (step : bothCalls.steps[index]? = some (.part, node)) :
    Leads bothCalls [index] [.part] .read node :=
  .onward .start step

end Sample

/-- What is remembered of the project stands for it under its own name too, although its manifest file is
malformed by now: `[__packageversion__(), __packageversion__("app")]` becomes `["1.0.0", "1.0.0"]`. -/
theorem sample_project_is_its_own_package :
    Sample.remembering.package Sample.editedHost "app" ⟨"/app/main.js"⟩ =
        (.ok (some Sample.formerManifest), Sample.remembering) ∧
      ∃ imprinted after,
        Sample.remembering.transform Sample.editedHost ⟨"/app/main.js"⟩ Sample.bothCalls =
            (.ok imprinted, after) ∧
          imprinted.root.follow? [0] =
            some ([.part], (Node.string "1.0.0").withSpan ⟨1, 21⟩) ∧
          imprinted.root.follow? [1] =
            some ([.part], (Node.string "1.0.0").withSpan ⟨23, 48⟩) := by
  have located : Sample.editedHost.locate? ⟨"/app/main.js"⟩ = some ⟨["app", "main.js"]⟩ := by
    decide
  have found : Sample.remembering.constants Sample.editedHost ⟨"/app/main.js"⟩ =
      (.ok (.inside "" Sample.formerManifest ⟨"/app/package.json"⟩ ⟨["app", "main.js"]⟩),
        Sample.remembering) := by
    rfl
  have nowhere : ∀ names ∈ Location.beginnings ["app"],
      Sample.editedHost.isFile (Manifest.dependencyPath "package.json" "app" ⟨names⟩) = false := by
    decide +kernel
  have uninstalled : ∀ directory : Location, directory.IsAbove ⟨["app", "main.js"]⟩ →
      Sample.editedHost.isFile (Manifest.dependencyPath "package.json" "app" directory) = false := by
    intro directory above
    have starts := (Location.isAbove_iff_prefix_dropLast (by decide)).mp above
    exact nowhere directory.names (Location.mem_beginnings.mpr starts)
  obtain ⟨same, succeeds, versions⟩ :=
    project_is_its_own_package located found rfl rfl (by decide) uninstalled
  refine ⟨same, ?_⟩
  obtain ⟨imprinted, after, went⟩ :=
    succeeds Sample.bothCalls fun _ => Sample.eq_app_of_callsFor_bothCalls
  obtain ⟨_, -, -, puts⟩ := versions "1.0.0" rfl rfl Sample.bothCalls imprinted after went
  -- The array stays, and both of its elements ask for the version.
  have own := puts [0] _ _ _ (Sample.leads_bothCalls rfl) (by decide) (.own rfl)
  have named := puts [1] _ _ _ (Sample.leads_bothCalls rfl) (by decide) (.dependency rfl rfl)
  exact ⟨imprinted, after, went, own.resolve_right (Rules.not_replacesAbove_child _ rfl),
    named.resolve_right (Rules.not_replacesAbove_child _ rfl)⟩

end Imprint

/-
Module: Imprint.Proofs.DependencyCalls
Purpose: The calls that ask for the version of a package are all that ties a walk to its surroundings.
  A tree without such a call is always imprinted, and neither the files nor what is remembered have a
  say in the outcome. When a walk fails, the lookup of a package that is called for in the tree fails in
  the same way, whatever had been remembered until then. The constants of the file itself are the only
  other thing that can fail when a file is transformed.
Main exports: Node.CallsFor, Manifest.ofPackage_eq_error_of_prefix, Manifest.versionsOf_eq_error,
  walk_fails_only_at_dependency_calls
-/
import Imprint.Proofs.LoadCourses
import Imprint.Proofs.Reports

namespace Imprint

/-! ### Calls that ask for a version -/

/-- Somewhere in the tree the package version is called with the name of a package, as a string literal,
for its only argument. -/
def Node.CallsFor (root : Node) (package : String) : Prop :=
  ∃ span callee argument, ⟨span, .call callee [argument]⟩ ∈ root.nodes ∧
    callee.identifier? = some Rules.versionName ∧ argument.text? = some package

/-- A walk asks for no package that the tree does not call for: what is put in during the walk brings no
new calls. -/
theorem Rules.callsFor_of_mem_packagesOf {root : Node} {package : String}
    (mem : package ∈ packagesOf root) : root.CallsFor package := by
  obtain ⟨position, node, reaches, asked⟩ := (mem_packages_visit silent).mp mem
  obtain ⟨span, callee, argument, rfl, called, text⟩ := asked?_eq_some asked
  exact ⟨span, callee, argument, reaches.mem_nodes, called, text⟩

/-! ### Lookups that fail -/

section Failures

variable {host : Host} {manifestFile name : String} {earlier later after : Memo}
  {error : LookupError}

namespace Manifest

/-- A load that fails would have failed at any moment before, in the same way. -/
theorem load_eq_error_of_prefix {path : Path} (grown : earlier <+: later)
    (failed : load host later path = (.error error, after)) :
    load host earlier path = (.error error, earlier) := by
  rcases load_cases host later path with ⟨_, -, eq⟩ | ⟨_, -, -, eq⟩ | ⟨missing, nothing, eq⟩
  · rw [eq] at failed
    cases failed
  · rw [eq] at failed
    cases failed
  · have reads : read host path = .error error := congrArg Prod.fst (eq.symm.trans failed)
    rcases load_cases host earlier path with ⟨_, known, -⟩ | ⟨_, -, found, -⟩ | ⟨-, -, eq⟩
    · rw [Memo.find?_of_prefix grown known] at missing
      cases missing
    · exact absurd found (nothing _)
    · rw [eq, reads]

theorem ofPackageFrom_eq_error_of_prefix {file : Location} (grown : earlier <+: later)
    (failed : ofPackageFrom host manifestFile later name file = (.error error, after)) :
    ofPackageFrom host manifestFile earlier name file = (.error error, earlier) := by
  cases installed : dependency? host manifestFile name file with
  | some path =>
      simp only [ofPackageFrom, installed] at failed ⊢
      exact load_eq_error_of_prefix grown failed
  | none =>
      cases found : nearest? host manifestFile file with
      | none => simp [ofPackageFrom, installed, found] at failed
      | some path =>
          rw [ofPackageFrom_eq installed found] at failed ⊢
          rcases Lookup.andThen_eq_error failed with unread | ⟨_, _, -, answered⟩
          · rw [Lookup.andThen, load_eq_error_of_prefix grown unread]
          · cases answered

/-- The lookup of a package that fails would have failed at any moment before, in the same way. -/
theorem ofPackage_eq_error_of_prefix {file : Path} (grown : earlier <+: later)
    (failed : ofPackage host manifestFile later name file = (.error error, after)) :
    ofPackage host manifestFile earlier name file = (.error error, earlier) := by
  unfold ofPackage at failed ⊢
  split at failed
  case isFalse => cases failed
  case isTrue isName =>
    rw [if_pos isName]
    split at failed
    case h_1 =>
      cases failed
      rfl
    case h_2 location _ => exact ofPackageFrom_eq_error_of_prefix grown failed

/-- When the versions of packages are not found, the lookup of one of the packages fails. -/
theorem versionsOf_eq_error {file : Path} {memo : Memo} {packages : List String}
    (failed : versionsOf host manifestFile file memo packages = (.error error, after)) :
    ∃ package ∈ packages, ∃ middle,
      ofPackage host manifestFile middle package file = (.error error, after) := by
  induction packages generalizing memo with
  | nil => cases failed
  | cons first rest ih =>
      rw [versionsOf_cons] at failed
      rcases Lookup.andThen_eq_error failed with unfound | ⟨manifest?, middle, -, failed⟩
      · exact ⟨first, List.mem_cons_self, memo, unfound⟩
      · rcases Lookup.andThen_eq_error failed with unfound | ⟨_, _, -, answered⟩
        · obtain ⟨package, mem, moment, unfound⟩ := ih unfound
          exact ⟨package, List.mem_cons_of_mem first mem, moment, unfound⟩
        · cases answered

end Manifest

/-- When a tree cannot be imprinted, the lookup of a package that is called for in it fails in the same
way, at the moment of the failure and at every moment before. -/
theorem Imprinted.ofTree_eq_error {settings : Settings} {memo : Memo} {constants : Constants}
    {file : Path} {root : Node}
    (failed : ofTree host settings memo constants file root = (.error error, after)) :
    ∃ package, root.CallsFor package ∧ ∀ moment, moment <+: after →
      Manifest.ofPackage host settings.manifestFile moment package file =
        (.error error, moment) := by
  rw [ofTree_eq] at failed
  rcases Lookup.andThen_eq_error failed with unfound | ⟨_, _, -, answered⟩
  · obtain ⟨package, mem, middle, unfound⟩ := Manifest.versionsOf_eq_error unfound
    have same : middle = after := by
      have again := Manifest.ofPackage_eq_error_of_prefix (List.prefix_refl middle) unfound
      exact congrArg Prod.snd (again.symm.trans unfound)
    refine ⟨package, Rules.callsFor_of_mem_packagesOf mem, fun moment before => ?_⟩
    exact Manifest.ofPackage_eq_error_of_prefix (same ▸ before) unfound
  · cases answered

end Failures

/-- A tree that calls for no package is imprinted in the same way wherever it is. -/
theorem Imprinted.ofTree_of_no_calls {root : Node} (uncalled : ∀ package, ¬ root.CallsFor package)
    (host : Host) (settings : Settings) (memo : Memo) (constants : Constants) (file : Path) :
    ofTree host settings memo constants file root =
      (.ok (ofRules (Rules.ofSettings settings constants host.clock []) root), memo) := by
  apply ofTree_of_versionsOf
  have nothing : Rules.packagesOf root = [] := by
    apply List.eq_nil_iff_forall_not_mem.mpr
    intro package mem
    exact uncalled package (Rules.callsFor_of_mem_packagesOf mem)
  rw [nothing]
  rfl

theorem Session.transform_eq_error {session : Session} {host : Host} {file : Path} {root : Node}
    {error : LookupError} :
    (session.transform host file root).1 = .error error ↔
      (session.constants host file).1 = .error error ∨
        ∃ constants later, session.constants host file = (.ok constants, later) ∧
          (later.imprint host constants file root).1 = .error error := by
  unfold transform
  rcases session.constants host file with ⟨failure | constants, later⟩
  · simp
  · simp

/-- The calls that ask for the version of a package are the only ones through which a walk reads files
and can fail. Without them a tree is always imprinted: the outcome is settled by the settings, the
constants and the time, and what is remembered stays as it was. When a walk fails, the lookup of a
package that is called for in the tree fails in the same way, at that moment and with everything that
had been remembered before. A file is transformed unless its constants cannot be found or the walk
over its tree fails. -/
theorem walk_fails_only_at_dependency_calls (root : Node) :
    ((∀ package, ¬ root.CallsFor package) →
        ∀ (settings : Settings) (constants : Constants) (clock : Int), ∃ imprinted,
          ∀ (host : Host) (memo : Memo) (file : Path), host.clock = clock →
            Imprinted.ofTree host settings memo constants file root = (.ok imprinted, memo)) ∧
      (∀ (host : Host) (settings : Settings) (memo after : Memo) (constants : Constants)
          (file : Path) (error : LookupError),
        Imprinted.ofTree host settings memo constants file root = (.error error, after) →
          memo <+: after ∧ ∃ package, root.CallsFor package ∧ ∀ moment, moment <+: after →
            Manifest.ofPackage host settings.manifestFile moment package file =
              (.error error, moment)) ∧
      ∀ (session : Session) (host : Host) (file : Path) (error : LookupError),
        (session.transform host file root).1 = .error error ↔
          (session.constants host file).1 = .error error ∨
            ∃ constants later, session.constants host file = (.ok constants, later) ∧
              (later.imprint host constants file root).1 = .error error := by
  refine ⟨?_, ?_, ?_⟩
  · intro uncalled settings constants clock
    refine ⟨.ofRules (.ofSettings settings constants clock []) root, fun host memo file time => ?_⟩
    rw [Imprinted.ofTree_of_no_calls uncalled, time]
  · intro host settings memo after constants file error failed
    refine ⟨?_, Imprinted.ofTree_eq_error failed⟩
    have grown := (MadeOfLoads.imprinted_ofTree host settings constants file root).grows memo
    rwa [failed] at grown
  · intro session host file error
    exact Session.transform_eq_error

namespace Sample

/-- A project in which the manifest of a dependency is malformed. -/
def brokenHost : Host :=
  { host with files := .write .empty ⟨["app", "node_modules", "dep", "package.json"]⟩ "\x7b".toUTF8 }

theorem no_calls_readAndCalled (package : String) : ¬ readAndCalled.CallsFor package := by
  rintro ⟨span, callee, argument, mem, -⟩
  simp [readAndCalled, bareCall, Node.withSpan, Node.nodes_eq, Kind.children] at mem

end Sample

/-- A bare call reads no files; and what fails when the manifest of a dependency is malformed is the
lookup of that dependency. -/
theorem sample_walk_fails_only_at_dependency_calls :
    ((∀ package, ¬ Sample.readAndCalled.CallsFor package) ∧
      ∃ imprinted, ∀ (host : Host) (memo : Memo) (file : Path), host.clock = 0 →
        Imprinted.ofTree host Sample.settings memo Sample.released file Sample.readAndCalled =
          (.ok imprinted, memo)) ∧
      ∃ after,
        Imprinted.ofTree Sample.brokenHost Sample.settings [] (.outside "") ⟨"/app/main.js"⟩
            Sample.root =
          (.error (.malformed ⟨"/app/node_modules/dep/package.json"⟩), after) ∧
        ∃ package, Sample.root.CallsFor package ∧
          Manifest.ofPackage Sample.brokenHost "package.json" [] package ⟨"/app/main.js"⟩ =
            (.error (.malformed ⟨"/app/node_modules/dep/package.json"⟩), []) := by
  have fails : (Imprinted.ofTree Sample.brokenHost Sample.settings [] (.outside "")
      ⟨"/app/main.js"⟩ Sample.root).1.map (fun _ => ()) =
        .error (.malformed ⟨"/app/node_modules/dep/package.json"⟩) := by
    decide +kernel
  obtain ⟨after, failed⟩ := Lookup.eq_error_of_map fails
  refine ⟨⟨Sample.no_calls_readAndCalled, ?_⟩, after, failed, ?_⟩
  · exact (walk_fails_only_at_dependency_calls Sample.readAndCalled).1
      Sample.no_calls_readAndCalled Sample.settings Sample.released 0
  · obtain ⟨grown, package, calls, unfound⟩ :=
      (walk_fails_only_at_dependency_calls Sample.root).2.1 _ _ _ _ _ _ _ failed
    exact ⟨package, calls, unfound [] grown⟩

end Imprint

/-
Module: Imprint.Proofs.Instances
Purpose: The imprinted tree is an instance of the tree of the source text. Node by node it is what it was,
  or the literal of a rule stands in the place of an identifier, a member chain or a call; and what
  is inside such a literal stays as it is.
Main exports: Manifest.VersionSeen, Imprints, Imprints.visit, imprinted_is_instance
-/
import Imprint.Proofs.InterleavedLookups

namespace Imprint

/-- The version that a package has for a file when it is looked up at some moment between two states
of the memory; a package without a version has an empty one. -/
def Manifest.VersionSeen (host : Host) (manifestFile : String) (file : Path) (before after : Memo)
    (package version : String) : Prop :=
  ∃ middle manifest? later, before <+: middle ∧
    Manifest.ofPackage host manifestFile middle package file = (.ok manifest?, later) ∧
    later <+: after ∧ version = (manifest?.bind Manifest.version).getD ""

/-- A node of the source tree and the node that stands for it in the imprinted tree. -/
inductive Imprints (settings : Settings) (constants : Constants) (clock : Int)
    (seen : String → String → Prop) : Node → Node → Prop where
  /-- The node stays: only what is inside its children can differ. -/
  | stays {span : Span} {kind imprinted : Kind Node} (shape : imprinted.shape = kind.shape)
      (children : List.Forall₂ (Imprints settings constants clock seen)
        kind.children imprinted.children) :
      Imprints settings constants clock seen ⟨span, kind⟩ ⟨span, imprinted⟩
  /-- An identifier gives way to the literal that the rules have for its name. -/
  | identifier {span : Span} {name : String} {literal : Node}
      (rule : Rules.lookup settings constants clock name = some literal) :
      Imprints settings constants clock seen ⟨span, .identifier name⟩ (literal.withSpan span)
  /-- A member chain gives way to the literal that the rules have for its dotted name, which is read
  off the chain once its parts are imprinted. -/
  | chain {span : Span} {owner part imprintedOwner imprintedPart : Node} {computed : Bool}
      {tail : String} {literal : Node}
      (owners : Imprints settings constants clock seen owner imprintedOwner)
      (parts : Imprints settings constants clock seen part imprintedPart)
      (ends : Node.chainTail? ⟨span, .member owner part computed⟩ = some tail)
      (rule : Rules.lookup settings constants clock
        (Node.chainName ⟨span, .member imprintedOwner imprintedPart computed⟩ tail) =
          some literal) :
      Imprints settings constants clock seen ⟨span, .member owner part computed⟩
        (literal.withSpan span)
  /-- The call of the package version without arguments gives way to the version of the project. -/
  | ownVersion {span : Span} {callee literal : Node}
      (called : callee.identifier? = some Rules.versionName)
      (rule : Rules.builtIn? settings constants clock .packageVersion = some literal) :
      Imprints settings constants clock seen ⟨span, .call callee []⟩ (literal.withSpan span)
  /-- The call of the package version with a string gives way to the version of that package. -/
  | dependencyVersion {span : Span} {callee argument : Node} {package version : String}
      (called : callee.identifier? = some Rules.versionName)
      (asked : argument.text? = some package) (version_seen : seen package version) :
      Imprints settings constants clock seen ⟨span, .call callee [argument]⟩
        ((Node.string version).withSpan span)

namespace Imprints

variable {settings : Settings} {constants : Constants} {clock : Int}
  {seen : String → String → Prop}

/-- Every walk gives an instance, whatever the position, as long as the versions of the packages that
it asks for were seen. -/
theorem visit {rules : Rules} (names : rules.literal? = Rules.lookup settings constants clock)
    (bareCall : rules.bareCall? = Rules.builtIn? settings constants clock .packageVersion)
    (position : Position) (node : Node)
    (known : ∀ package ∈ (rules.visit position node).packages,
      seen package (rules.version package)) :
    Imprints settings constants clock seen node (rules.visit position node).value := by
  induction node using Node.childInduction generalizing position with
  | step node ih =>
      have children : ∀ child ∈ (node.places position).children,
          Imprints settings constants clock seen child.2 (rules.visit child.1 child.2).value := by
        intro child mem
        refine ih child.2 (Node.mem_children_of_mem_places mem) child.1 fun package asked => ?_
        apply known package
        rw [Rules.packages_visit]
        exact List.mem_append_left _ (List.mem_flatMap.mpr ⟨child, mem, asked⟩)
      rw [Rules.value_visit]
      cases replaced : rules.replacement? position node with
      | none =>
          obtain ⟨span, kind⟩ := node
          exact .stays (rules.shape_rebuilt position _) (rules.forall₂_rebuilt children)
      | some found =>
          obtain ⟨name, literal⟩ := found
          rcases rules.replacement?_cases replaced with
            ⟨span, rfl, rfl, rule⟩ |
              ⟨span, owner, part, computed, tail, rfl, rfl, ends, rfl, rule⟩ |
              ⟨span, callee, rfl, walked, called, rfl, rule⟩ |
              ⟨span, callee, argument, package, rfl, walked, called, text, rfl, rfl⟩
          · exact .identifier (names ▸ rule)
          · rw [rules.rebuilt_member (by decide), names] at rule
            rw [Node.children_places_member (by decide)] at children
            have owners := children (.read, owner) (by simp)
            have parts := children (Position.read.memberProperty computed part, part) (by simp)
            exact .chain owners parts ends rule
          · exact .ownVersion called (bareCall ▸ rule)
          · refine .dependencyVersion called text (known package ?_)
            rw [Rules.packages_visit]
            apply List.mem_append_right _
            simp [Rules.asked?, Rules.versionCall?, called, text, walked]

end Imprints

/-- A version that was seen between two states of the memory was seen between any wider two. -/
theorem Manifest.VersionSeen.mono {host : Host} {manifestFile : String} {file : Path}
    {earlier before after later : Memo} {package version : String} (start : earlier <+: before)
    (finish : after <+: later)
    (seen : VersionSeen host manifestFile file before after package version) :
    VersionSeen host manifestFile file earlier later package version := by
  obtain ⟨middle, manifest?, next, grown, found, kept, eq⟩ := seen
  exact ⟨middle, manifest?, next, start.trans grown, found, kept.trans finish, eq⟩

/-- The versions of the packages that a tree asks for are those that the packages have. -/
theorem Manifest.versionSeen_of_versionsOf {host : Host} {manifestFile : String} {file : Path}
    {memo after : Memo} {packages : List String} {versions : List (String × Option String)}
    (eq : versionsOf host manifestFile file memo packages = (.ok versions, after)) :
    ∀ package ∈ packages, VersionSeen host manifestFile file memo after package
      (((versions.lookup package).bind id).getD "") := by
  induction packages generalizing memo versions with
  | nil => simp
  | cons first rest ih =>
      intro package mem
      rw [versionsOf_cons] at eq
      obtain ⟨manifest?, middle, found, eq⟩ := Lookup.andThen_eq_ok eq
      obtain ⟨others, last, rest_ok, eq⟩ := Lookup.andThen_eq_ok eq
      obtain ⟨same, rfl⟩ := Prod.mk.inj eq
      obtain rfl := Except.ok.inj same
      have before : memo <+: middle := by
        have grown := (MadeOfLoads.manifest_ofPackage host manifestFile first file).grows memo
        rwa [found] at grown
      have afterwards : middle <+: last := by
        have grown := (MadeOfLoads.manifest_versionsOf host manifestFile file rest).grows middle
        rwa [rest_ok] at grown
      by_cases same : package = first
      · subst same
        exact ⟨memo, manifest?, middle, List.prefix_refl memo, found, afterwards, by simp⟩
      · have inside := (List.mem_cons.mp mem).resolve_left same
        have seen := (ih rest_ok package inside).mono before (List.prefix_refl last)
        rwa [List.lookup_cons, beq_false_of_ne same]

/-- A tree with constants imprinted on it is an instance of the tree of the source text: one literal
deep, and no deeper. -/
theorem imprinted_is_instance {host : Host} {settings : Settings} {memo after : Memo}
    {constants : Constants} {file : Path} {root : Node} {imprinted : Imprinted}
    (succeeded : Imprinted.ofTree host settings memo constants file root =
      (.ok imprinted, after)) :
    Imprints settings constants host.clock
      (Manifest.VersionSeen host settings.manifestFile file memo after) root imprinted.root := by
  obtain ⟨versions, found, rfl⟩ := Imprinted.ofTree_eq_ok succeeded
  apply Imprints.visit rfl rfl .read root
  intro package asked
  apply Manifest.versionSeen_of_versionsOf found package
  rwa [Rules.packages_visit_eq _ Rules.silent] at asked

/-- When a tree asks for no packages and no name in it is replaced, it is left as it is. -/
theorem Imprinted.ofTree_of_nothing_replaced {host : Host} {settings : Settings} {memo : Memo}
    {constants : Constants} {file : Path} {root : Node} (noPackages : Rules.packagesOf root = [])
    (nothing : ((Rules.ofSettings settings constants host.clock []).visit .read
      root).replacedNames = []) :
    ofTree host settings memo constants file root = (.ok ⟨root, ⟨0, []⟩⟩, memo) := by
  have walked := Rules.value_visit_of_replacedNames_nil _ nothing
  have looked : Manifest.versionsOf host settings.manifestFile file memo (Rules.packagesOf root) =
      (.ok [], memo) := by
    rw [noPackages, Manifest.versionsOf]
  rw [ofTree_of_versionsOf looked, ofRules, nothing, walked]
  rfl

/-! ### A run -/

namespace Sample

/-- A project whose only file is the manifest of a dependency. -/
def host : Host where
  files := .write .empty ⟨["app", "node_modules", "dep", "package.json"]⟩
    "\x7b\"version\":\"1.2.3\"\x7d".toUTF8
  workingDirectory := none
  localTime := ""
  clock := 0

/-- A define whose tree mentions its own name and that of another define. -/
def settings : Settings :=
  (Settings.initial.withDefine "SELF" (.tree (.generated (.member
    (.generated (.identifier "SELF")) (.generated (.identifier "OTHER")) false)))).withDefine
    "OTHER" (.bool true)

/-- The source tree of `f(SELF, a.OTHER, __packageversion__("dep"), OTHER)`. -/
def root : Node :=
  ⟨⟨0, 50⟩, .call ⟨⟨0, 1⟩, .identifier "f"⟩
    [⟨⟨2, 6⟩, .identifier "SELF"⟩,
      ⟨⟨8, 15⟩, .member ⟨⟨8, 9⟩, .identifier "a"⟩ ⟨⟨10, 15⟩, .identifier "OTHER"⟩ false⟩,
      ⟨⟨17, 42⟩, .call ⟨⟨17, 35⟩, .identifier "__packageversion__"⟩
        [⟨⟨36, 41⟩, .leaf (.text "dep")⟩]⟩,
      ⟨⟨44, 49⟩, .identifier "OTHER"⟩]⟩

end Sample

/-- What stands in the place of `SELF` is not walked over again, although it mentions defines. -/
theorem sample_is_instance :
    ∃ imprinted after,
      Imprinted.ofTree Sample.host Sample.settings [] (.outside "") ⟨"/app/main.js"⟩ Sample.root =
          (.ok imprinted, after) ∧
        imprinted.root.canonicalText = "f(SELF.OTHER,a.OTHER,1.2.3,true)" ∧
        Imprints Sample.settings (.outside "") 0
          (Manifest.VersionSeen Sample.host "package.json" ⟨"/app/main.js"⟩ [] after) Sample.root
          imprinted.root := by
  have text : (Imprinted.ofTree Sample.host Sample.settings [] (.outside "") ⟨"/app/main.js"⟩
      Sample.root).1.toOption.map (fun imprinted => imprinted.root.canonicalText) =
        some "f(SELF.OTHER,a.OTHER,1.2.3,true)" := by
    decide +kernel
  obtain ⟨imprinted, found, text⟩ := Option.map_eq_some_iff.mp text
  cases went : Imprinted.ofTree Sample.host Sample.settings [] (.outside "") ⟨"/app/main.js"⟩
      Sample.root with
  | mk result after =>
      rw [went] at found
      cases result with
      | error error => cases found
      | ok other =>
          obtain rfl := Option.some.inj found
          exact ⟨other, after, rfl, text, imprinted_is_instance went⟩

end Imprint

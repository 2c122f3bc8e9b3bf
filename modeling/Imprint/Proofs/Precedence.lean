/-
Module: Imprint.Proofs.Precedence
Purpose: Defines against built-ins of the same name. Where a name is read, the define comes first,
  whatever the switches say. The call of the package version without arguments does not look at the
  defines, so it is the one place where a built-in can stand in for its own define.
Main exports: BuiltIn.dot_not_mem_identifier, Rules.replaced_under_builtIn, Rules.PutsIn,
  puts_in_define_iff, bare_call_passes_over_define
-/
import Imprint.Proofs.ChainSpelling

namespace Imprint

/-! ### Names of chains and names of built-ins -/

theorem Text.dot_mem_join (first second : String) (rest : List String) :
    '.' ∈ (join "." (first :: second :: rest)).toList := by
  simp [join]

/-- No built-in is spelled with a dot. -/
theorem BuiltIn.dot_not_mem_identifier (builtIn : BuiltIn) : '.' ∉ builtIn.identifier.toList := by
  cases builtIn <;> decide +kernel

theorem BuiltIn.ofIdentifier?_of_dot {name : String} (dot : '.' ∈ name.toList) :
    ofIdentifier? name = none := by
  apply List.find?_eq_none.mpr
  intro builtIn _ same
  apply builtIn.dot_not_mem_identifier
  rwa [beq_iff_eq.mp same]

/-- A chain has an object, so its name has a dot. -/
theorem Node.dot_mem_chainName {node : Node} (isMember : node.isMember) (tail : String) :
    '.' ∈ (node.chainName tail).toList := by
  obtain ⟨span, kind⟩ := node
  cases kind with
  | member owner part computed =>
      rw [chainName, chainObjects]
      cases part.chainObjects with
      | nil => exact Text.dot_mem_join _ _ _
      | cons next more => exact Text.dot_mem_join _ _ _
  | _ => cases isMember

namespace Rules

variable {settings : Settings} {constants : Constants} {clock : Int}
  {versions : List (String × Option String)} {builtIn : BuiltIn} {literal found : Node}

/-- A define with a literal form settles what its name stands for. -/
theorem lookup_of_define {name : String}
    (defined : (settings.define? name).bind Value.literal? = some literal) :
    lookup settings constants clock name = some literal := by
  unfold lookup
  rw [defined]

/-- What a name with a dot stands for is up to its define alone. -/
theorem lookup_of_dot {name : String} (dot : '.' ∈ name.toList) :
    lookup settings constants clock name = (settings.define? name).bind Value.literal? := by
  unfold lookup
  rw [BuiltIn.ofIdentifier?_of_dot dot, Option.bind_none]
  split
  · rename_i found
    exact found.symm
  · rename_i missing
    exact missing.symm

/-- What is replaced under the name of a built-in: an identifier of that name, or a call of the package
version. -/
theorem replaced_under_builtIn {rules : Rules} {position : Position} {node : Node}
    (replaced : rules.replacement? position node = some (builtIn.identifier, found)) :
    (∃ span, node = ⟨span, .identifier builtIn.identifier⟩ ∧
        rules.literal? builtIn.identifier = some found) ∨
      (∃ span callee, node = ⟨span, .call callee []⟩ ∧ position ≠ .kept ∧
        callee.identifier? = some versionName ∧ builtIn = .packageVersion ∧
        rules.bareCall? = some found) ∨
      (∃ package, asked? position node = some package ∧ builtIn = .packageVersion ∧
        found = Node.string (rules.version package)) := by
  have same (eq : builtIn.identifier = versionName) : builtIn = .packageVersion := by
    have spelled := congrArg BuiltIn.ofIdentifier? eq
    rw [versionName, BuiltIn.ofIdentifier?_identifier, BuiltIn.ofIdentifier?_identifier] at spelled
    exact Option.some.inj spelled
  rcases rules.replacement?_cases replaced with
    ⟨span, rfl, -, rule⟩ | ⟨span, owner, part, computed, tail, rfl, -, -, name, -⟩ |
      ⟨span, callee, rfl, walked, called, name, rule⟩ |
      ⟨span, callee, argument, package, rfl, walked, called, text, name, rfl⟩
  · exact .inl ⟨span, rfl, rule⟩
  · -- A chain is replaced under a name with a dot.
    exfalso
    apply builtIn.dot_not_mem_identifier
    rw [name, rules.rebuilt_member (by decide)]
    exact Node.dot_mem_chainName rfl tail
  · exact .inr (.inl ⟨span, callee, rfl, walked, called, same name, rule⟩)
  · refine .inr (.inr ⟨package, ?_, same name, rfl⟩)
    simp [asked?, versionCall?, called, text, walked]

/-- Members are replaced under names with a dot. -/
theorem dot_mem_of_isMember {rules : Rules} {position : Position} {node : Node} {name : String}
    (isMember : node.isMember) (replaced : rules.replacement? position node = some (name, found)) :
    '.' ∈ name.toList := by
  rcases rules.replacement?_cases replaced with
    ⟨span, rfl, -⟩ | ⟨span, owner, part, computed, tail, rfl, -, -, rfl, -⟩ |
      ⟨span, callee, rfl, -⟩ | ⟨span, callee, argument, package, rfl, -⟩
  · cases isMember
  · apply Node.dot_mem_chainName
    rw [isMember_rebuilt, isMember]
  · cases isMember
  · cases isMember

/-- Wherever the walk over a tree puts something in for a built-in, it is the given literal. The version
of a package that is asked for by name is left aside. -/
def PutsIn (rules : Rules) (builtIn : BuiltIn) (literal root : Node) : Prop :=
  ∀ position node found, Reaches .read root position node →
    rules.replacement? position node = some (builtIn.identifier, found) →
    asked? position node = none →
    (rules.visit position node).value = literal.withSpan node.span

end Rules

open Rules in
/-- A define with a literal form stands in for the built-in of its name at every place, whatever the
switches say, if and only if no call of the package version without arguments gives way to a version
that is something else. -/
theorem puts_in_define_iff {settings : Settings} {constants : Constants} {clock : Int}
    {versions : List (String × Option String)} {builtIn : BuiltIn} {literal : Node}
    (defined : (settings.define? builtIn.identifier).bind Value.literal? = some literal)
    (root : Node) :
    (ofSettings settings constants clock versions).PutsIn builtIn literal root ↔
      (builtIn = .packageVersion → ∀ position span callee version,
        Reaches .read root position ⟨span, .call callee []⟩ → position ≠ .kept →
        callee.identifier? = some versionName →
        builtIn? settings constants clock .packageVersion = some version →
        version.withSpan span = literal.withSpan span) := by
  constructor
  · rintro putsIn rfl position span callee version reaches walked called enabled
    have replaced : (ofSettings settings constants clock versions).replacement? position
        ⟨span, .call callee []⟩ = some (BuiltIn.packageVersion.identifier, version) := by
      simp only [replacement?, callLiteral?, versionCall?, if_neg walked, if_pos called]
      show (builtIn? settings constants clock .packageVersion).map _ = _
      rw [enabled]
      rfl
    have unasked : asked? position ⟨span, .call callee []⟩ = none := by
      simp [asked?, versionCall?, called]
    have stands := putsIn position _ version reaches replaced unasked
    rwa [value_visit, replaced] at stands
  · intro calls position node found reaches replaced unasked
    rcases replaced_under_builtIn replaced with
      ⟨span, rfl, rule⟩ | ⟨span, callee, rfl, walked, called, rfl, rule⟩ | ⟨package, asked, -⟩
    · rw [value_visit, replaced]
      have defined : some literal = some found := (lookup_of_define defined).symm.trans rule
      rw [Option.some.inj defined]
    · rw [value_visit, replaced]
      exact calls rfl position span callee found reaches walked called rule
    · rw [unasked] at asked
      cases asked

namespace Sample

/-- A define for the package version. -/
def versioned : Settings := Settings.initial.withDefine "__packageversion__" (.text "9.9.9")

/-- The constants of a file in a package of version `1.2.3`. -/
def released : Constants :=
  ⟨some ⟨some "app", some "1.2.3", []⟩, some ⟨"/app"⟩, "", some "/main.js", some "/"⟩

/-- The source tree of `__packageversion__()`. -/
def bareCall : Node := ⟨⟨0, 20⟩, .call ⟨⟨0, 18⟩, .identifier "__packageversion__"⟩ []⟩

/-- The source tree of `[__packageversion__, __packageversion__()]`. -/
def readAndCalled : Node :=
  ⟨⟨0, 42⟩, .array [some ⟨⟨1, 19⟩, .identifier "__packageversion__"⟩,
    some (bareCall.withSpan ⟨21, 41⟩)]⟩

end Sample

/-- With the built-in switched off, the define is all that stands in for it: the identifier gives way,
and the call stays. -/
theorem define_stands_in_when_off :
    (Sample.versioned.define? "__packageversion__").bind Value.literal? =
        some (Node.string "9.9.9") ∧
      ((Rules.ofSettings (Sample.versioned.withBuiltIn .packageVersion false) Sample.released 0
        []).visit .read Sample.readAndCalled).value.canonicalText =
          "[9.9.9, __packageversion__()]" ∧
      (Rules.ofSettings (Sample.versioned.withBuiltIn .packageVersion false) Sample.released 0
        []).PutsIn .packageVersion (Node.string "9.9.9") Sample.readAndCalled := by
  refine ⟨rfl, by decide, ?_⟩
  apply (puts_in_define_iff rfl Sample.readAndCalled).mpr
  intro _ position span callee version reaches walked called enabled
  cases enabled

/-- The call of the package version without arguments passes over the define of that name: it gives way
to the version of the project. -/
theorem bare_call_passes_over_define :
    ¬ ∀ (settings : Settings) (constants : Constants) (clock : Int)
      (versions : List (String × Option String)) (builtIn : BuiltIn) (literal root : Node),
      (settings.define? builtIn.identifier).bind Value.literal? = some literal →
        (Rules.ofSettings settings constants clock versions).PutsIn builtIn literal root := by
  intro wins
  have stands := wins Sample.versioned Sample.released 0 [] .packageVersion (Node.string "9.9.9")
    Sample.bareCall rfl .read Sample.bareCall (Node.string "1.2.3") .here rfl rfl
  have walked : ((Rules.ofSettings Sample.versioned Sample.released 0 []).visit .read
      Sample.bareCall).value.text? = some "1.2.3" := rfl
  rw [stands] at walked
  exact absurd walked (by decide)

end Imprint

/-
Module: Imprint.Proofs.UnusedDefines
Purpose: Defines that nothing was replaced under. A walk asks its rules for many names, but those for
  which it finds a literal are the ones it replaces, and all of them are reported. So a define that is
  missing from the report can be missing from the settings: the tree and the report stay the same.
Main exports: Settings.withoutDefine, Rules.visit_withoutDefine, unreported_define_has_no_influence
-/
import Imprint.Proofs.Reports

namespace Imprint

/-! ### Settings without a define -/

/-- The settings without the define of a name. -/
def Settings.withoutDefine (settings : Settings) (name : String) : Settings :=
  { settings with defines := settings.defines.filter fun entry => entry.1 != name }

namespace Settings

variable (settings : Settings) (removed : String)

theorem define?_withoutDefine_self : (settings.withoutDefine removed).define? removed = none := by
  simp [define?, withoutDefine, Json.member?]

theorem define?_withoutDefine {name : String} (other : name ≠ removed) :
    (settings.withoutDefine removed).define? name = settings.define? name := by
  unfold define? withoutDefine Json.member?
  rw [List.find?_filter]
  congr 2
  funext entry
  grind

end Settings

namespace Rules

variable {settings : Settings} {constants : Constants} {clock : Int}
  {versions : List (String × Option String)} {removed : String}

theorem lookup_withoutDefine {name : String} (other : name ≠ removed) :
    lookup (settings.withoutDefine removed) constants clock name =
      lookup settings constants clock name := by
  unfold lookup
  rw [settings.define?_withoutDefine removed other]
  rfl

/-- Taking a define away gives its name no rule that it did not have: when the define has no literal form,
a built-in stands in for it with the define or without. -/
theorem lookup_withoutDefine_self (missing : lookup settings constants clock removed = none) :
    lookup (settings.withoutDefine removed) constants clock removed = none := by
  unfold lookup at missing ⊢
  rw [settings.define?_withoutDefine_self]
  split at missing
  · cases missing
  · exact missing

/-- On a walk that replaces nothing under the name of a define, nothing is different without it. -/
theorem visit_withoutDefine {position : Position} {node : Node}
    (unreplaced : removed ∉ ((ofSettings settings constants clock versions).visit position
      node).replacedNames) :
    (ofSettings (settings.withoutDefine removed) constants clock versions).visit position node =
      (ofSettings settings constants clock versions).visit position node := by
  refine visit_eq_of_agree ?_ (fun package _ => ?_) fun inner reaches name named => ?_
  · rfl
  · rfl
  show lookup (settings.withoutDefine removed) constants clock name =
    lookup settings constants clock name
  by_cases same : name = removed
  · subst same
    cases rule : lookup settings constants clock name with
    | none => exact lookup_withoutDefine_self rule
    | some literal => exact absurd (mem_replacedNames_of_readName? _ reaches named rule) unreplaced
  · exact lookup_withoutDefine same

end Rules

/-- A define under which nothing is reported has no influence: without it, with the same files and at the
same time, the run succeeds again, makes the same tree, gives the same report and remembers the same
manifests. -/
theorem unreported_define_has_no_influence {host : Host} {settings : Settings} {memo after : Memo}
    {constants : Constants} {file : Path} {root : Node} {imprinted : Imprinted} {name : String}
    (succeeded : Imprinted.ofTree host settings memo constants file root = (.ok imprinted, after))
    (unreported : imprinted.report.byName.lookup name = none) :
    Imprinted.ofTree host (settings.withoutDefine name) memo constants file root =
      (.ok imprinted, after) := by
  obtain ⟨versions, found, rfl⟩ := Imprinted.ofTree_eq_ok succeeded
  have unreplaced : name ∉ ((Rules.ofSettings settings constants host.clock versions).visit .read
      root).replacedNames := by
    intro replaced
    rw [Imprinted.ofRules, Report.lookup_byName, if_pos replaced] at unreported
    cases unreported
  have again : Imprinted.ofTree host (settings.withoutDefine name) memo constants file root =
      (.ok (Imprinted.ofRules (Rules.ofSettings (settings.withoutDefine name) constants host.clock
        versions) root), after) :=
    Imprinted.ofTree_of_versionsOf found
  rw [again, Imprinted.ofRules, Imprinted.ofRules, Rules.visit_withoutDefine unreplaced]

namespace Sample

/-- A define for the start of a chain, one for the chain as it is spelled, and one for the chain as it is
read once its start is replaced. -/
def layered : Settings :=
  ((Settings.initial.withDefine "SELF" (.text "me")).withDefine "SELF.OTHER" (.bool true)).withDefine
    "me.OTHER" (.bool false)

/-- The source tree of `SELF.OTHER`. -/
def layeredChain : Node :=
  ⟨⟨0, 10⟩, .member ⟨⟨0, 4⟩, .identifier "SELF"⟩ ⟨⟨5, 10⟩, .identifier "OTHER"⟩ false⟩

end Sample

/-- The chain `SELF.OTHER` is read as `me.OTHER`, so the define for its spelling has no influence. -/
theorem sample_unreported_define :
    ∃ imprinted after,
      Imprinted.ofTree Sample.host Sample.layered [] (.outside "") ⟨"/app/main.js"⟩
          Sample.layeredChain = (.ok imprinted, after) ∧
        imprinted.report = ⟨2, [("SELF", 1), ("me.OTHER", 1)]⟩ ∧
        Imprinted.ofTree Sample.host (Sample.layered.withoutDefine "SELF.OTHER") [] (.outside "")
          ⟨"/app/main.js"⟩ Sample.layeredChain = (.ok imprinted, after) := by
  have report : (Imprinted.ofTree Sample.host Sample.layered [] (.outside "") ⟨"/app/main.js"⟩
      Sample.layeredChain).1.toOption.map Imprinted.report =
        some ⟨2, [("SELF", 1), ("me.OTHER", 1)]⟩ := by
    decide +kernel
  obtain ⟨imprinted, after, went, report⟩ := Lookup.eq_ok_of_toOption report
  have unreported : imprinted.report.byName.lookup "SELF.OTHER" = none := by
    rw [report]
    rfl
  exact ⟨imprinted, after, went, report, unreported_define_has_no_influence went unreported⟩

end Imprint

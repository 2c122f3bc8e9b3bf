/-
Module: Imprint.Proofs.Composition
Purpose: The walk over a tree is put together from the walks over its parts. A program whose statements
  come in two halves is imprinted exactly when both halves are, its report adds up theirs, and it fails
  with the first failure among them. What is made of a subtree that is read depends on nothing but the
  subtree: not on what the walk came to before, and not on what is remembered, since every operation
  leaves a memory that answers as before.
Main exports: Manifest.fst_versionsOf_append, Rules.events_visit_infix, Rules.follow?_visit,
  Imprinted.IsPart, Imprinted.Joins, Imprinted.Composes, Imprinted.isProgram_ofTree,
  walk_is_compositional
-/
import Imprint.Proofs.Reports
import Imprint.Proofs.SessionRuns
import Imprint.Proofs.Trails

namespace Imprint

/-! ### Versions of some packages among others -/

namespace Manifest

variable {host : Host} {manifestFile : String} {file : Path} {memo other : Memo}

theorem fst_versionsOf_append (packages others : List String) :
    (versionsOf host manifestFile file memo (packages ++ others)).1 = (do
      let front ← (versionsOf host manifestFile file memo packages).1
      let back ← (versionsOf host manifestFile file memo others).1
      return front ++ back) := by
  have made := MadeOfLoads.manifest_versionsOf host manifestFile file others
  rw [versionsOf_append, (MadeOfLoads.manifest_versionsOf host manifestFile file packages).fst_andThen
    fun _ => .andThen made fun _ => .answer _]
  refine bind_congr fun front => ?_
  exact made.fst_andThen (fun _ => .answer _) memo

/-- From memories that answer alike a package gets one version, whatever it is looked up with. -/
theorem lookup_eq_of_versionsOf {packages others : List String}
    {versions otherVersions : List (String × Option String)} (agree : memo.Agree host other)
    (looked : (versionsOf host manifestFile file memo packages).1 = .ok versions)
    (otherLooked : (versionsOf host manifestFile file other others).1 = .ok otherVersions)
    {package : String} (mem : package ∈ packages) (otherMem : package ∈ others) :
    otherVersions.lookup package = versions.lookup package := by
  obtain ⟨manifest?, found, listed⟩ := lookup_of_versionsOf looked package mem
  obtain ⟨other?, otherFound, otherListed⟩ := lookup_of_versionsOf otherLooked package otherMem
  have made := MadeOfLoads.manifest_ofPackage host manifestFile package file
  rw [made.fst_eq agree, otherFound] at found
  obtain rfl := Except.ok.inj found
  rw [listed, otherListed]

/-- Where the versions of packages are found, those of a stretch of them are found. -/
theorem versionsOf_of_infix {packages others : List String}
    {versions : List (String × Option String)} (stretch : others <:+: packages)
    (looked : (versionsOf host manifestFile file memo packages).1 = .ok versions) :
    ∃ found, (versionsOf host manifestFile file memo others).1 = .ok found := by
  obtain ⟨front, back, rfl⟩ := stretch
  rw [fst_versionsOf_append] at looked
  obtain ⟨_, start, -⟩ := Lookup.bind_eq_ok looked
  rw [fst_versionsOf_append] at start
  obtain ⟨_, -, rest⟩ := Lookup.bind_eq_ok start
  obtain ⟨found, inner, -⟩ := Lookup.bind_eq_ok rest
  exact ⟨found, inner⟩

end Manifest

/-! ### What the walk makes of a part -/

namespace Rules

variable (rules : Rules) {position : Position} {root node : Node}

/-- What happens on the way over a subtree happens in one stretch of the walk over the tree. -/
theorem events_visit_infix {trail : List Nat} {places : List Place}
    (leads : Leads root trail places position node) :
    (rules.visit position node).events <:+: (rules.visit .read root).events := by
  induction leads with
  | start => exact List.infix_refl _
  | @onward trail places position node child index place before step ih =>
      obtain ⟨front, back, eq⟩ := List.append_of_mem (Node.mem_places_of_step step position)
      refine List.IsInfix.trans ?_ ih
      rw [rules.events_visit position node, eq, List.flatMap_append, List.flatMap_cons,
        List.append_assoc, List.append_assoc]
      exact List.infix_append' _ _ _

/-- Somewhere on a trail, before its end, the walk replaces a node and all that is inside it. -/
def ReplacesAbove (root : Node) (trail : List Nat) : Prop :=
  ∃ front places position node, front <+: trail ∧ front ≠ trail ∧
    Leads root front places position node ∧ (rules.replacement? position node).isSome

/-- Above the children of a root that stays, nothing is replaced. -/
theorem not_replacesAbove_child {index : Nat} (stays : rules.replacement? .read root = none) :
    ¬ rules.ReplacesAbove root [index] := by
  rintro ⟨front, places, position, node, starts, shorter, leads, replaced⟩
  have empty : front = [] := by
    rcases List.prefix_cons_iff.mp starts with empty | ⟨rest, rfl, nothing⟩
    · exact empty
    · rw [List.prefix_nil.mp nothing] at shorter
      exact absurd rfl shorter
  obtain ⟨rfl, rfl⟩ := leads.eq_root empty
  rw [stays] at replaced
  cases replaced

/-- The node at the end of a trail, as the walk leaves it, is found at the end of the same trail in what
the walk makes of the tree, unless a node further out is replaced. -/
theorem follow?_visit {trail : List Nat} {places : List Place}
    (leads : Leads root trail places position node) :
    (rules.visit .read root).value.follow? trail =
        some (places, (rules.visit position node).value) ∨ rules.ReplacesAbove root trail := by
  induction leads with
  | start => exact .inl rfl
  | @onward trail places position node child index place before step ih =>
      have longer : trail <+: trail ++ [index] := List.prefix_append trail [index]
      rcases ih with found | ⟨front, inner, other, around, shorter, -, leads, replaced⟩
      · cases stays : rules.replacement? position node with
        | some literal =>
            exact .inr ⟨trail, places, position, node, longer, by simp, before, by simp [stays]⟩
        | none =>
            left
            apply Node.follow?_snoc found
            rw [value_visit, stays, steps_rebuilt, List.getElem?_map, step]
            rfl
      · have shorterLength := shorter.length_le
        refine .inr ⟨front, inner, other, around, shorter.trans longer, ?_, leads, replaced⟩
        rintro rfl
        simp at shorterLength

end Rules

/-! ### Programs in two halves -/

/-- A tree and its report are put together from those of the first and the second half of a program. -/
structure Imprinted.Joins (first second whole : Imprinted) : Prop where
  /-- The statements of the first half stand before those of the second. -/
  body : ∃ front back, first.root.kind = .program front ∧ second.root.kind = .program back ∧
    whole.root.kind = .program (front ++ back)
  /-- The replacements add up. -/
  replaced : whole.report.replaced = first.report.replaced + second.report.replaced
  /-- The replacements of every name add up. -/
  byName : ∀ name, whole.report.byName.lookup name =
    Option.merge (· + ·) (first.report.byName.lookup name) (second.report.byName.lookup name)

/-- The outcome for a program in terms of the outcomes for its first and its second half: it fails as the
first half does, or else as the second half does, or else both trees are put together. -/
inductive Imprinted.Composes : Except LookupError Imprinted → Except LookupError Imprinted →
    Except LookupError Imprinted → Prop where
  | firstFails {error : LookupError} {second : Except LookupError Imprinted} :
      Composes (.error error) second (.error error)
  | secondFails {first : Imprinted} {error : LookupError} :
      Composes (.ok first) (.error error) (.error error)
  | both {first second whole : Imprinted} (joins : Joins first second whole) :
      Composes (.ok first) (.ok second) (.ok whole)

/-- When a program is imprinted, both of its halves are. -/
theorem Imprinted.Composes.joins {first second : Except LookupError Imprinted} {whole : Imprinted}
    (composes : Composes first second (.ok whole)) :
    ∃ front back, first = .ok front ∧ second = .ok back ∧ Joins front back whole := by
  cases composes with
  | both joins => exact ⟨_, _, rfl, rfl, joins⟩

namespace Rules

theorem visit_program (rules : Rules) (span : Span) (body : List Node) :
    rules.visit .read ⟨span, .program body⟩ =
      (fun body => ⟨span, .program body⟩) <$> rules.tracer.visitList .read body := by
  rw [visit_of_ne_kept rules (by decide), Walker.visitKind]

/-- A program asks for the packages of its first half and then for those of the second. -/
theorem packagesOf_program_append (xs ys : List Node) (span first second : Span) :
    packagesOf ⟨span, .program (xs ++ ys)⟩ =
      packagesOf ⟨first, .program xs⟩ ++ packagesOf ⟨second, .program ys⟩ := by
  simp only [packagesOf, Traced.packages, visit_program, Traced.events_map, events_visitList,
    List.flatMap_append, List.filterMap_append]

/-- One walk over a program makes of it what it makes of the halves, put together. -/
theorem joins_program (rules : Rules) (xs ys : List Node) (span first second : Span) :
    Imprinted.Joins (.ofRules rules ⟨first, .program xs⟩) (.ofRules rules ⟨second, .program ys⟩)
      (.ofRules rules ⟨span, .program (xs ++ ys)⟩) := by
  have names : (rules.visit .read ⟨span, .program (xs ++ ys)⟩).replacedNames =
      (rules.visit .read ⟨first, .program xs⟩).replacedNames ++
        (rules.visit .read ⟨second, .program ys⟩).replacedNames := by
    simp only [Traced.replacedNames, visit_program, Traced.events_map, events_visitList,
      List.flatMap_append, List.filterMap_append]
  constructor
  · refine ⟨_, _, congrArg Node.kind (congrArg Traced.value (rules.visit_program first xs)),
      congrArg Node.kind (congrArg Traced.value (rules.visit_program second ys)), ?_⟩
    simp only [Imprinted.ofRules, visit_program, Traced.value_map, value_visitList,
      List.map_append]
  · simp only [Imprinted.ofRules, names, Report.ofNames, List.length_append]
  · intro name
    simp only [Imprinted.ofRules, names, Report.lookup_byName_append]

end Rules

namespace Imprinted

variable {host : Host} {settings : Settings} {memo other : Memo} {constants : Constants}
  {file : Path}

theorem fst_ofTree (root : Node) :
    (ofTree host settings memo constants file root).1 =
      (Manifest.versionsOf host settings.manifestFile file memo (Rules.packagesOf root)).1.map
        fun versions => ofRules (Rules.ofSettings settings constants host.clock versions) root := by
  rw [ofTree_eq, Lookup.andThen]
  rcases Manifest.versionsOf host settings.manifestFile file memo (Rules.packagesOf root) with
    ⟨_ | _, _⟩ <;> rfl

/-- What the rules of a run make of a tree whose packages are among those of the run is what they make of
it with the versions that are found for the tree alone. -/
theorem ofRules_eq_of_versionsOf {packages : List String} {root : Node}
    {versions others : List (String × Option String)} (agree : memo.Agree host other)
    (among : Rules.packagesOf root ⊆ packages)
    (looked : (Manifest.versionsOf host settings.manifestFile file memo packages).1 = .ok versions)
    (alone : (Manifest.versionsOf host settings.manifestFile file other
      (Rules.packagesOf root)).1 = .ok others) :
    ofRules (Rules.ofSettings settings constants host.clock others) root =
      ofRules (Rules.ofSettings settings constants host.clock versions) root := by
  have walked : (Rules.ofSettings settings constants host.clock others).visit .read root =
      (Rules.ofSettings settings constants host.clock versions).visit .read root := by
    refine Rules.visit_eq_of_versions ?_ ?_ fun package mem => ?_
    · rfl
    · rfl
    have same := Manifest.lookup_eq_of_versionsOf agree looked alone (among mem) mem
    simp only [Rules.ofSettings, same]
  rw [ofRules, ofRules, walked]

/-- No rule stands in for a whole program: it is imprinted as a program. -/
theorem isProgram_ofTree {root : Node} {after : Memo} {imprinted : Imprinted}
    (isProgram : root.isProgram)
    (succeeded : ofTree host settings memo constants file root = (.ok imprinted, after)) :
    imprinted.root.isProgram := by
  obtain ⟨versions, -, rfl⟩ := ofTree_eq_ok succeeded
  obtain ⟨span, kind⟩ := root
  cases kind with
  | program body =>
      rw [ofRules, Rules.visit_program]
      rfl
  | _ => cases isProgram

/-- The outcome for a program is composed of the outcomes for its halves, each from the memory at the
start. -/
theorem composes_ofTree (xs ys : List Node) (span first second : Span) :
    Composes (ofTree host settings memo constants file ⟨first, .program xs⟩).1
      (ofTree host settings memo constants file ⟨second, .program ys⟩).1
      (ofTree host settings memo constants file ⟨span, .program (xs ++ ys)⟩).1 := by
  have packages := Rules.packagesOf_program_append xs ys span first second
  simp only [fst_ofTree, packages, Manifest.fst_versionsOf_append]
  cases front : (Manifest.versionsOf host settings.manifestFile file memo
    (Rules.packagesOf ⟨first, .program xs⟩)).1 with
  | error error => exact .firstFails
  | ok versions =>
      cases back : (Manifest.versionsOf host settings.manifestFile file memo
        (Rules.packagesOf ⟨second, .program ys⟩)).1 with
      | error error => exact .secondFails
      | ok others =>
          refine .both ?_
          -- One walk under the rules of the whole program makes both trees.
          have whole : (Manifest.versionsOf host settings.manifestFile file memo
              (Rules.packagesOf ⟨span, .program (xs ++ ys)⟩)).1 = .ok (versions ++ others) := by
            rw [packages, Manifest.fst_versionsOf_append, front, back]
            rfl
          dsimp only
          rw [ofRules_eq_of_versionsOf (.refl memo) (packages ▸ List.subset_append_left _ _) whole
              front,
            ofRules_eq_of_versionsOf (.refl memo) (packages ▸ List.subset_append_right _ _) whole
              back]
          exact Rules.joins_program _ xs ys span first second

/-- A run on a subtree that is read makes of it what the run on the tree makes of it on its way. -/
theorem ofTree_of_leads {root node : Node} {trail : List Nat} {places : List Place}
    {versions : List (String × Option String)} (agree : memo.Agree host other)
    (leads : Leads root trail places .read node)
    (looked : (Manifest.versionsOf host settings.manifestFile file memo
      (Rules.packagesOf root)).1 = .ok versions) :
    (ofTree host settings other constants file node).1 =
      .ok (ofRules (Rules.ofSettings settings constants host.clock versions) node) := by
  have stretch : Rules.packagesOf node <:+: Rules.packagesOf root :=
    (Rules.silent.events_visit_infix leads).filterMap _
  obtain ⟨others, alone⟩ := Manifest.versionsOf_of_infix stretch looked
  rw [(MadeOfLoads.manifest_versionsOf host settings.manifestFile file
    (Rules.packagesOf node)).fst_eq agree] at alone
  rw [fst_ofTree, alone, ← ofRules_eq_of_versionsOf agree stretch.subset looked alone]
  rfl

/-- What became of a subtree is part of what became of the tree under the same rules. -/
structure IsPart (rules : Rules) (root : Node) (trail : List Nat) (places : List Place)
    (part whole : Imprinted) : Prop where
  /-- The replacements of every name are among those in the tree. -/
  counts : ∀ name, part.report.count name ≤ whole.report.count name
  /-- It stands where the subtree stood, unless a node further out was replaced. -/
  stands : whole.root.follow? trail = some (places, part.root) ∨ rules.ReplacesAbove root trail

theorem isPart_ofRules (rules : Rules) {root node : Node} {trail : List Nat} {places : List Place}
    (leads : Leads root trail places .read node) :
    IsPart rules root trail places (ofRules rules node) (ofRules rules root) where
  counts name := by
    have stretch : (rules.visit .read node).replacedNames <:+:
        (rules.visit .read root).replacedNames :=
      (rules.events_visit_infix leads).filterMap _
    rw [ofRules, ofRules, Report.count_ofNames, Report.count_ofNames]
    exact stretch.count_le name
  stands := rules.follow?_visit leads

end Imprinted

/-- The walk is compositional. With the same files, settings, constants and time, a program is imprinted
exactly when its first and its second half are, with the statements of one before those of the other
and with their counts added up; otherwise it fails as the first half does, or else as the second. When a
tree is imprinted, what the run makes of a subtree that is read is what a run on the subtree alone gives,
and this stands where the subtree stood, unless a literal was put in further out. Each of the runs can
start with what was remembered after any operations, since these leave a memory that answers as
before. -/
theorem walk_is_compositional (host : Host) (settings : Settings) (constants : Constants)
    (file : Path) :
    (∀ (memo before after : Memo), memo.Agree host before → memo.Agree host after →
        ∀ (xs ys : List Node) (span first second : Span),
          Imprinted.Composes
            (Imprinted.ofTree host settings before constants file ⟨first, .program xs⟩).1
            (Imprinted.ofTree host settings after constants file ⟨second, .program ys⟩).1
            (Imprinted.ofTree host settings memo constants file ⟨span, .program (xs ++ ys)⟩).1) ∧
      (∀ (memo later : Memo), memo.Agree host later → ∀ (root : Node) (imprinted : Imprinted),
        (Imprinted.ofTree host settings memo constants file root).1 = .ok imprinted →
          ∃ versions,
            imprinted = .ofRules (.ofSettings settings constants host.clock versions) root ∧
            ∀ trail places node, Leads root trail places .read node → ∃ part,
              (Imprinted.ofTree host settings later constants file node).1 = .ok part ∧
              part = .ofRules (.ofSettings settings constants host.clock versions) node ∧
              Imprinted.IsPart (.ofSettings settings constants host.clock versions) root trail
                places part imprinted) ∧
      (∀ (memo later : Memo), memo.Agree host later → ∀ root,
        (Imprinted.ofTree host settings memo constants file root).1 =
          (Imprinted.ofTree host settings later constants file root).1) ∧
      ∀ (session : Session) (operation : Operation),
        session.memo.Agree host (session.perform host operation).2.memo := by
  have unmoved {memo later : Memo} (agree : memo.Agree host later) (root : Node) :
      (Imprinted.ofTree host settings memo constants file root).1 =
        (Imprinted.ofTree host settings later constants file root).1 :=
    (MadeOfLoads.imprinted_ofTree host settings constants file root).fst_eq agree
  refine ⟨?_, ?_, fun memo later agree => unmoved agree, ?_⟩
  · intro memo before after agreeBefore agreeAfter xs ys span first second
    rw [← unmoved agreeBefore, ← unmoved agreeAfter]
    exact Imprinted.composes_ofTree xs ys span first second
  · intro memo later agree root imprinted succeeded
    obtain ⟨versions, looked, rfl⟩ := Imprinted.ofTree_eq_ok (Prod.ext succeeded rfl)
    refine ⟨versions, rfl, fun trail places node leads => ⟨_, ?_, rfl, ?_⟩⟩
    · exact Imprinted.ofTree_of_leads agree leads (congrArg Prod.fst looked)
    · exact Imprinted.isPart_ofRules _ leads
  · intro session operation
    rw [Session.perform_eq]
    exact (MadeOfLoads.operation host session.settings session.now operation).agree session.memo

namespace Sample

/-- The source tree of the statement `OTHER`. -/
def statement : Node := ⟨⟨0, 6⟩, .expressionStatement ⟨⟨0, 5⟩, .identifier "OTHER"⟩⟩

/-- The source tree of `__packageversion__("dep")`. -/
def dependencyCall : Node :=
  ⟨⟨7, 32⟩, .call ⟨⟨7, 25⟩, .identifier "__packageversion__"⟩ [⟨⟨26, 31⟩, .leaf (.text "dep")⟩]⟩

/-- What a session remembers after it looked up the package `dep`. -/
def rememberedDep : Memo :=
  ((Session.start settings "").perform host (.package "dep" ⟨"/app/main.js"⟩)).2.memo

/-- The source tree of the statement that calls for the version of `dep`. -/
def dependencyStatement : Node := ⟨⟨7, 33⟩, .expressionStatement dependencyCall⟩

theorem leads_dependencyCall :
    Leads ⟨⟨0, 33⟩, .program ([statement] ++ [dependencyStatement])⟩ [1, 0] [.value, .value] .read
      dependencyCall := by
  have outer : Node.steps ⟨⟨0, 33⟩, .program ([statement] ++ [dependencyStatement])⟩ =
      [(.value, statement), (.value, dependencyStatement)] := rfl
  have inner : dependencyStatement.steps = [(.value, dependencyCall)] := rfl
  have second : Leads ⟨⟨0, 33⟩, .program ([statement] ++ [dependencyStatement])⟩ [1] [.value] .read
      dependencyStatement :=
    .onward .start (by rw [outer]; rfl)
  exact .onward second (by rw [inner]; rfl)

end Sample

/-- A program of two statements is put together from them, also when the version that the second one
calls for is remembered by then. -/
theorem sample_walk_is_compositional :
    Sample.rememberedDep.length = 1 ∧ Memo.Agree Sample.host [] Sample.rememberedDep ∧
      ∃ first second whole,
        (Imprinted.ofTree Sample.host Sample.settings [] (.outside "") ⟨"/app/main.js"⟩
          ⟨⟨0, 6⟩, .program [Sample.statement]⟩).1 = .ok first ∧
        (Imprinted.ofTree Sample.host Sample.settings Sample.rememberedDep (.outside "")
          ⟨"/app/main.js"⟩ ⟨⟨7, 33⟩, .program [Sample.dependencyStatement]⟩).1 = .ok second ∧
        (Imprinted.ofTree Sample.host Sample.settings [] (.outside "") ⟨"/app/main.js"⟩
          ⟨⟨0, 33⟩, .program ([Sample.statement] ++ [Sample.dependencyStatement])⟩).1 =
            .ok whole ∧
        whole.report = ⟨2, [("OTHER", 1), ("__packageversion__", 1)]⟩ ∧
        Imprinted.Joins first second whole ∧
        ∃ part,
          (Imprinted.ofTree Sample.host Sample.settings Sample.rememberedDep (.outside "")
            ⟨"/app/main.js"⟩ Sample.dependencyCall).1 = .ok part ∧
          ∀ name, part.report.count name ≤ whole.report.count name := by
  obtain ⟨programs, subtrees, -, unmoved⟩ :=
    walk_is_compositional Sample.host Sample.settings (.outside "") ⟨"/app/main.js"⟩
  have agree : Memo.Agree Sample.host [] Sample.rememberedDep :=
    unmoved (.start Sample.settings "") (.package "dep" ⟨"/app/main.js"⟩)
  have report : (Imprinted.ofTree Sample.host Sample.settings [] (.outside "") ⟨"/app/main.js"⟩
      ⟨⟨0, 33⟩, .program ([Sample.statement] ++ [Sample.dependencyStatement])⟩).1.toOption.map
        Imprinted.report = some ⟨2, [("OTHER", 1), ("__packageversion__", 1)]⟩ := by
    decide +kernel
  obtain ⟨whole, after, went, report⟩ := Lookup.eq_ok_of_toOption report
  have composes := programs [] [] Sample.rememberedDep (.refl []) agree [Sample.statement]
    [Sample.dependencyStatement] ⟨0, 33⟩ ⟨0, 6⟩ ⟨7, 33⟩
  rw [went] at composes
  obtain ⟨first, second, front, back, joins⟩ := composes.joins
  obtain ⟨versions, -, parts⟩ := subtrees [] Sample.rememberedDep agree _ whole
    (congrArg Prod.fst went)
  obtain ⟨part, alone, -, isPart⟩ := parts _ _ _ Sample.leads_dependencyCall
  exact ⟨by decide +kernel, agree, first, second, whole, front, back, congrArg Prod.fst went,
    report, joins, part, alone, isPart.counts⟩

end Imprint

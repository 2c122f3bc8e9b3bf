/-
Module: Imprint.Proofs.Reports
Purpose: The report on an imprinted tree accounts for every change that was made to it. Its numbers add
  up, no node is counted twice, nothing changes without being counted, and every name in it comes from
  a define, from a built-in that is switched on and available, or from a call that asks for the version
  of a package.
Main exports: Report.lookup_tally, Report.mem_byName, Report.lookup_byName_append, Node.isReplaceable,
  Rules.length_replacedNames_le, Origin, Accounts, changes_are_accounted_for
-/
import Imprint.Proofs.Instances
import Imprint.Proofs.Precedence
import Mathlib.Algebra.GroupWithZero.Nat
import Mathlib.Algebra.Order.BigOperators.Group.List
import Mathlib.Algebra.Order.Group.Nat
import Mathlib.Data.List.Induction
import Mathlib.Data.String.Basic

namespace Imprint

/-! ### Tallies -/

namespace Report

/-- Names stand in order, each of them once. -/
def Ordered (counts : List (String × Nat)) : Prop :=
  counts.Pairwise fun first second => first.1 < second.1

/-- All counts together. -/
def total (counts : List (String × Nat)) : Nat := (counts.map Prod.snd).sum

variable {name key : String} {counts : List (String × Nat)} {names : List String}

/-- A tally counts one more. -/
theorem total_tally (name : String) (counts : List (String × Nat)) :
    total (tally name counts) = total counts + 1 := by
  induction counts with
  | nil => rfl
  | cons first rest ih =>
      obtain ⟨other, count⟩ := first
      unfold total at ih ⊢
      rw [tally]
      split
      · simp only [List.map_cons, List.sum_cons]
        omega
      · split
        · simp only [List.map_cons, List.sum_cons]
          omega
        · simp only [List.map_cons, List.sum_cons, ih]
          omega

/-- A tally adds no name but the one that it counts. -/
theorem mem_keys_tally {entry : String × Nat} (mem : entry ∈ tally name counts) :
    entry.1 = name ∨ ∃ old ∈ counts, old.1 = entry.1 := by
  induction counts with
  | nil => exact .inl (congrArg Prod.fst (List.mem_singleton.mp mem))
  | cons first rest ih =>
      obtain ⟨other, count⟩ := first
      rw [tally] at mem
      split at mem
      · rename_i same
        rcases List.mem_cons.mp mem with rfl | inside
        · exact .inl same.symm
        · exact .inr ⟨entry, List.mem_cons_of_mem _ inside, rfl⟩
      · split at mem
        · rcases List.mem_cons.mp mem with rfl | old
          · exact .inl rfl
          · exact .inr ⟨entry, old, rfl⟩
        · rcases List.mem_cons.mp mem with rfl | inside
          · exact .inr ⟨_, List.mem_cons_self, rfl⟩
          · rcases ih inside with new | ⟨old, among, eq⟩
            · exact .inl new
            · exact .inr ⟨old, List.mem_cons_of_mem _ among, eq⟩

/-- A tally keeps the names in order. -/
theorem ordered_tally (ordered : Ordered counts) : Ordered (tally name counts) := by
  induction counts with
  | nil => exact List.pairwise_singleton _ _
  | cons first rest ih =>
      obtain ⟨other, count⟩ := first
      obtain ⟨below, inner⟩ := List.pairwise_cons.mp ordered
      rw [tally]
      split
      · exact List.pairwise_cons.mpr ⟨below, inner⟩
      · rename_i different
        split
        · rename_i before
          refine List.pairwise_cons.mpr ⟨?_, ordered⟩
          intro entry mem
          rcases List.mem_cons.mp mem with rfl | inside
          · exact before
          · exact lt_trans before (below entry inside)
        · rename_i notBefore
          refine List.pairwise_cons.mpr ⟨?_, ih inner⟩
          intro entry mem
          rcases mem_keys_tally mem with new | ⟨old, among, eq⟩
          · rw [new]
            exact lt_of_le_of_ne (le_of_not_gt notBefore) (Ne.symm different)
          · rw [← eq]
            exact below old among

theorem lookup_cons (entry : String × Nat) (rest : List (String × Nat)) (key : String) :
    (entry :: rest).lookup key = if key = entry.1 then some entry.2 else rest.lookup key := by
  by_cases asked : key = entry.1
  · rw [if_pos asked, asked, List.lookup_cons, beq_self_eq_true]
  · rw [if_neg asked, List.lookup_cons, beq_false_of_ne asked]

/-- A name in front of all that were counted was not counted. -/
theorem lookup_eq_none_of_lt (below : ∀ entry ∈ counts, key < entry.1) :
    counts.lookup key = none := by
  rw [List.lookup_eq_none_iff]
  intro entry mem
  exact bne_iff_ne.mpr (ne_of_lt (below entry mem))

/-- One more replacement for a name adds one to its count, and leaves the other counts alone. -/
theorem lookup_tally (ordered : Ordered counts) (key : String) :
    (tally name counts).lookup key =
      if key = name then some ((counts.lookup name).getD 0 + 1) else counts.lookup key := by
  induction counts with
  | nil => exact lookup_cons (name, 1) [] key
  | cons first rest ih =>
      obtain ⟨other, count⟩ := first
      obtain ⟨below, inner⟩ := List.pairwise_cons.mp ordered
      rw [tally]
      split
      · rename_i same
        rw [lookup_cons, lookup_cons, lookup_cons, if_pos same, same]
        split <;> rfl
      · rename_i different
        split
        · rename_i before
          have missing : List.lookup name ((other, count) :: rest) = none := by
            apply lookup_eq_none_of_lt
            intro entry mem
            rcases List.mem_cons.mp mem with rfl | inside
            · exact before
            · exact lt_trans before (below entry inside)
          rw [missing, lookup_cons]
          rfl
        · rw [lookup_cons, ih inner, lookup_cons, lookup_cons, if_neg different]
          by_cases asked : key = name
          · rw [if_pos asked, if_neg (asked ▸ different), if_pos asked]
          · rw [if_neg asked, if_neg asked]

/-- Counts in order have one entry for every name. -/
theorem lookup_eq_some (ordered : Ordered counts) {entry : String × Nat} :
    counts.lookup entry.1 = some entry.2 ↔ entry ∈ counts := by
  induction counts with
  | nil => simp
  | cons first rest ih =>
      obtain ⟨below, inner⟩ := List.pairwise_cons.mp ordered
      rw [lookup_cons, List.mem_cons]
      by_cases same : entry.1 = first.1
      · have outside : entry ∉ rest := by
          intro inside
          exact absurd same (ne_of_gt (below entry inside))
        rw [if_pos same, Option.some_inj, or_iff_left outside]
        constructor
        · intro counts
          exact Prod.ext same counts.symm
        · rintro rfl
          rfl
      · have other : entry ≠ first := fun eq => same (congrArg Prod.fst eq)
        rw [if_neg same, or_iff_right other, ih inner]

/-! ### The report of a list of names -/

/-- A report on one more name tallies it. -/
theorem byName_append_single (names : List String) (last : String) :
    (ofNames (names ++ [last])).byName = tally last (ofNames names).byName := by
  simp [ofNames]

/-- The names of a report are in order. -/
theorem ordered_byName (names : List String) : Ordered (ofNames names).byName := by
  induction names using List.reverseRecOn with
  | nil => exact List.Pairwise.nil
  | append_singleton names last ih =>
      rw [byName_append_single]
      exact ordered_tally ih

/-- The counts of a report add up to the number of names. -/
theorem total_byName (names : List String) : total (ofNames names).byName = names.length := by
  induction names using List.reverseRecOn with
  | nil => rfl
  | append_singleton names last ih =>
      rw [byName_append_single, total_tally, ih, List.length_append]
      rfl

/-- Every name that was replaced is listed with the number of times that it was. -/
theorem lookup_byName (names : List String) (key : String) :
    (ofNames names).byName.lookup key = if key ∈ names then some (names.count key) else none := by
  induction names using List.reverseRecOn with
  | nil => rfl
  | append_singleton names last ih =>
      rw [byName_append_single, lookup_tally (ordered_byName names), List.count_append]
      by_cases asked : key = last
      · subst asked
        have listed : key ∈ names ++ [key] := List.mem_append_right names List.mem_cons_self
        rw [if_pos rfl, if_pos listed, ih, List.count_singleton_self]
        by_cases mem : key ∈ names
        · rw [if_pos mem, Option.getD_some]
        · rw [if_neg mem, List.count_eq_zero_of_not_mem mem]
          rfl
      · have others : key ∈ names ++ [last] ↔ key ∈ names := by simp [asked]
        have once : List.count key [last] = 0 := List.count_eq_zero.mpr (by simp [asked])
        rw [if_neg asked, ih, once, Nat.add_zero]
        simp only [others]

/-- The entries of a report are the names that were replaced, each with the number of times. -/
theorem mem_byName {entry : String × Nat} :
    entry ∈ (ofNames names).byName ↔ entry.1 ∈ names ∧ entry.2 = names.count entry.1 := by
  rw [← lookup_eq_some (ordered_byName names), lookup_byName]
  split
  · rename_i mem
    rw [Option.some_inj, eq_comm, and_iff_right mem]
  · rename_i missing
    simp [missing]

/-- A name is counted as often as it was replaced. -/
theorem count_ofNames (names : List String) (name : String) :
    (ofNames names).count name = names.count name := by
  rw [count, lookup_byName]
  by_cases mem : name ∈ names
  · rw [if_pos mem, Option.getD_some]
  · rw [if_neg mem, Option.getD_none, List.count_eq_zero_of_not_mem mem]

/-- The report on some names and then others lists every name with both of its counts added up. -/
theorem lookup_byName_append (names others : List String) (name : String) :
    (ofNames (names ++ others)).byName.lookup name =
      Option.merge (· + ·) ((ofNames names).byName.lookup name)
        ((ofNames others).byName.lookup name) := by
  simp only [lookup_byName, List.mem_append, List.count_append]
  by_cases first : name ∈ names
  · by_cases second : name ∈ others
    · simp [first, second]
    · simp [first, second, List.count_eq_zero_of_not_mem second]
  · by_cases second : name ∈ others
    · simp [first, second, List.count_eq_zero_of_not_mem first]
    · simp [first, second]

end Report

/-! ### Nodes that can be replaced -/

namespace Node

/-- Identifiers, members and calls: the kinds of syntax that a literal can stand in for. -/
def isReplaceable (node : Node) : Bool :=
  match node.kind with
  | .identifier _ => true
  | .member .. => true
  | .call .. => true
  | _ => false

/-- How many nodes of a tree a literal can stand in for. -/
def replaceable (root : Node) : Nat := root.nodes.countP isReplaceable

/-- What can be replaced in a tree is counted node by node. -/
theorem replaceable_eq (node : Node) :
    node.replaceable =
      (node.kind.children.map replaceable).sum + if node.isReplaceable then 1 else 0 := by
  rw [replaceable, nodes_eq, List.countP_cons, List.countP_flatMap]
  rfl

end Node

namespace Rules

variable (rules : Rules)

/-- What is replaced can be replaced. -/
theorem isReplaceable_of_replacement? {position : Position} {node : Node} {found : String × Node}
    (eq : rules.replacement? position node = some found) : node.isReplaceable := by
  obtain ⟨name, literal⟩ := found
  rcases rules.replacement?_cases eq with
    ⟨span, rfl, -⟩ | ⟨span, owner, part, computed, tail, rfl, -⟩ | ⟨span, callee, rfl, -⟩ |
      ⟨span, callee, argument, package, rfl, -⟩
  all_goals rfl

/-- No node is replaced twice, and what is put in is not replaced again. -/
theorem length_replacedNames_le (position : Position) (node : Node) :
    (rules.visit position node).replacedNames.length ≤ node.replaceable := by
  induction node using Node.childInduction generalizing position with
  | step node ih =>
      rw [replacedNames_visit, List.length_append, List.length_flatMap, Node.replaceable_eq,
        ← node.map_children_places position, List.map_map]
      apply Nat.add_le_add
      · apply List.sum_le_sum
        intro child mem
        exact ih child.2 (Node.mem_children_of_mem_places mem) child.1
      · cases replaced : rules.replacement? position node with
        | none => exact Nat.zero_le _
        | some found =>
            rw [rules.isReplaceable_of_replacement? replaced]
            rfl

end Rules

/-! ### Where the names in a report come from -/

/-- Where a name comes from under which something in a tree is replaced. -/
inductive Origin (settings : Settings) (constants : Constants) (clock : Int) (root : Node) :
    String → Prop where
  /-- It has a define with a literal form. -/
  | define {name : String} {literal : Node}
      (defined : (settings.define? name).bind Value.literal? = some literal) :
      Origin settings constants clock root name
  /-- It spells a built-in that is switched on and has a literal for the file. -/
  | builtIn {builtIn : BuiltIn} {literal : Node} (enabled : settings.isEnabled builtIn)
      (available : constants.literal? clock builtIn = some literal) :
      Origin settings constants clock root builtIn.identifier
  /-- It is called for the version of a package. -/
  | dependency {position : Position} {node : Node} {package : String}
      (reaches : Reaches .read root position node)
      (asked : Rules.asked? position node = some package) :
      Origin settings constants clock root Rules.versionName

namespace Origin

variable {settings : Settings} {constants : Constants} {clock : Int} {root : Node} {name : String}

/-- The name of a built-in with a literal comes from the built-in. -/
theorem ofBuiltIn {builtIn : BuiltIn} {literal : Node}
    (eq : Rules.builtIn? settings constants clock builtIn = some literal) :
    Origin settings constants clock root builtIn.identifier := by
  obtain ⟨enabled, available⟩ := Option.ite_none_right_eq_some.mp eq
  exact .builtIn enabled available

/-- A name with a literal comes from a define or a built-in. -/
theorem ofLookup {literal : Node} (rule : Rules.lookup settings constants clock name = some literal) :
    Origin settings constants clock root name := by
  unfold Rules.lookup at rule
  split at rule
  · rename_i found
    exact .define found
  · obtain ⟨builtIn, spelled, eq⟩ := Option.bind_eq_some_iff.mp rule
    have same : builtIn.identifier = name := by simpa using List.find?_some spelled
    exact same ▸ ofBuiltIn eq

/-- Whatever is replaced in a tree is replaced under a name that comes from somewhere. -/
theorem ofReplaces {versions : List (String × Option String)} {node : Node}
    (replaces : (Rules.ofSettings settings constants clock versions).Replaces .read root node name) :
    Origin settings constants clock root name := by
  obtain ⟨position, literal, reaches, replaced⟩ := replaces
  rcases Rules.replacement?_cases _ replaced with
    ⟨span, rfl, -, rule⟩ | ⟨span, owner, part, computed, tail, rfl, -, -, -, rule⟩ |
      ⟨span, callee, rfl, walked, called, rfl, rule⟩ |
      ⟨span, callee, argument, package, rfl, walked, called, text, rfl, rfl⟩
  · exact ofLookup rule
  · exact ofLookup rule
  · exact ofBuiltIn rule
  · have asked : Rules.asked? position ⟨span, .call callee [argument]⟩ = some package := by
      simp [Rules.asked?, Rules.versionCall?, called, text, walked]
    exact .dependency reaches asked

/-- Names with a dot come from defines. -/
theorem defined_of_dot (origin : Origin settings constants clock root name)
    (dot : '.' ∈ name.toList) :
    ∃ literal, (settings.define? name).bind Value.literal? = some literal := by
  cases origin with
  | define defined => exact ⟨_, defined⟩
  | builtIn => exact absurd dot (BuiltIn.dot_not_mem_identifier _)
  | dependency => exact absurd dot BuiltIn.packageVersion.dot_not_mem_identifier

end Origin

/-! ### The account -/

/-- The report on an imprinted tree accounts for every change of the tree. -/
structure Accounts (settings : Settings) (constants : Constants) (clock : Int) (root : Node)
    (imprinted : Imprinted) : Prop where
  /-- The names stand in order, each of them once. -/
  ordered : Report.Ordered imprinted.report.byName
  /-- The counts of all names add up to the number of replacements. -/
  total : imprinted.report.replaced = Report.total imprinted.report.byName
  /-- No name is listed that was not replaced. -/
  counted : ∀ entry ∈ imprinted.report.byName, 1 ≤ entry.2
  /-- There are no more replacements than nodes of the source tree that can be replaced. -/
  once : imprinted.report.replaced ≤ root.replaceable
  /-- Nothing changes without being counted. -/
  unchanged : imprinted.report.replaced = 0 → imprinted.root = root
  /-- Every name comes from somewhere. -/
  origin : ∀ entry ∈ imprinted.report.byName, Origin settings constants clock root entry.1
  /-- Names with a dot come from defines with a literal form. -/
  dotted : ∀ entry ∈ imprinted.report.byName, '.' ∈ entry.1.toList →
    ∃ literal, (settings.define? entry.1).bind Value.literal? = some literal

section Accounts

variable {host : Host} {settings : Settings} {memo after : Memo} {constants : Constants}
  {file : Path} {root : Node} {imprinted : Imprinted}

theorem accounts_of_ofTree (succeeded : Imprinted.ofTree host settings memo constants file root =
    (.ok imprinted, after)) : Accounts settings constants host.clock root imprinted := by
  obtain ⟨versions, -, rfl⟩ := Imprinted.ofTree_eq_ok succeeded
  have origin : ∀ entry ∈ (Imprinted.ofRules
      (Rules.ofSettings settings constants host.clock versions) root).report.byName,
        Origin settings constants host.clock root entry.1 := by
    intro entry mem
    obtain ⟨listed, -⟩ := Report.mem_byName.mp mem
    obtain ⟨node, replaces⟩ := (Rules.mem_replacedNames_visit _).mp listed
    exact .ofReplaces replaces
  constructor
  · exact Report.ordered_byName _
  · exact (Report.total_byName _).symm
  · intro entry mem
    obtain ⟨listed, count⟩ := Report.mem_byName.mp mem
    rw [count]
    exact List.count_pos_iff.mpr listed
  · exact Rules.length_replacedNames_le _ .read root
  · intro nothing
    exact Rules.value_visit_of_replacedNames_nil _ (List.eq_nil_of_length_eq_zero nothing)
  · exact origin
  · intro entry mem
    exact (origin entry mem).defined_of_dot

/-- Without built-ins, literals of defines and calls that ask for versions, a tree is left as it is. -/
theorem ofTree_of_nothing_to_imprint (off : ∀ builtIn, settings.isEnabled builtIn = false)
    (undefined : ∀ name, (settings.define? name).bind Value.literal? = none)
    (unasked : ∀ position node, Reaches .read root position node →
      Rules.asked? position node = none) :
    Imprinted.ofTree host settings memo constants file root = (.ok ⟨root, ⟨0, []⟩⟩, memo) := by
  apply Imprinted.ofTree_of_nothing_replaced (Rules.packagesOf_eq_nil.mpr unasked)
  apply List.eq_nil_iff_forall_not_mem.mpr
  intro name mem
  obtain ⟨node, replaces⟩ := (Rules.mem_replacedNames_visit _).mp mem
  cases Origin.ofReplaces replaces with
  | define defined =>
      rw [undefined name] at defined
      cases defined
  | builtIn enabled =>
      rw [off] at enabled
      cases enabled
  | dependency reaches asked =>
      rw [unasked _ _ reaches] at asked
      cases asked

end Accounts

/-- Whenever a tree is imprinted, the report accounts for all that was changed: its numbers add up,
there is at most one replacement for each identifier, member and call of the source tree, nothing
changes when there is none, and every name in it comes from a define, from a built-in or from a call
that asks for the version of a package. Without any of these a tree is always left as it is. -/
theorem changes_are_accounted_for {host : Host} {settings : Settings} {memo : Memo}
    {constants : Constants} {file : Path} {root : Node} :
    (∀ imprinted after,
        Imprinted.ofTree host settings memo constants file root = (.ok imprinted, after) →
        Accounts settings constants host.clock root imprinted) ∧
      ((∀ builtIn, settings.isEnabled builtIn = false) →
        (∀ name, (settings.define? name).bind Value.literal? = none) →
        (∀ position node, Reaches .read root position node →
          Rules.asked? position node = none) →
        Imprinted.ofTree host settings memo constants file root = (.ok ⟨root, ⟨0, []⟩⟩, memo)) := by
  constructor
  · intro imprinted after succeeded
    exact accounts_of_ofTree succeeded
  · exact ofTree_of_nothing_to_imprint

namespace Sample

/-- Everything switched off, and a define without a literal form. -/
def quiet : Settings := ⟨[("SELF", .undefined)], fun _ => false, Settings.usualManifestFile⟩

end Sample

/-- One replacement each for a tree, a truth value and a version; and none where all is off. -/
theorem sample_changes_are_accounted_for :
    (∃ imprinted after,
      Imprinted.ofTree Sample.host Sample.settings [] (.outside "") ⟨"/app/main.js"⟩ Sample.root =
          (.ok imprinted, after) ∧
        imprinted.report = ⟨3, [("OTHER", 1), ("SELF", 1), ("__packageversion__", 1)]⟩ ∧
        Accounts Sample.settings (.outside "") 0 Sample.root imprinted) ∧
      Imprinted.ofTree Sample.host Sample.quiet [] Sample.released ⟨"/app/main.js"⟩
          Sample.readAndCalled = (.ok ⟨Sample.readAndCalled, ⟨0, []⟩⟩, []) := by
  constructor
  · have report : (Imprinted.ofTree Sample.host Sample.settings [] (.outside "") ⟨"/app/main.js"⟩
        Sample.root).1.toOption.map Imprinted.report =
          some ⟨3, [("OTHER", 1), ("SELF", 1), ("__packageversion__", 1)]⟩ := by
      decide +kernel
    obtain ⟨imprinted, after, went, report⟩ := Lookup.eq_ok_of_toOption report
    exact ⟨imprinted, after, went, report, changes_are_accounted_for.1 imprinted after went⟩
  · apply changes_are_accounted_for.2
    · intro builtIn
      rfl
    · intro name
      by_cases defined : name = "SELF" <;>
        simp [Sample.quiet, Settings.define?, Json.member?, defined, Value.literal?]
    · exact Rules.packagesOf_eq_nil.mp rfl

end Imprint

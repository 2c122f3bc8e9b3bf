/-
Module: Imprint.Proofs.InterleavedLookups
Purpose: The walk looks up every package where it asks for its version. It comes to the same when all
  packages that a tree asks for are looked up first, in the order of the walk, and the tree is then
  walked over with their versions: the answer is the same, and so is what is remembered. Walkers that
  go hand in hand at every single step go hand in hand over every tree, and lookups leave a memory
  that answers as before.
Main exports: Walker.Related, Walker.Related.visit, Imprinted.ofRules, Imprinted.Follows,
  Imprinted.ofTree_eq, Imprinted.ofTree_eq_ok, MadeOfLoads.imprinted_ofTree
-/
import Imprint.Proofs.Loads
import Imprint.Proofs.WalkSteps
import Imprint.Substitution

namespace Imprint

instance : LawfulMonad Traced :=
  LawfulMonad.mk' Traced (fun _ => Traced.ext rfl (List.append_nil _))
    (fun _ _ => Traced.ext rfl (List.nil_append _))
    (fun _ _ _ => Traced.ext rfl (List.append_assoc _ _ _))

/-! ### Walkers that go hand in hand -/

namespace Walker

variable {m n : Type → Type} [Monad m] [Monad n]

/-- Two walkers put in the same literals, and what they do is related: where nothing is done, where one
thing is done after the other, where a name is replaced, and where a version is asked for. -/
structure Related (R : {α : Type} → m α → n α → Prop) (first : Walker m) (second : Walker n) :
    Prop where
  literals : first.literal? = second.literal?
  bareCalls : first.bareCall? = second.bareCall?
  pure {α : Type} (value : α) : R (pure value) (pure value)
  bind {α β : Type} {step : m α} {copy : n α} {next : α → m β} {onward : α → n β}
    (start : R step copy) (rest : ∀ value, R (next value) (onward value)) :
    R (step >>= next) (copy >>= onward)
  replaced (name : String) : R (first.replaced name) (second.replaced name)
  version (package : String) : R (first.version package) (second.version package)

namespace Related

variable {R : {α : Type} → m α → n α → Prop} {first : Walker m} {second : Walker n}
  (related : Related R first second)

include related

/-- Putting in a literal is writing down its name first. -/
theorem replace (name : String) (literal node : Node) :
    R (first.replace name literal node) (second.replace name literal node) :=
  related.bind (related.replaced name) fun _ => related.pure _

/-- A name is substituted hand in hand, with the same literal or none. -/
theorem substitute (name : String) (node : Node) :
    R (first.substitute name node) (second.substitute name node) := by
  rw [Walker.substitute, Walker.substitute, related.literals]
  cases second.literal? name with
  | none => exact related.pure node
  | some literal => exact related.replace name literal node

variable [LawfulMonad m] [LawfulMonad n]

theorem map {α β : Type} (f : α → β) {step : m α} {copy : n α} (start : R step copy) :
    R (f <$> step) (f <$> copy) := by
  rw [map_eq_pure_bind, map_eq_pure_bind]
  exact related.bind start fun value => related.pure (f value)

theorem seq {α β : Type} {step : m (α → β)} {copy : n (α → β)} {more : m α} {others : n α}
    (start : R step copy) (rest : R more others) : R (step <*> more) (copy <*> others) := by
  rw [seq_eq_bind_map, seq_eq_bind_map]
  exact related.bind start fun f => related.map f rest

/-- A list is walked over hand in hand when its nodes are. -/
theorem visitList {position : Position} {nodes : List Node}
    (each : ∀ node ∈ nodes, ∀ position, R (first.visit position node) (second.visit position node)) :
    R (first.visitList position nodes) (second.visitList position nodes) := by
  induction nodes with
  | nil => exact related.pure []
  | cons node rest ih =>
      rw [Walker.visitList, Walker.visitList]
      apply related.seq
      · exact related.map _ (each node List.mem_cons_self position)
      · exact ih fun other mem => each other (List.mem_cons_of_mem node mem)

theorem visitArguments {calleeText : String} {nodes : List Node}
    (each : ∀ node ∈ nodes, ∀ position, R (first.visit position node) (second.visit position node)) :
    R (first.visitArguments calleeText nodes) (second.visitArguments calleeText nodes) := by
  induction nodes with
  | nil => exact related.pure []
  | cons node rest ih =>
      rw [Walker.visitArguments, Walker.visitArguments]
      apply related.seq
      · exact related.map _ (each node List.mem_cons_self _)
      · exact ih fun other mem => each other (List.mem_cons_of_mem node mem)

theorem visitSlots {position : Position} {slots : List (Option Node)}
    (each : ∀ node ∈ slots.flatMap Option.toList,
      ∀ position, R (first.visit position node) (second.visit position node)) :
    R (first.visitSlots position slots) (second.visitSlots position slots) := by
  induction slots with
  | nil => exact related.pure []
  | cons slot rest ih =>
      rw [List.flatMap_cons] at each
      have others := ih fun other mem => each other (List.mem_append_right _ mem)
      cases slot with
      | none =>
          rw [Walker.visitSlots, Walker.visitSlots]
          exact related.map _ others
      | some node =>
          rw [Walker.visitSlots, Walker.visitSlots]
          exact related.seq (related.map _ (each node (by simp) position)) others

theorem visitOption {position : Position} {option : Option Node}
    (each : ∀ node ∈ option.toList,
      ∀ position, R (first.visit position node) (second.visit position node)) :
    R (first.visitOption position option) (second.visitOption position option) := by
  cases option with
  | none => exact related.pure none
  | some node => exact related.map some (each node (by simp) position)

/-- A member is walked over part by part, and the whole chain may give way to a literal. -/
theorem visitMember {position : Position} {span : Span} {object property : Node} {computed : Bool}
    (owner : ∀ position, R (first.visit position object) (second.visit position object))
    (part : ∀ position, R (first.visit position property) (second.visit position property)) :
    R (first.visitKind position span (.member object property computed))
      (second.visitKind position span (.member object property computed)) := by
  rw [Walker.visitKind, Walker.visitKind]
  apply related.bind
  · exact related.seq (related.map _ (owner _)) (part _)
  · intro node
    split
    · exact related.substitute _ node
    · exact related.pure node

/-- A call gives way to the version that it asks for, or is walked over part by part. -/
theorem visitCall {position : Position} {span : Span} {callee : Node} {arguments : List Node}
    (called : ∀ position, R (first.visit position callee) (second.visit position callee))
    (each : ∀ node ∈ arguments, ∀ position,
      R (first.visit position node) (second.visit position node)) :
    R (first.visitKind position span (.call callee arguments))
      (second.visitKind position span (.call callee arguments)) := by
  have parts : R
      ((fun callee arguments => (⟨span, .call callee arguments⟩ : Node)) <$>
        first.visit (.callee callee) callee <*>
        first.visitArguments callee.canonicalText arguments)
      ((fun callee arguments => (⟨span, .call callee arguments⟩ : Node)) <$>
        second.visit (.callee callee) callee <*>
        second.visitArguments callee.canonicalText arguments) :=
    related.seq (related.map _ (called _)) (related.visitArguments each)
  rw [Walker.visitKind, Walker.visitKind, related.bareCalls]
  cases Rules.versionCall? callee arguments with
  | none => exact parts
  | some use =>
      cases use with
      | own =>
          cases second.bareCall? with
          | none => exact parts
          | some literal => exact related.replace _ literal _
      | dependency package =>
          exact related.bind (related.version package) fun _ => related.replace _ _ _

/-- Walkers that go hand in hand at a step do so over every tree. -/
theorem visit (position : Position) (node : Node) :
    R (first.visit position node) (second.visit position node) := by
  induction node using Node.childInduction generalizing position with
  | step node ih =>
      obtain ⟨span, kind⟩ := node
      by_cases kept : position = .kept
      · subst kept
        rw [Walker.visit_kept, Walker.visit_kept]
        exact related.pure _
      rw [Walker.visit_of_ne_kept _ kept, Walker.visit_of_ne_kept _ kept]
      cases kind with
      | identifier name =>
          cases position with
          | read =>
              simp only [Walker.visitKind]
              exact related.substitute name _
          | _ =>
              simp only [Walker.visitKind]
              exact related.pure _
      | member object property computed =>
          exact related.visitMember (ih object (by simp [Kind.children]))
            (ih property (by simp [Kind.children]))
      | call callee arguments =>
          exact related.visitCall (ih callee (by simp [Kind.children]))
            fun node mem => ih node (by simp [Kind.children, mem])
      | _ =>
          -- The children are walked over one after the other.
          simp only [Walker.visitKind]
          repeat' first
            | apply related.map
            | apply related.seq
            | apply related.visitList
            | apply related.visitSlots
            | apply related.visitOption
          all_goals first
            | exact related.pure _
            | exact ih _ (by simp [Kind.children]) _
            | exact fun node mem => ih node (by simp [Kind.children, mem])

end Related

end Walker

/-! ### Versions of some packages among others -/

namespace Manifest

variable {host : Host} {manifestFile : String} {file : Path} {memo : Memo}

/-- Every package is looked up as if it were the first one. -/
theorem fst_versionsOf_cons (package : String) (rest : List String) :
    (versionsOf host manifestFile file memo (package :: rest)).1 = (do
      let manifest? ← (ofPackage host manifestFile memo package file).1
      let others ← (versionsOf host manifestFile file memo rest).1
      return (package, manifest?.bind version) :: others) := by
  have others := MadeOfLoads.manifest_versionsOf host manifestFile file rest
  rw [versionsOf_cons, (MadeOfLoads.manifest_ofPackage host manifestFile package file).fst_andThen
    fun _ => .andThen others fun _ => .answer _]
  refine bind_congr fun manifest? => ?_
  exact others.fst_andThen (fun _ => .answer _) memo

/-- Versions that were found are those that the packages have. -/
theorem lookup_of_versionsOf {packages : List String} {versions : List (String × Option String)}
    (looked : (versionsOf host manifestFile file memo packages).1 = .ok versions) :
    ∀ package ∈ packages, ∃ manifest?,
      (ofPackage host manifestFile memo package file).1 = .ok manifest? ∧
        versions.lookup package = some (manifest?.bind version) := by
  induction packages generalizing versions with
  | nil => simp
  | cons first rest ih =>
      rw [fst_versionsOf_cons] at looked
      obtain ⟨manifest?, found, looked⟩ := Lookup.bind_eq_ok looked
      obtain ⟨others, remaining, eq⟩ := Lookup.bind_eq_ok looked
      obtain rfl := Except.ok.inj eq
      intro package mem
      by_cases same : package = first
      · subst same
        exact ⟨manifest?, found, List.lookup_cons_self⟩
      · rw [List.lookup_cons, beq_false_of_ne same]
        exact ih remaining package ((List.mem_cons.mp mem).resolve_left same)

/-- Some packages are looked up, and then some more. -/
theorem versionsOf_append (packages others : List String) :
    versionsOf host manifestFile file memo (packages ++ others) =
      Lookup.andThen (fun memo => versionsOf host manifestFile file memo packages)
        (fun front => Lookup.andThen (fun memo => versionsOf host manifestFile file memo others)
          fun back memo => (.ok (front ++ back), memo)) memo := by
  induction packages generalizing memo with
  | nil =>
      simp only [List.nil_append, Lookup.andThen, versionsOf]
      obtain ⟨_ | _, _⟩ := versionsOf host manifestFile file memo others <;> rfl
  | cons package rest ih =>
      simp only [List.cons_append, Lookup.andThen, versionsOf, ih]
      obtain ⟨_ | _, after⟩ := ofPackage host manifestFile memo package file
      · rfl
      · dsimp only
        obtain ⟨_ | _, after⟩ := versionsOf host manifestFile file after rest
        · rfl
        · dsimp only
          obtain ⟨_ | _, _⟩ := versionsOf host manifestFile file after others <;> rfl

end Manifest

/-! ### Steps of a walk -/

namespace Imprinting

variable {α β : Type}

/-- One step after the other is taken with the names of the first, unless that one fails. -/
theorem bind_apply (step : Imprinting α) (next : α → Imprinting β) (names : List String)
    (memo : Memo) :
    (step >>= next) names memo =
      Lookup.andThen (step names) (fun result => next result.1 result.2) memo := by
  show ExceptT.bindCont (fun result => next result.1 result.2) (step names memo).1
    (step names memo).2 = _
  unfold Lookup.andThen
  rcases step names memo with ⟨_ | _, _⟩ <;> rfl

/-- A lookup on the way writes down no name. -/
theorem ofLookup_apply (lookup : Memo → Lookup α) (names : List String) (memo : Memo) :
    Imprinting.ofLookup lookup names memo =
      Lookup.andThen lookup (fun found memo => (.ok (found, names), memo)) memo := by
  show (ExceptT.bindCont (fun found => Pure.pure (found, names)) (lookup memo).1 : StateM Memo _)
    (lookup memo).2 = _
  unfold Lookup.andThen
  rcases lookup memo with ⟨_ | _, _⟩ <;> rfl

end Imprinting

/-! ### Looking up on the way and looking up first -/

namespace Imprinted

/-- The tree that a walk under the given rules makes. -/
def ofRules (rules : Rules) (root : Node) : Imprinted :=
  let walked := rules.visit .read root
  ⟨walked.value, Report.ofNames walked.replacedNames⟩

variable {host : Host} {settings : Settings} {constants : Constants} {file : Path} {start : Memo}

/-- The version that a package has at the start. -/
def versionAt (host : Host) (manifestFile : String) (file : Path) (start : Memo)
    (package : String) : String :=
  match (Manifest.ofPackage host manifestFile start package file).1 with
  | .ok manifest? => (manifest?.bind Manifest.version).getD ""
  | .error _ => ""

/-- The rules of a walk for which every package has the version of the start. -/
def rulesAt (host : Host) (settings : Settings) (constants : Constants) (file : Path)
    (start : Memo) : Rules where
  literal? := Rules.lookup settings constants host.clock
  bareCall? := Rules.builtIn? settings constants host.clock .packageVersion
  version := versionAt host settings.manifestFile file start

/-- A step of the walk over the tree of a file does what was traced of it: it looks up the packages that
were asked for, and if they are found it has the same result and writes down the same names. -/
def Follows (host : Host) (manifestFile : String) (file : Path) (start : Memo) {α : Type}
    (traced : Traced α) (step : Imprinting α) : Prop :=
  ∀ names memo, start.Agree host memo →
    step names memo =
      Lookup.andThen
        (fun memo => Manifest.versionsOf host manifestFile file memo traced.packages)
        (fun _ memo => (.ok (traced.value, names ++ traced.replacedNames), memo)) memo

namespace Follows

variable {manifestFile : String} {α β : Type}

/-- Where nothing is done, nothing is looked up and no name is written down. -/
theorem pure (value : α) :
    Follows host manifestFile file start (Pure.pure value) (Pure.pure value) := by
  intro names memo agree
  show _ = (Except.ok (value, names ++ []), memo)
  rw [List.append_nil]
  rfl

/-- Steps that do what was traced of them do so one after the other. -/
theorem bind {traced : Traced α} {step : Imprinting α} {next : α → Traced β}
    {onward : α → Imprinting β} (first : Follows host manifestFile file start traced step)
    (rest : ∀ value, Follows host manifestFile file start (next value) (onward value)) :
    Follows host manifestFile file start (traced >>= next) (step >>= onward) := by
  intro names memo agree
  have packages : (traced >>= next).packages = traced.packages ++ (next traced.value).packages :=
    List.filterMap_append
  have written : (traced >>= next).replacedNames =
      traced.replacedNames ++ (next traced.value).replacedNames :=
    List.filterMap_append
  have grown := (MadeOfLoads.manifest_versionsOf host manifestFile file traced.packages).agree memo
  have later := rest traced.value (names ++ traced.replacedNames) _ (agree.trans grown)
  rw [Imprinting.bind_apply, Lookup.andThen, first names memo agree, packages, written]
  simp only [Lookup.andThen, Manifest.versionsOf_append, Traced.value_bind] at later ⊢
  rcases went : Manifest.versionsOf host manifestFile file memo traced.packages with
    ⟨error | front, after⟩
  · rfl
  · rw [went] at later
    dsimp only at later ⊢
    rw [later, List.append_assoc]
    obtain ⟨_ | _, _⟩ := Manifest.versionsOf host manifestFile file after
      (next traced.value).packages <;> rfl

/-- Looking up a package on the way finds the version that it has at the start. -/
theorem version (package : String) :
    Follows host settings.manifestFile file start
      ((rulesAt host settings constants file start).tracer.version package)
      ((walker host settings constants file).version package) := by
  intro names memo agree
  have same := (MadeOfLoads.manifest_ofPackage host settings.manifestFile package file).fst_eq agree
  have asked : ((rulesAt host settings constants file start).tracer.version package).packages =
      [package] := rfl
  have value : ((rulesAt host settings constants file start).tracer.version package).value =
      versionAt host settings.manifestFile file start package := rfl
  have written : ((rulesAt host settings constants file start).tracer.version
      package).replacedNames = [] := rfl
  show (Imprinting.ofLookup _ >>= fun manifest? => Pure.pure _) names memo = _
  rw [Imprinting.bind_apply, asked, value, written, List.append_nil, versionAt, same]
  simp only [Lookup.andThen, Imprinting.ofLookup_apply, Manifest.versionsOf]
  rcases Manifest.ofPackage host settings.manifestFile memo package file with ⟨_ | _, _⟩ <;> rfl

/-- What the walk over the tree of a file does at every step, it does over the whole tree. -/
theorem related (host : Host) (settings : Settings) (constants : Constants) (file : Path)
    (start : Memo) :
    Walker.Related (Follows host settings.manifestFile file start)
      (rulesAt host settings constants file start).tracer
      (walker host settings constants file) where
  literals := rfl
  bareCalls := rfl
  pure := pure
  bind := bind
  replaced _ _ _ _ := rfl
  version := version

end Follows

/-- Imprinting the tree of a file comes to the same as looking up all packages that it asks for, in the
order of the walk, and then walking over it with their versions. -/
theorem ofTree_eq {memo : Memo} {root : Node} :
    ofTree host settings memo constants file root =
      Lookup.andThen
        (fun memo =>
          Manifest.versionsOf host settings.manifestFile file memo (Rules.packagesOf root))
        (fun versions memo =>
          (.ok (ofRules (Rules.ofSettings settings constants host.clock versions) root), memo))
        memo := by
  have follows : Follows host settings.manifestFile file memo
      ((rulesAt host settings constants file memo).visit .read root)
      ((walker host settings constants file).visit .read root) :=
    (Follows.related host settings constants file memo).visit .read root
  have walked : (((walker host settings constants file).visit .read root).run []).run memo = _ :=
    follows [] memo (.refl memo)
  rw [ofTree, walked, Rules.packages_visit_eq _ .silent, Lookup.andThen, Lookup.andThen,
    Rules.packagesOf]
  rcases looked : Manifest.versionsOf host settings.manifestFile file memo
    (Rules.silent.visit .read root).packages with ⟨error | versions, after⟩
  · rfl
  · -- The versions of the rules matter only for the packages that were looked up.
    have same : (rulesAt host settings constants file memo).visit .read root =
        (Rules.ofSettings settings constants host.clock versions).visit .read root := by
      refine Rules.visit_eq_of_versions ?_ ?_ fun package asked => ?_
      · rfl
      · rfl
      obtain ⟨manifest?, found, listed⟩ :=
        Manifest.lookup_of_versionsOf (congrArg Prod.fst looked) package asked
      simp only [rulesAt, versionAt, found, Rules.ofSettings, listed]
      rfl
    rw [same]
    rfl

/-- A tree is imprinted when the versions that it asks for are found, and then by the walk alone. -/
theorem ofTree_eq_ok {memo after : Memo} {root : Node} {imprinted : Imprinted}
    (succeeded : ofTree host settings memo constants file root = (.ok imprinted, after)) :
    ∃ versions,
      Manifest.versionsOf host settings.manifestFile file memo (Rules.packagesOf root) =
          (.ok versions, after) ∧
        imprinted = ofRules (Rules.ofSettings settings constants host.clock versions) root := by
  rw [ofTree_eq] at succeeded
  obtain ⟨versions, middle, found, eq⟩ := Lookup.andThen_eq_ok succeeded
  obtain ⟨same, rfl⟩ := Prod.mk.inj eq
  exact ⟨versions, found, (Except.ok.inj same).symm⟩

/-- When the versions that a tree asks for are found, it is imprinted with them. -/
theorem ofTree_of_versionsOf {memo after : Memo} {root : Node}
    {versions : List (String × Option String)}
    (found : Manifest.versionsOf host settings.manifestFile file memo (Rules.packagesOf root) =
      (.ok versions, after)) :
    ofTree host settings memo constants file root =
      (.ok (ofRules (Rules.ofSettings settings constants host.clock versions) root), after) := by
  rw [ofTree_eq, Lookup.andThen, found]

end Imprinted

/-- The walk over the tree of a file uses the memory for nothing but the lookups of its packages. -/
theorem MadeOfLoads.imprinted_ofTree (host : Host) (settings : Settings) (constants : Constants)
    (file : Path) (root : Node) :
    MadeOfLoads host fun memo => Imprinted.ofTree host settings memo constants file root :=
  congr (.andThen (manifest_versionsOf host settings.manifestFile file _) fun _ => .answer _)
    fun _ => Imprinted.ofTree_eq

end Imprint

/-
Module: Imprint.Proofs.RelocatedRuns
Purpose: Sessions on one project in two places. When two sessions with the same settings go through the
  same operations, each on the project under its own root, they give the same answers and remember as
  much after every step; directories and the paths in failures differ by the root in front of them. The
  files may change between the steps, as long as they change in the same way.
Main exports: Operation.packages, Session.record, Roots.SameOperation, Roots.SameFound,
  Roots.SameStep, Roots.SameOutcome, sessions_relocate
-/
import Imprint.Proofs.ProjectFiles
import Imprint.Proofs.SessionRuns

namespace Imprint

/-- The tree that an operation imprints. -/
def Operation.tree? : Operation → Option Node
  | .constants _ => none
  | .package _ _ => none
  | .transform _ root => some root
  | .imprint _ _ root => some root

/-- The packages that an operation looks up. -/
def Operation.packages : Operation → List String
  | .constants _ => []
  | .package name _ => [name]
  | .transform _ root => Rules.packagesOf root
  | .imprint _ _ root => Rules.packagesOf root

/-- The answers of a session to one operation after the other, each on the host as it is by then, and
how many manifests it remembers after each of them. -/
def Session.record : Session → List (Host × Operation) → List (Except LookupError Found × Nat)
  | _, [] => []
  | session, (host, operation) :: rest =>
      let answer := session.perform host operation
      (answer.1, answer.2.remembered) :: record answer.2 rest

namespace Roots

variable (roots : Roots)

/-- The same operation on a file of the project under each root. -/
inductive SameOperation : Operation → Operation → Prop where
  | constants {file copy : Path} (same : roots.SameFile file copy) :
      SameOperation (.constants file) (.constants copy)
  | package {name : String} {file copy : Path} (same : roots.SameFile file copy) :
      SameOperation (.package name file) (.package name copy)
  | transform {file copy : Path} {root : Node} (same : roots.SameFile file copy) :
      SameOperation (.transform file root) (.transform copy root)
  | imprint {constants others : Constants} {file copy : Path} {root : Node}
      (given : roots.SameConstants constants others) (same : roots.SameFile file copy) :
      SameOperation (.imprint constants file root) (.imprint others copy root)

/-- The same is found: constants but for the root of the directory, with the same literals of all built-ins
and so the same hash of the file; the same manifest of a package; or the same tree with the same
report. -/
inductive SameFound : Found → Found → Prop where
  | constants {constants others : Constants} (same : roots.SameConstants constants others)
      (literals : ∀ clock builtIn, constants.literal? clock builtIn = others.literal? clock builtIn) :
      SameFound (.constants constants) (.constants others)
  | package {manifest? : Option Manifest} : SameFound (.package manifest?) (.package manifest?)
  | imprinted {imprinted : Imprinted} : SameFound (.imprinted imprinted) (.imprinted imprinted)

/-- One step of two sessions: the same operation on the same project, at times that make no difference
to the tree that is imprinted. -/
structure SameStep (settings : Settings) (step copy : Host × Operation) : Prop where
  operation : roots.SameOperation step.2 copy.2
  project : roots.SameProject settings.manifestFile step.2.packages step.1 copy.1
  time : ∀ root, step.2.tree? = some root → SameTime settings step.1.clock copy.1.clock root

/-- What two sessions say after a step: answers that correspond to each other, and the same number of
manifests that are remembered. -/
structure SameOutcome (outcome copy : Except LookupError Found × Nat) : Prop where
  answer : roots.SameAnswer roots.SameFound outcome.1 copy.1
  remembered : outcome.2 = copy.2

variable {roots} {settings : Settings}

namespace Parallel

variable {α β : Type} {R : α → β → Prop} {lookup : Memo → Lookup α} {copy : Memo → Lookup β}

theorem found (parallel : roots.Parallel R lookup copy) {wrap : α → Found} {otherWrap : β → Found}
    (same : ∀ result other, R result other → roots.SameFound (wrap result) (otherWrap other)) :
    roots.Parallel roots.SameFound (.found lookup wrap) (.found copy otherWrap) := by
  apply parallel.andThen
  intro result other related
  exact .answer (.found (same result other related))

end Parallel

/-- An operation goes the same way under both roots. -/
theorem parallel_operation {step copy : Host × Operation} (same : roots.SameStep settings step copy)
    (plain : Path.IsName settings.manifestFile) (now : String) :
    roots.Parallel roots.SameFound (step.2.lookup step.1 settings now)
      (copy.2.lookup copy.1 settings now) := by
  obtain ⟨host, operation⟩ := step
  obtain ⟨other, otherOperation⟩ := copy
  obtain ⟨operations, project, time⟩ := same
  dsimp only at operations project time ⊢
  cases operations with
  | constants file =>
      apply (parallel_ofFile project plain now file).found
      exact fun _ _ same => .constants same same.literal?_eq
  | package file =>
      apply (parallel_ofPackage project plain file List.mem_cons_self).found
      rintro manifest? _ rfl
      exact .package
  | transform file =>
      apply ((parallel_ofFile project plain now file).andThen fun ofFile others same =>
        parallel_ofTree project plain file same (time _ rfl)).found
      rintro imprinted _ rfl
      exact .imprinted
  | imprint given file =>
      apply (parallel_ofTree project plain file given (time _ rfl)).found
      rintro imprinted _ rfl
      exact .imprinted

/-- Sessions that remember the same go on in the same way. -/
theorem record_moved (plain : Path.IsName settings.manifestFile) (now : String)
    {memo other : Memo} (memories : roots.SameMemo memo other)
    {steps copies : List (Host × Operation)}
    (same : List.Forall₂ (roots.SameStep settings) steps copies) :
    List.Forall₂ roots.SameOutcome (Session.record ⟨settings, now, memo⟩ steps)
      (Session.record ⟨settings, now, other⟩ copies) := by
  induction same generalizing memo other with
  | nil => exact .nil
  | @cons step copy rest others head _ ih =>
      obtain ⟨host, operation⟩ := step
      obtain ⟨otherHost, otherOperation⟩ := copy
      obtain ⟨answers, later⟩ := parallel_operation head plain now memo other memories
      rw [Session.record, Session.record, Session.perform_eq, Session.perform_eq]
      apply List.Forall₂.cons
      · exact ⟨answers, later.length_eq⟩
      · exact ih later

end Roots

/-- A project can be kept anywhere. Two sessions that take the same steps, each on the project under its
own root, answer every step in the same way and remember equally many manifests after it: the trees,
reports and manifests are the same, and so are all constants but the directory of the project, which
is moved, as are the paths in failures. There is to be nothing above either root that the session
looks for, and the time is to make no difference. -/
theorem sessions_relocate (roots : Roots) {settings : Settings}
    (plain : Path.IsName settings.manifestFile) (now : String)
    {steps copies : List (Host × Operation)}
    (same : List.Forall₂ (roots.SameStep settings) steps copies) :
    List.Forall₂ roots.SameOutcome ((Session.start settings now).record steps)
      ((Session.start settings now).record copies) :=
  Roots.record_moved plain now .nil same

namespace Sample

/-- Two directories for one project. -/
def roots : Roots := ⟨⟨["srv", "one"]⟩, ⟨["home", "two"]⟩, by decide, by decide⟩

/-- A host with a project of nothing but a manifest. -/
def fullAt (root : Location) : Host where
  files := .write (.makeDirectory .empty root) ⟨root.names ++ [("package.json" : RawText)]⟩
    "\x7b\"name\":\"app\"\x7d".toUTF8
  workingDirectory := none
  localTime := ""
  clock := 0

/-- The host after the manifest was removed. -/
def emptiedAt (root : Location) : Host :=
  (fullAt root).remove ⟨root.names ++ [("package.json" : RawText)]⟩

/-- A file of the project. -/
def mainAt (root : Location) : Path := ⟨root.path.raw ++ "/" ++ "src/main.js"⟩

/-- A source text that asks for the name of its file. -/
def ownName : Node := ⟨⟨0, 12⟩, .identifier "__filename__"⟩

/-- The constants of the file, its tree, and the package of the project after its manifest was removed. -/
def stepsAt (root : Location) : List (Host × Operation) :=
  [(fullAt root, .constants (mainAt root)), (fullAt root, .transform (mainAt root) ownName),
    (emptiedAt root, .package "app" (mainAt root))]

theorem sameTree_full : roots.SameTree (fullAt roots.first).files (fullAt roots.second).files := by
  apply Roots.SameTree.place
  · apply Roots.SameTree.start
    decide
  · decide
  · decide

theorem sameTree_emptied :
    roots.SameTree (emptiedAt roots.first).files (emptiedAt roots.second).files := by
  apply Roots.SameTree.remove sameTree_full
  decide

/-- There is nothing above a directory that a session could look for. -/
theorem nothingAbove {host : Host} {root : Location} {packages : List String}
    (asked : ∀ package ∈ packages, package = "app")
    (clear : Roots.Clear host ["package.json"] root ∧
      Roots.Clear host ["node_modules", "app", "package.json"] root) :
    Roots.NothingAbove host "package.json" packages root := by
  refine ⟨clear.1, ?_⟩
  intro package mem segments spells
  obtain rfl := asked package mem
  have spelled : segments = ["app"] := spells.split_eq.symm.trans (by decide)
  rw [spelled]
  exact clear.2

theorem sameFile_main : roots.SameFile (mainAt roots.first) (mainAt roots.second) := by
  apply Roots.sameFile_below
  · decide
  · exact .inl (by decide)

theorem sameProject_full : roots.SameProject "package.json" []
    (fullAt roots.first) (fullAt roots.second) where
  files := sameTree_full.sameFiles
  aboveFirst := nothingAbove (by simp) (by decide +kernel)
  aboveSecond := nothingAbove (by simp) (by decide +kernel)

theorem sameStep_constants : roots.SameStep Settings.initial
    (fullAt roots.first, .constants (mainAt roots.first))
    (fullAt roots.second, .constants (mainAt roots.second)) where
  operation := .constants sameFile_main
  project := sameProject_full
  time root eq := by cases eq

theorem sameStep_transform : roots.SameStep Settings.initial
    (fullAt roots.first, .transform (mainAt roots.first) ownName)
    (fullAt roots.second, .transform (mainAt roots.second) ownName) where
  operation := .transform sameFile_main
  project := sameProject_full
  time _ _ := .inl rfl

theorem sameStep_package : roots.SameStep Settings.initial
    (emptiedAt roots.first, .package "app" (mainAt roots.first))
    (emptiedAt roots.second, .package "app" (mainAt roots.second)) where
  operation := .package sameFile_main
  project :=
    { files := sameTree_emptied.sameFiles
      aboveFirst := nothingAbove (by simp [Operation.packages]) (by decide +kernel)
      aboveSecond := nothingAbove (by simp [Operation.packages]) (by decide +kernel) }
  time root eq := by cases eq

end Sample

/-- The constants and the tree of a file, and the missing package of an emptied project, in two
directories. -/
theorem sample_sessions_relocate :
    List.Forall₂ Sample.roots.SameOutcome
        ((Session.start Settings.initial "").record (Sample.stepsAt Sample.roots.first))
        ((Session.start Settings.initial "").record (Sample.stepsAt Sample.roots.second)) ∧
      ((Session.start Settings.initial "").record (Sample.stepsAt Sample.roots.first)).map Prod.snd =
        [1, 1, 1] := by
  constructor
  · apply sessions_relocate
    · decide
    · exact .cons Sample.sameStep_constants
        (.cons Sample.sameStep_transform (.cons Sample.sameStep_package .nil))
  · decide +kernel

end Imprint

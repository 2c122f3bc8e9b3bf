/-
Module: Imprint.Proofs.ChangingFiles
Purpose: What a session remembers while files are written and removed between its operations. Every
  remembered manifest is what its file said when it was first loaded, nothing that is remembered
  changes or gets lost, and a file that cannot be read, is malformed or says nothing is not
  remembered. Two loads of one manifest that find something find the same.
Main exports: Json.isHollow, Manifest.content_eq_nothing, Happening, World, World.run, World.loads,
  KeepsMemory, memory_survives_changes
-/
import Imprint.Proofs.LoadCourses

namespace Imprint

/-! ### Manifest files that say nothing -/

/-- A JSON value without keys of its own: a scalar other than a text, or an empty text, array or
object. -/
def Json.isHollow : Json → Bool
  | .null => true
  | .bool _ => true
  | .number _ => true
  | .text content => content.isEmpty
  | .array items => items.isEmpty
  | .object members => members.isEmpty

namespace Json

/-- Where a member was set, there are members. -/
theorem setMember_ne_nil {α : Type} (key : String) (value : α) (members : List (String × α)) :
    setMember key value members ≠ [] := by
  cases members with
  | nil => simp [setMember]
  | cons member rest =>
      rw [setMember]
      split <;> simp

/-- Repeated keys can be dropped, but some member of each stays. -/
theorem lastWins_eq_nil {α : Type} {members : List (String × α)} :
    lastWins members = [] ↔ members = [] := by
  refine ⟨fun empty => ?_, fun empty => by rw [empty]; rfl⟩
  rcases List.eq_nil_or_concat members with rfl | ⟨front, last, rfl⟩
  · rfl
  · rw [List.concat_eq_append, lastWins, List.foldl_append] at empty
    exact absurd empty (setMember_ne_nil _ _ _)

end Json

namespace Manifest

/-- The members of an object make a manifest or are malformed; they never say nothing. -/
theorem ofMembers_ne_nothing (members : List (String × Json)) : ofMembers members ≠ .nothing := by
  unfold ofMembers
  split <;> simp

/-- A document says nothing exactly when it is hollow. -/
theorem ofJson_eq_nothing {json : Json} : ofJson json = .nothing ↔ json.isHollow := by
  cases json with
  | null => simp [ofJson, distinct, Json.isHollow]
  | bool value => simp [ofJson, distinct, Json.isHollow]
  | number value => simp [ofJson, distinct, Json.isHollow]
  | text content =>
      by_cases empty : content.isEmpty <;> simp [ofJson, distinct, Json.isHollow, empty]
  | array items => cases items <;> simp [ofJson, distinct, distinctItems, Json.isHollow]
  | object members =>
      cases members with
      | nil => simp [ofJson, distinct, distinctMembers, Json.isHollow, Json.lastWins]
      | cons member rest =>
          have filled : Json.lastWins (distinctMembers (member :: rest)) ≠ [] := by
            rw [Ne, Json.lastWins_eq_nil]
            simp [distinctMembers]
          obtain ⟨first, others, eq⟩ := List.exists_cons_of_ne_nil filled
          simp [ofJson, distinct, eq, Json.isHollow, ofMembers_ne_nothing]

/-- A manifest text says nothing exactly when it is JSON without keys of its own. -/
theorem content_eq_nothing {source : String} :
    content source = .nothing ↔ ∃ json, Json.ofText? source = some json ∧ json.isHollow := by
  unfold content
  cases Json.ofText? source with
  | none => simp
  | some json => simp [ofJson_eq_nothing]

end Manifest

/-! ### Changes and operations -/

/-- What happens while a session is in use: a file is written, with or without leave to read it, a file
or directory is removed, or the session is asked for something at a time of day. -/
inductive Happening where
  | write (location : Location) (file : File)
  | remove (location : Location)
  | ask (clock : Int) (operation : Operation)

/-- A host, and a session that is in use on it. -/
structure World where
  host : Host
  session : Session

namespace World

/-- The world after one happening. -/
def after (world : World) : Happening → World
  | .write location file => { world with host := world.host.write location file }
  | .remove location => { world with host := world.host.remove location }
  | .ask clock operation =>
      { world with session := (world.session.perform (world.host.at clock) operation).2 }

/-- The world after one happening after the other. -/
def run (world : World) (happenings : List Happening) : World := happenings.foldl after world

/-- The manifests that the session loads in one happening, and what it finds there. -/
def loads (world : World) : Happening → List Load
  | .ask clock operation =>
      (operation.course (world.host.at clock) world.session.settings world.session.now).loads
        world.session.memo
  | _ => []

/-- The manifests that the session remembers. -/
def memo (world : World) : Memo := world.session.memo

/-- What happens can be run through in two goes. -/
theorem run_append (world : World) (before after : List Happening) :
    world.run (before ++ after) = (world.run before).run after :=
  List.foldl_append

/-! ### One happening -/

variable {world : World} {happening : Happening} {load : Load} {manifest : Manifest}

/-- An operation leaves the memory that its course of loads leaves. -/
theorem memo_ask (clock : Int) (operation : Operation) :
    (world.after (.ask clock operation)).memo =
      ((operation.course (world.host.at clock) world.session.settings world.session.now).lookup
        world.memo).2 := by
  show (world.session.perform (world.host.at clock) operation).2.memo = _
  rw [Session.perform_eq_course]
  rfl

/-- Nothing that happens makes a world forget. -/
theorem grows_after : world.memo <+: (world.after happening).memo := by
  cases happening with
  | write location file => exact List.prefix_refl _
  | remove location => exact List.prefix_refl _
  | ask clock operation =>
      rw [memo_ask]
      exact Course.grows _ _

/-- No path is remembered twice, whatever happens. -/
theorem nodup_after (distinct : (world.memo.map Prod.fst).Nodup) :
    ((world.after happening).memo.map Prod.fst).Nodup := by
  cases happening with
  | write location file => exact distinct
  | remove location => exact distinct
  | ask clock operation =>
      rw [memo_ask]
      exact Course.nodup_lookup _ distinct

/-- What is remembered after a happening and was not before was found by one of its loads, and is what
the file said. -/
theorem mem_after {entry : List RawText × Manifest} (mem : entry ∈ (world.after happening).memo) :
    entry ∈ world.memo ∨ ∃ load ∈ world.loads happening, load.path.steps = entry.1 ∧
      load.answer = .ok (some entry.2) ∧ world.memo.find? load.path = none ∧
      Manifest.read world.host load.path = .ok (some entry.2) := by
  cases happening with
  | write location file => exact .inl mem
  | remove location => exact .inl mem
  | ask clock operation =>
      rw [memo_ask] at mem
      exact Course.mem_lookup mem

/-- A load of a path that is remembered finds what is remembered, whatever the file says by now. -/
theorem answer_of_remembered (mem : load ∈ world.loads happening)
    (known : world.memo.find? load.path = some manifest) : load.answer = .ok (some manifest) := by
  cases happening with
  | write location file => cases mem
  | remove location => cases mem
  | ask clock operation => exact Course.answer_of_remembered mem known

/-- What a load finds is remembered from then on. -/
theorem find?_of_answer (mem : load ∈ world.loads happening)
    (found : load.answer = .ok (some manifest)) :
    (world.after happening).memo.find? load.path = some manifest := by
  cases happening with
  | write location file => cases mem
  | remove location => cases mem
  | ask clock operation =>
      rw [memo_ask]
      exact Course.find?_of_answer mem found

/-- A load of a path that is not remembered, where there is no manifest to be read, leaves it
unremembered and answers with what it reads. -/
theorem refuses_after (mem : load ∈ world.loads happening)
    (missing : world.memo.find? load.path = none)
    (nothing : ∀ manifest, Manifest.read world.host load.path ≠ .ok (some manifest)) :
    (world.after happening).memo.find? load.path = none ∧
      load.answer = Manifest.read world.host load.path := by
  cases happening with
  | write location file => cases mem
  | remove location => cases mem
  | ask clock operation =>
      rw [memo_ask]
      exact Course.refuses mem missing nothing

/-! ### Runs -/

/-- Over a whole run, nothing is forgotten. -/
theorem grows_run (world : World) (happenings : List Happening) :
    world.memo <+: (world.run happenings).memo := by
  induction happenings generalizing world with
  | nil => exact List.prefix_refl _
  | cons happening rest ih => exact grows_after.trans (ih (world.after happening))

/-- Over a whole run, no path comes to be remembered twice. -/
theorem nodup_run (distinct : (world.memo.map Prod.fst).Nodup) (happenings : List Happening) :
    ((world.run happenings).memo.map Prod.fst).Nodup := by
  induction happenings generalizing world with
  | nil => exact distinct
  | cons happening rest ih => exact ih (nodup_after distinct)

/-- What is remembered after a run was there before it, or was found in one of its happenings: by a
load of a path that was not remembered then, from what the file said then. -/
theorem mem_run {entry : List RawText × Manifest} {happenings : List Happening}
    (mem : entry ∈ (world.run happenings).memo) :
    entry ∈ world.memo ∨ ∃ before happening rest, happenings = before ++ happening :: rest ∧
      ∃ load ∈ (world.run before).loads happening, load.path.steps = entry.1 ∧
        load.answer = .ok (some entry.2) ∧ (world.run before).memo.find? load.path = none ∧
        Manifest.read (world.run before).host load.path = .ok (some entry.2) := by
  induction happenings generalizing world with
  | nil => exact .inl mem
  | cons first others ih =>
      rcases ih mem with started | ⟨before, happening, rest, eq, found⟩
      · rcases mem_after started with old | found
        · exact .inl old
        · exact .inr ⟨[], first, others, rfl, found⟩
      · exact .inr ⟨first :: before, happening, rest, congrArg (first :: ·) eq, found⟩

/-- In the course of some happenings, the given one takes place in the given world. -/
def IsStep (start : World) (happenings : List Happening) (world : World) (happening : Happening) :
    Prop :=
  ∃ before rest, happenings = before ++ happening :: rest ∧ world = start.run before

/-- What is remembered after a step of a run is remembered at its end. -/
theorem IsStep.grows {start : World} {happenings : List Happening}
    (step : start.IsStep happenings world happening) :
    (world.after happening).memo <+: (start.run happenings).memo := by
  obtain ⟨before, rest, rfl, rfl⟩ := step
  rw [run_append]
  exact grows_run _ rest

end World

/-! ### The invariant -/

/-- What a session remembers in the course of some happenings. -/
structure KeepsMemory (start : World) (happenings : List Happening) : Prop where
  /-- A remembered manifest was found by a load of its path, when that path was not remembered, and is
  the manifest that the content of the file stood for at that moment. -/
  origin : ∀ entry ∈ (start.run happenings).memo, ∃ world happening load source,
    start.IsStep happenings world happening ∧ load ∈ world.loads happening ∧
      load.path.steps = entry.1 ∧ load.answer = .ok (some entry.2) ∧
      world.memo.find? load.path = none ∧ world.host.readText? load.path = some source ∧
      Manifest.content source = .manifest entry.2
  /-- A path is remembered once. -/
  distinct : ((start.run happenings).memo.map Prod.fst).Nodup
  /-- Nothing that is remembered changes or gets lost. -/
  grows : ∀ before rest, happenings = before ++ rest →
    (start.run before).memo <+: (start.run happenings).memo
  /-- The number of remembered manifests never decreases. -/
  counts : ∀ before rest, happenings = before ++ rest →
    (start.run before).session.remembered ≤ (start.run happenings).session.remembered
  /-- A load of a path that is not remembered leaves it so when the file cannot be read, when it is
  malformed, and when it says nothing. -/
  refuses : ∀ world happening, start.IsStep happenings world happening →
    ∀ load ∈ world.loads happening, world.memo.find? load.path = none →
      ((∃ error, Manifest.read world.host load.path = .error error) ∨
        ∃ source json, world.host.readText? load.path = some source ∧
          Json.ofText? source = some json ∧ json.isHollow) →
      (world.after happening).memo.find? load.path = none ∧
        load.answer = Manifest.read world.host load.path
  /-- A load of a path that is remembered finds what is remembered, whatever the file says by then. -/
  remembered : ∀ world happening, start.IsStep happenings world happening →
    ∀ load ∈ world.loads happening, ∀ manifest, world.memo.find? load.path = some manifest →
      load.answer = .ok (some manifest)
  /-- Two loads of one path that find a manifest find the same one, whatever happens in between. -/
  agrees : ∀ world happening other later, start.IsStep happenings world happening →
    start.IsStep happenings other later → ∀ first ∈ world.loads happening,
      ∀ second ∈ other.loads later, first.path.steps = second.path.steps →
        ∀ manifest found, first.answer = .ok (some manifest) → second.answer = .ok (some found) →
          manifest = found

/-- A session that starts with an empty memory keeps what it remembers through all changes of the
files, and remembers nothing but manifests that it found. -/
theorem memory_survives_changes (settings : Settings) (now : String) (host : Host)
    (happenings : List Happening) :
    KeepsMemory ⟨host, .start settings now⟩ happenings where
  origin entry mem := by
    rcases World.mem_run mem with
      none | ⟨before, happening, rest, eq, load, inside, steps, answer, missing, reads⟩
    · cases none
    · obtain ⟨source, text, content⟩ := Manifest.read_eq_manifest.mp reads
      exact ⟨_, happening, load, source, ⟨before, rest, eq, rfl⟩, inside, steps, answer, missing,
        text, content⟩
  distinct := by
    apply World.nodup_run
    exact List.nodup_nil
  grows before rest eq := by
    rw [eq, World.run_append]
    exact World.grows_run _ rest
  counts before rest eq := by
    rw [eq, World.run_append]
    exact (World.grows_run _ rest).length_le
  refuses world happening step load mem missing nothing := by
    apply World.refuses_after mem missing
    intro manifest reads
    rcases nothing with ⟨error, failed⟩ | ⟨source, json, text, parsed, hollow⟩
    · rw [failed] at reads
      cases reads
    · obtain ⟨other, otherText, content⟩ := Manifest.read_eq_manifest.mp reads
      rw [text] at otherText
      obtain rfl := Option.some.inj otherText
      have silent : Manifest.content source = .nothing :=
        Manifest.content_eq_nothing.mpr ⟨json, parsed, hollow⟩
      rw [silent] at content
      cases content
  remembered world happening step load mem manifest known := World.answer_of_remembered mem known
  agrees world happening other later step otherStep first mem second otherMem steps manifest found
      answer otherAnswer := by
    have known := Memo.find?_of_prefix step.grows (World.find?_of_answer mem answer)
    have otherKnown :=
      Memo.find?_of_prefix otherStep.grows (World.find?_of_answer otherMem otherAnswer)
    rw [Memo.find?_eq_of_steps steps, otherKnown] at known
    exact (Option.some.inj known).symm

end Imprint

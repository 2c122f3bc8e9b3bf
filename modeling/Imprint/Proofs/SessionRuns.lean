/-
Module: Imprint.Proofs.SessionRuns
Purpose: Runs of a session. Whatever a session was asked before, and whether or not that failed, it
  answers as a new session would: the memory never shows in an answer while the files stay as they
  are. Every operation has its own reading of the clock, since time goes on during a run.
Main exports: Operation, Session.perform, Session.run, Session.perform_sound, run_answers_as_new
-/
import Imprint.Proofs.InterleavedLookups
import Imprint.Session

namespace Imprint

/-- What a session can be asked for. -/
inductive Operation where
  | constants (file : Path)
  | package (name : String) (file : Path)
  | transform (file : Path) (root : Node)
  | imprint (constants : Constants) (file : Path) (root : Node)

/-- What an operation gives when it does not fail. -/
inductive Found where
  | constants (constants : Constants)
  | package (manifest? : Option Manifest)
  | imprinted (imprinted : Imprinted)

/-- The host at another time. -/
def Host.at (host : Host) (clock : Int) : Host := { host with clock := clock }

namespace Session

/-- The same answer as one of what operations give. -/
def Answer.map {α : Type} (wrap : α → Found) (answer : Answer α) : Answer Found :=
  (answer.1.map wrap, answer.2)

/-- The answer of a session to an operation. -/
def perform (session : Session) (host : Host) : Operation → Answer Found
  | .constants file => (session.constants host file).map .constants
  | .package name file => (session.package host name file).map .package
  | .transform file root => (session.transform host file root).map .imprinted
  | .imprint constants file root => (session.imprint host constants file root).map .imprinted

/-- The answers of a session to one operation after the other, each at its own time. -/
def run (host : Host) : Session → List (Int × Operation) → List (Except LookupError Found)
  | _, [] => []
  | session, (clock, operation) :: rest =>
      let answer := session.perform (host.at clock) operation
      answer.1 :: run host answer.2 rest

end Session

/-! ### Operations as lookups -/

/-- A lookup whose result is one of what operations give. -/
def Lookup.found {α : Type} (lookup : Memo → Lookup α) (wrap : α → Found) : Memo → Lookup Found :=
  andThen lookup fun result memo => (.ok (wrap result), memo)

/-- What an operation looks up. -/
def Operation.lookup (host : Host) (settings : Settings) (now : String) :
    Operation → Memo → Lookup Found
  | .constants file =>
      .found (fun memo => Constants.ofFile host settings.manifestFile now memo file) .constants
  | .package name file =>
      .found (fun memo => Manifest.ofPackage host settings.manifestFile memo name file) .package
  | .transform file root =>
      .found
        (.andThen (fun memo => Constants.ofFile host settings.manifestFile now memo file)
          fun ofFile memo => Imprinted.ofTree host settings memo ofFile file root)
        .imprinted
  | .imprint ofFile file root =>
      .found (fun memo => Imprinted.ofTree host settings memo ofFile file root) .imprinted

theorem MadeOfLoads.found {host : Host} {α : Type} {lookup : Memo → Lookup α}
    (made : MadeOfLoads host lookup) (wrap : α → Found) :
    MadeOfLoads host (Lookup.found lookup wrap) :=
  .andThen made fun _ => .answer _

/-- Every operation uses the memory for nothing but loads. -/
theorem MadeOfLoads.operation (host : Host) (settings : Settings) (now : String)
    (operation : Operation) : MadeOfLoads host (operation.lookup host settings now) := by
  cases operation with
  | constants file => exact (constants_ofFile host settings.manifestFile now file).found _
  | package name file => exact (manifest_ofPackage host settings.manifestFile name file).found _
  | transform file root =>
      refine found (.andThen (constants_ofFile host settings.manifestFile now file) ?_) _
      intro ofFile
      exact imprinted_ofTree host settings ofFile file root
  | imprint constants file root =>
      exact (imprinted_ofTree host settings constants file root).found _

namespace Session

variable {session : Session} {host : Host}

theorem map_answer {α : Type} (lookup : Memo → Lookup α) (wrap : α → Found) :
    (session.answer (lookup session.memo)).map wrap =
      session.answer (Lookup.found lookup wrap session.memo) := by
  unfold Answer.map answer Lookup.found
  rcases Lookup.andThen_cases lookup (fun result memo => (.ok (wrap result), memo)) session.memo
    with ⟨error, failed, eq⟩ | ⟨result, went, eq⟩
  · rw [eq, failed]
    rfl
  · rw [eq, went]
    rfl

/-- A transformation looks up the constants of the file and imprints them on its tree. -/
theorem transform_eq (file : Path) (root : Node) :
    session.transform host file root = session.answer
      (Lookup.andThen
        (fun memo => Constants.ofFile host session.settings.manifestFile session.now memo file)
        (fun ofFile memo => Imprinted.ofTree host session.settings memo ofFile file root)
        session.memo) := by
  unfold transform constants answer
  rcases Lookup.andThen_cases
      (fun memo => Constants.ofFile host session.settings.manifestFile session.now memo file)
      (fun ofFile memo => Imprinted.ofTree host session.settings memo ofFile file root) session.memo
    with ⟨error, failed, eq⟩ | ⟨ofFile, went, eq⟩
  · rw [eq, failed]
  · rw [eq, went]
    rfl

/-- A session answers an operation with what the operation looks up, and remembers what it loads. -/
theorem perform_eq (operation : Operation) :
    session.perform host operation =
      session.answer (operation.lookup host session.settings session.now session.memo) := by
  cases operation with
  | constants file =>
      exact map_answer (fun memo => Constants.ofFile host session.settings.manifestFile session.now
        memo file) _
  | package name file =>
      exact map_answer (fun memo => Manifest.ofPackage host session.settings.manifestFile memo name
        file) _
  | transform file root =>
      rw [perform, transform_eq]
      exact map_answer _ _
  | imprint ofFile file root =>
      exact map_answer (fun memo => Imprinted.ofTree host session.settings memo ofFile file root) _

/-! ### One operation, and runs of them -/

/-- What a session remembers is true of the files. Time has no say in it. -/
def Sound (session : Session) (host : Host) : Prop := session.memo.Sound host

theorem sound_start (settings : Settings) (now : String) (host : Host) :
    (start settings now).Sound host :=
  Memo.sound_nil host

theorem Sound.at (sound : session.Sound host) (clock : Int) : session.Sound (host.at clock) :=
  sound

/-- What a session remembers after an operation is as true as before, also when it fails. -/
theorem perform_sound (sound : session.Sound host) (operation : Operation) :
    (session.perform host operation).2.Sound host := by
  rw [perform_eq]
  exact (MadeOfLoads.operation host session.settings session.now operation).sound sound

/-- Sessions that differ in nothing but what they remember give the same answer. -/
theorem perform_fst {other : Session} (sound : session.Sound host) (otherSound : other.Sound host)
    (settings : session.settings = other.settings) (now : session.now = other.now)
    (operation : Operation) :
    (session.perform host operation).1 = (other.perform host operation).1 := by
  rw [perform_eq, perform_eq, ← settings, ← now]
  have made := MadeOfLoads.operation host session.settings session.now operation
  exact made.transparent sound otherSound

/-- No operation changes the settings. -/
theorem perform_settings (operation : Operation) :
    (session.perform host operation).2.settings = session.settings := by
  rw [perform_eq]
  rfl

/-- No operation changes the time of the session. -/
theorem perform_now (operation : Operation) :
    (session.perform host operation).2.now = session.now := by
  rw [perform_eq]
  rfl

/-- A session whose memory is true of the files answers a run as a new session would answer each
operation alone. -/
theorem run_eq (sound : session.Sound host) (steps : List (Int × Operation)) :
    session.run host steps =
      steps.map fun step =>
        ((start session.settings session.now).perform (host.at step.1) step.2).1 := by
  induction steps generalizing session with
  | nil => rfl
  | cons step rest ih =>
      obtain ⟨clock, operation⟩ := step
      have first : (session.perform (host.at clock) operation).1 =
          ((start session.settings session.now).perform (host.at clock) operation).1 :=
        perform_fst (sound.at clock) (sound_start _ _ _) rfl rfl operation
      have after : (session.perform (host.at clock) operation).2.Sound host :=
        perform_sound (sound.at clock) operation
      have others := ih after
      rw [perform_settings, perform_now] at others
      rw [run, List.map_cons, first, others]

end Session

/-- Whatever a session was asked before, on whatever files and with whatever outcome, it answers every
operation as a new session would at the same moment. -/
theorem run_answers_as_new (settings : Settings) (now : String) (host : Host)
    (steps : List (Int × Operation)) :
    (Session.start settings now).run host steps =
      steps.map fun step =>
        ((Session.start settings now).perform (host.at step.1) step.2).1 :=
  Session.run_eq (Session.sound_start settings now host) steps

end Imprint

import ViewCompiler.Config.Session
import ViewCompiler.Proofs.Directory.Sight
import ViewCompiler.Proofs.Disk.Respelling

/-!
# Calls that reload a configuration

A session has a configuration in force and goes through a list of calls, each of which finds the
disk in some state. A call finds a text to load if the file can be read, says something else than
the text that was loaded last, and what it says is accepted. Such a call replaces the
configuration together with what is remembered of its text; any other call leaves both as they
are. A list of calls therefore comes to the last of them that replaced something, or to nothing.

What is remembered of a text is as good as the text itself, as long as no two texts that the
session reads have the same mark and none has the mark of no text.
-/

namespace ViewCompiler

open Text

/-- A text says these settings, and nothing is wrong with them. -/
def Settings.SaidBy (settings : Settings) (content : Text) : Prop :=
  (∃ unknown, Settings.parse? content = some (settings, unknown)) ∧ settings.faults = []

namespace Config

variable {disk : Disk} {environment : Environment} {config next : Config} {settings : Settings}
  {file content : Text}

/-- A text is read if it can be parsed, and the settings are those that it was parsed to. -/
theorem read_eq_ok_iff : (read file content).1 = .ok settings ↔
    ∃ unknown, Settings.parse? content = some (settings, unknown) := by
  unfold read
  split
  · rename_i malformed
    simp [malformed]
  · rename_i said parsed
    simp [parsed]
  · rename_i said unknown _ parsed
    simp [parsed]

/-- A configuration is accepted as it is, if its settings have no faults. -/
theorem validated_eq_ok_iff :
    config.validated = .ok next ↔ config.settings.faults = [] ∧ config = next := by
  unfold validated
  split
  · rename_i sound
    simp [sound]
  · rename_i unsound
    constructor
    · intro accepted
      cases accepted
    · intro accepted
      exact absurd accepted.1 unsound

/-- So is one that is made of settings. -/
theorem ofSettings_validated_iff {root : Option Text} :
    (ofSettings disk environment file root settings).validated = .ok next ↔
      settings.faults = [] ∧ next = ofSettings disk environment file root settings := by
  rw [validated_eq_ok_iff]
  exact and_congr_right fun _ => eq_comm

/-- A file that can be read as text is a file. -/
theorem isFile_of_content? (stands : content? disk environment file = some content) :
    disk.isFile environment.cwd file = true := by
  rw [Disk.isFile_eq]
  unfold content? at stands
  split at stands
  · cases stands
  · rename_i octets held
    rw [held, Option.isSome_some]

end Config

namespace Session

variable {disk : Disk} {disks : List Disk} {environment : Environment} {session begun : Session}
  {config next : Config} {settings : Settings} {content : Text}

/-- A configuration is renewed to what the text says, for the same file and with the same root. -/
theorem renewed_eq_ok_iff : (renewed disk environment config content).1 = .ok next ↔
    ∃ settings : Settings, settings.SaidBy content ∧
      next = Config.ofSettings disk environment config.file config.givenRoot settings := by
  unfold renewed
  split
  · rename_i fault notices faulty
    have unread : ∀ settings, (Config.read config.file content).1 ≠ .ok settings := by
      simp [faulty]
    simp only [reduceCtorEq, false_iff]
    rintro ⟨settings, ⟨parsed, -⟩, -⟩
    exact unread settings (Config.read_eq_ok_iff.mpr parsed)
  · rename_i said notices given
    have read : (Config.read config.file content).1 = .ok said := by rw [given]
    rw [Config.ofSettings_validated_iff]
    constructor
    · rintro ⟨sound, rfl⟩
      exact ⟨said, ⟨Config.read_eq_ok_iff.mp read, sound⟩, rfl⟩
    · rintro ⟨settings, ⟨parsed, sound⟩, rfl⟩
      have same : (Config.read config.file content).1 = .ok settings :=
        Config.read_eq_ok_iff.mpr parsed
      rw [read] at same
      obtain rfl := Except.ok.inj same
      exact ⟨sound, rfl⟩

/-- A call finds a text to load: it can be read, it is not the one that was loaded last, and the
settings that it says are accepted. -/
structure Finds (disk : Disk) (environment : Environment) (session : Session) (content : Text)
    (settings : Settings) : Prop where
  standing : Config.content? disk environment session.config.file = some content
  differing : session.loaded ≠ some content
  said : settings.SaidBy content

/-- The session for which these settings were loaded from a text. -/
def loading (disk : Disk) (environment : Environment) (session : Session) (content : Text)
    (settings : Settings) : Session :=
  { config :=
      Config.ofSettings disk environment session.config.file session.config.givenRoot settings
    loaded := some content }

/-- A call that finds a text to load replaces the configuration together with what is remembered. -/
theorem reload_of_finds (finds : Finds disk environment session content settings) :
    ∃ notices, session.reload disk environment =
      (.ok true, session.loading disk environment content settings, notices) := by
  have renews : (renewed disk environment session.config content).1 =
      .ok (session.loading disk environment content settings).config :=
    renewed_eq_ok_iff.mpr ⟨settings, finds.said, rfl⟩
  unfold reload
  rw [if_pos (Config.isFile_of_content? finds.standing), finds.standing]
  simp only [if_neg finds.differing]
  rcases renewal : renewed disk environment session.config content with ⟨result, notices⟩
  rw [renewal] at renews
  obtain rfl : result = _ := renews
  exact ⟨notices, rfl⟩

/-- Any other call replaces nothing and does not say so. -/
theorem reload_of_not_finds
    (nothing : ¬ ∃ content settings, Finds disk environment session content settings) :
    ∃ answer notices, answer ≠ .ok true ∧
      session.reload disk environment = (answer, session, notices) := by
  unfold reload
  split
  · split
    · exact ⟨.error .notText, [], by simp, rfl⟩
    · rename_i content stands
      split
      · exact ⟨.ok false, [], by simp, rfl⟩
      · rename_i differing
        split
        · rename_i fault notices _
          exact ⟨.error (.config fault), notices, by simp, rfl⟩
        · rename_i config notices renewal
          have renews : (renewed disk environment session.config content).1 = .ok config := by
            rw [renewal]
          obtain ⟨settings, said, -⟩ := renewed_eq_ok_iff.mp renews
          exact absurd ⟨content, settings, stands, differing, said⟩ nothing
  · exact ⟨.ok false, [], by simp, rfl⟩

/-- A call that finds a text to load loads it and says so. Any other call says something else and
leaves the session as it is. -/
theorem reload_cases (disk : Disk) (environment : Environment) (session : Session) :
    (∃ content settings notices, Finds disk environment session content settings ∧
      session.reload disk environment =
        (.ok true, session.loading disk environment content settings, notices)) ∨
    (¬ ∃ content settings, Finds disk environment session content settings) ∧
      ∃ answer notices, answer ≠ .ok true ∧
        session.reload disk environment = (answer, session, notices) := by
  by_cases something : ∃ content settings, Finds disk environment session content settings
  · obtain ⟨content, settings, finds⟩ := something
    obtain ⟨notices, loads⟩ := reload_of_finds finds
    exact .inl ⟨content, settings, notices, finds, loads⟩
  · exact .inr ⟨something, reload_of_not_finds something⟩

/-- A call tells that it loaded something exactly if it finds a text to load. -/
theorem reload_eq_ok_iff : (session.reload disk environment).1 = .ok true ↔
    ∃ content settings, Finds disk environment session content settings := by
  rcases reload_cases disk environment session with
    ⟨content, settings, notices, finds, loads⟩ | ⟨nothing, answer, notices, refused, keeps⟩
  · exact iff_of_true (by rw [loads]) ⟨content, settings, finds⟩
  · exact iff_of_false (by rwa [keeps]) nothing

/-- A call that does not say that it replaced the configuration left everything as it was. -/
theorem reload_untouched (refused : (session.reload disk environment).1 ≠ .ok true) :
    (session.reload disk environment).2.1 = session := by
  rcases reload_cases disk environment session with
    ⟨content, settings, notices, -, loads⟩ | ⟨-, answer, notices, -, keeps⟩
  · exact absurd (by rw [loads]) refused
  · rw [keeps]

/-- A call that says so has loaded the text that it found. -/
theorem reload_loading (loads : (session.reload disk environment).1 = .ok true) :
    ∃ content settings, Finds disk environment session content settings ∧
      (session.reload disk environment).2.1 =
        session.loading disk environment content settings := by
  rcases reload_cases disk environment session with
    ⟨content, settings, notices, finds, loading⟩ | ⟨-, answer, notices, refused, keeps⟩
  · exact ⟨content, settings, finds, by rw [loading]⟩
  · rw [keeps] at loads
    exact absurd loads refused

/-! ## One call after the other -/

/-- The session after calls that find these disks. -/
def after (environment : Environment) (session : Session) (disks : List Disk) : Session :=
  disks.foldl (fun session disk => (session.reload disk environment).2.1) session

/-- Without calls a session stays as it is. -/
@[simp] theorem after_nil (environment : Environment) (session : Session) :
    session.after environment [] = session := rfl

/-- The first call is made on the first disk, and the others come after it. -/
@[simp] theorem after_cons (environment : Environment) (session : Session) (disk : Disk)
    (disks : List Disk) :
    session.after environment (disk :: disks) =
      (session.reload disk environment).2.1.after environment disks := rfl

/-- Calls can be made in two parts. -/
theorem after_append (environment : Environment) (session : Session) (before later : List Disk) :
    session.after environment (before ++ later) =
      (session.after environment before).after environment later := List.foldl_append

/-- What loading a text preserves holds after any calls, since other calls change nothing. -/
theorem after_induct {motive : Session → Prop} (base : motive session)
    (step : ∀ session disk content settings, Finds disk environment session content settings →
      motive session → motive (session.loading disk environment content settings)) :
    motive (session.after environment disks) := by
  induction disks generalizing session with
  | nil => exact base
  | cons disk disks inductionHypothesis =>
    refine inductionHypothesis ?_
    rcases reload_cases disk environment session with
      ⟨content, settings, notices, finds, loads⟩ | ⟨-, answer, notices, -, keeps⟩
    · simp only [loads]
      exact step session disk content settings finds base
    · simpa only [keeps] using base

/-- None of the calls that find these disks replaces the configuration. -/
def Quiet (environment : Environment) : Session → List Disk → Prop
  | _, [] => True
  | session, disk :: disks =>
    (session.reload disk environment).1 ≠ .ok true ∧
      Quiet environment (session.reload disk environment).2.1 disks

/-- The texts that are read by calls that find these disks. -/
def readings (environment : Environment) : Session → List Disk → List Text
  | _, [] => []
  | session, disk :: disks =>
    (Config.content? disk environment session.config.file).toList ++
      readings environment (session.reload disk environment).2.1 disks

/-- The second part of some calls reads from the session that the first part leaves. -/
theorem readings_append (environment : Environment) (session : Session)
    (before later : List Disk) :
    readings environment session (before ++ later) =
      readings environment session before ++
        readings environment (session.after environment before) later := by
  induction before generalizing session with
  | nil => rfl
  | cons disk before inductionHypothesis =>
    rw [List.cons_append, readings, inductionHypothesis, readings, after_cons, List.append_assoc]

/-- Calls that replace nothing leave the session as it is. -/
theorem Quiet.after_eq (quiet : Quiet environment session disks) :
    session.after environment disks = session := by
  induction disks with
  | nil => rfl
  | cons disk disks inductionHypothesis =>
    obtain ⟨refused, further⟩ := quiet
    rw [reload_untouched refused] at further
    rw [after_cons, reload_untouched refused]
    exact inductionHypothesis further

/-- The calls are quiet, or one of them is the last that is not. -/
theorem after_cases (environment : Environment) (session : Session) (disks : List Disk) :
    (Quiet environment session disks ∧ session.after environment disks = session) ∨
    ∃ before disk later, disks = before ++ disk :: later ∧
      ((session.after environment before).reload disk environment).1 = .ok true ∧
      Quiet environment (session.after environment (before ++ [disk])) later ∧
      session.after environment disks = session.after environment (before ++ [disk]) := by
  induction disks generalizing session with
  | nil => exact .inl ⟨trivial, rfl⟩
  | cons disk disks inductionHypothesis =>
    rcases inductionHypothesis (session.reload disk environment).2.1 with
      ⟨quiet, same⟩ | ⟨before, last, later, rfl, loads, quiet, same⟩
    · by_cases loads : (session.reload disk environment).1 = .ok true
      · exact .inr ⟨[], disk, disks, rfl, loads, quiet, same⟩
      · have whole : Quiet environment session (disk :: disks) := ⟨loads, quiet⟩
        exact .inl ⟨whole, whole.after_eq⟩
    · exact .inr ⟨disk :: before, last, later, rfl, loads, quiet, same⟩

end Session

/-! ## Remembering a mark -/

/-- A session that remembers a mark of the text that was loaded last in the place of the text. -/
structure MarkedSession where
  config : Config
  /-- The mark, which is zero as long as no text was loaded. -/
  mark : UInt64 := 0
deriving DecidableEq, Repr

namespace MarkedSession

/-- Puts a configuration in force. -/
def start (hash : Text → UInt64) (disk : Disk) (environment : Environment) (config : Config) :
    MarkedSession :=
  match Config.content? disk environment config.file with
  | some content => { config, mark := hash content }
  | none => { config }

/-- Reloads the file if its text has another mark. -/
def reload (hash : Text → UInt64) (disk : Disk) (environment : Environment)
    (session : MarkedSession) : Except ReloadFault Bool × MarkedSession × List Notice :=
  if disk.isFile environment.cwd session.config.file then
    match Config.content? disk environment session.config.file with
    | none => (.error .notText, session, [])
    | some content =>
      if hash content = session.mark then (.ok false, session, [])
      else match Session.renewed disk environment session.config content with
        | (.error fault, notices) => (.error (.config fault), session, notices)
        | (.ok config, notices) => (.ok true, { config, mark := hash content }, notices)
  else (.ok false, session, [])

/-- The session after calls that find these disks. -/
def after (hash : Text → UInt64) (environment : Environment) (session : MarkedSession)
    (disks : List Disk) : MarkedSession :=
  disks.foldl (fun session disk => (session.reload hash disk environment).2.1) session

end MarkedSession

/-- Marks that tell these texts from each other and from no text. -/
structure Apart (hash : Text → UInt64) (texts : List Text) : Prop where
  marked : ∀ text ∈ texts, hash text ≠ 0
  differing : ∀ one ∈ texts, ∀ other ∈ texts, hash one = hash other → one = other

namespace Session

variable {disk : Disk} {disks : List Disk} {environment : Environment} {session : Session}
  {config : Config} {hash : Text → UInt64} {texts : List Text} {content : Text}

/-- The session with a mark of what it remembers. -/
def marked (hash : Text → UInt64) (session : Session) : MarkedSession :=
  { config := session.config, mark := (session.loaded.map hash).getD 0 }

/-- A session that begins with a mark is the marked one that begins with a text. -/
theorem start_marked (hash : Text → UInt64) (disk : Disk) (environment : Environment)
    (config : Config) :
    MarkedSession.start hash disk environment config =
      (start disk environment config).marked hash := by
  unfold MarkedSession.start start marked
  cases Config.content? disk environment config.file <;> rfl

/-- A text has the mark that is remembered exactly if it is the text that was loaded last. -/
theorem mark_eq_iff (apart : Apart hash texts) (remembered : session.loaded.toList ⊆ texts)
    (member : content ∈ texts) :
    hash content = (session.marked hash).mark ↔ session.loaded = some content := by
  unfold marked
  cases loaded : session.loaded with
  | none => simpa using apart.marked content member
  | some old =>
    have among : old ∈ texts := remembered (by simp [loaded])
    simp only [Option.map_some, Option.getD_some, Option.some_inj]
    constructor
    · intro same
      exact (apart.differing content member old among same).symm
    · rintro rfl
      rfl

/-- A call that compares marks does what a call does that compares texts. -/
theorem reload_marked (apart : Apart hash texts) (remembered : session.loaded.toList ⊆ texts)
    (read : (Config.content? disk environment session.config.file).toList ⊆ texts) :
    (session.marked hash).reload hash disk environment =
      ((session.reload disk environment).1, (session.reload disk environment).2.1.marked hash,
        (session.reload disk environment).2.2) := by
  have config : (session.marked hash).config = session.config := rfl
  unfold MarkedSession.reload reload
  rw [config]
  split
  · cases stands : Config.content? disk environment session.config.file with
    | none => rfl
    | some content =>
      have member : content ∈ texts := read (by simp [stands])
      simp only [mark_eq_iff apart remembered member]
      split
      · rfl
      · rcases renewed disk environment session.config content with ⟨result, notices⟩
        cases result <;> rfl
  · rfl

/-- What is remembered after a call was remembered before or is read by the call. -/
theorem loaded_reload (remembered : session.loaded.toList ⊆ texts)
    (read : (Config.content? disk environment session.config.file).toList ⊆ texts) :
    (session.reload disk environment).2.1.loaded.toList ⊆ texts := by
  rcases reload_cases disk environment session with
    ⟨content, settings, notices, finds, loads⟩ | ⟨-, answer, notices, -, keeps⟩
  · rw [finds.standing] at read
    rw [loads]
    exact read
  · rw [keeps]
    exact remembered

/-- Whatever is remembered after some calls was remembered before or read by one of them. -/
theorem loaded_after (remembered : session.loaded.toList ⊆ texts)
    (read : readings environment session disks ⊆ texts) :
    (session.after environment disks).loaded.toList ⊆ texts := by
  induction disks generalizing session with
  | nil => exact remembered
  | cons disk disks inductionHypothesis =>
    obtain ⟨own, further⟩ := List.append_subset.mp read
    exact inductionHypothesis (loaded_reload remembered own) further

/-- So the sessions stay alike as long as the texts that are read have marks that tell them
apart. -/
theorem after_marked (apart : Apart hash texts) (remembered : session.loaded.toList ⊆ texts)
    (read : readings environment session disks ⊆ texts) :
    (session.marked hash).after hash environment disks =
      (session.after environment disks).marked hash := by
  induction disks generalizing session with
  | nil => rfl
  | cons disk disks inductionHypothesis =>
    obtain ⟨own, further⟩ := List.append_subset.mp read
    rw [MarkedSession.after, List.foldl_cons, reload_marked apart remembered own]
    exact inductionHypothesis (loaded_reload remembered own) further

/-- That includes one call more. -/
theorem reload_marked_after (apart : Apart hash texts) (remembered : session.loaded.toList ⊆ texts)
    (read : readings environment session (disks ++ [disk]) ⊆ texts) :
    let later := session.after environment disks
    let reply := later.reload disk environment
    (session.marked hash).after hash environment disks = later.marked hash ∧
      (later.marked hash).reload hash disk environment =
        (reply.1, reply.2.1.marked hash, reply.2.2) := by
  intro later reply
  rw [readings_append] at read
  obtain ⟨earlier, last⟩ := List.append_subset.mp read
  exact ⟨after_marked apart remembered earlier,
    reload_marked apart (loaded_after remembered earlier) (List.append_subset.mp last).1⟩

end Session

end ViewCompiler

import ViewCompiler.Proofs.Config.Calls

/-!
# Reloading is all or nothing

A program is started with the configuration of a file, or with the default one if there is no
file, and reloads it again and again. Whatever becomes of the file in between, what is in force is
the configuration of the text that was loaded last, and a call replaces it exactly if the file
says something else that is accepted.

The root that was given from outside stays. The file stays the one that the program was started
with, but not its spelling: a path that names nothing is only made absolute, so it keeps its dots
and climbs until it is loaded from for the first time. Dots make no difference to the steps of a
path, climbs do.
-/

namespace ViewCompiler

open Text

namespace Config

open Physical Disk

variable {disk first : Disk} {environment : Environment} {config : Config} {place : Place}
  {file target content : Text} {root : Option Text}

/-! ## What a program is started with -/

/-- A configuration file holds the same under its canonical spelling. -/
theorem content?_canonical (absolute : isAbsolute file = true) :
    content? disk environment (disk.canonical environment.cwd file) =
      content? disk environment file := by
  unfold content?
  rw [Disk.content?_canonical absolute]

/-- A file is looked for in the working directory first. -/
theorem cwd_mem_outwards (named : ∀ name ∈ place, IsName name) :
    pathOf place ∈ outwards (pathOf place) := by
  have kept : (rawPieces (pathOf place)).filter (· ≠ []) = place := by
    rw [pathOf, rawPieces_slash]
    by_cases empty : place = []
    · subst empty
      rfl
    · rw [rawPieces_joined empty named]
      simpa using fun name member => (named name member).1
  unfold outwards
  rw [kept]
  exact List.mem_map.mpr ⟨0, by simp, by simp⟩

/-- A file that is not found is not in the working directory. -/
theorem isFile_of_find?_none (missing : find? disk environment file = none)
    (here : environment.cwd = pathOf place) (named : ∀ name ∈ place, IsName name) :
    disk.isFile environment.cwd (join environment.cwd file) = false := by
  unfold find? at missing
  split at missing
  · rename_i absolute
    rw [join, if_pos absolute]
    simpa using missing
  · have nowhere := List.find?_eq_none.mp missing
    simpa using nowhere _ (List.mem_map_of_mem (here ▸ cwd_mem_outwards named))

/-- The file that is found for a session has an absolute path. -/
theorem isAbsolute_of_find? (found : find? disk environment file = some target) :
    isAbsolute target = true := by
  unfold find? at found
  split at found
  · split at found
    · rwa [← Option.some.inj found]
    · cases found
  · obtain ⟨directory, among, rfl⟩ := List.mem_map.mp (List.mem_of_find?_eq_some found)
    obtain ⟨up, -, rfl⟩ := List.mem_map.mp among
    exact isAbsolute_join (isAbsolute_pathOf _) file

/-- The configuration that a program is started with says what its file says, or what holds by
default if there is no file. -/
theorem load_eq_ok (here : environment.cwd = pathOf place) (named : ∀ name ∈ place, IsName name)
    (loads : (load disk environment file root).1 = .ok config) :
    ∃ target settings, isAbsolute target = true ∧
      config =
        ofSettings disk environment target (root.map (disk.canonical environment.cwd)) settings ∧
      (content? disk environment target = none ∧ settings = {} ∨
        ∃ content, content? disk environment target = some content ∧ settings.SaidBy content) := by
  have absolute : isAbsolute environment.cwd = true := here ▸ isAbsolute_pathOf place
  unfold load at loads
  split at loads
  · rename_i missing
    dsimp only at loads
    obtain ⟨-, rfl⟩ := ofSettings_validated_iff.mp loads
    refine ⟨_, _, isAbsolute_join absolute file, rfl, .inl ⟨?_, rfl⟩⟩
    cases stands : content? disk environment (join environment.cwd file) with
    | none => rfl
    | some content =>
      have regular := isFile_of_content? stands
      rw [isFile_of_find?_none missing here named] at regular
      cases regular
  · rename_i target found
    split at loads
    · cases loads
    · rename_i content stands
      split at loads
      · cases loads
      · rename_i settings notices given
        have read : (read target content).1 = .ok settings := by rw [given]
        obtain ⟨sound, rfl⟩ := ofSettings_validated_iff.mp loads
        exact ⟨target, settings, isAbsolute_of_find? found, rfl,
          .inr ⟨content, stands, read_eq_ok_iff.mp read, sound⟩⟩

end Config

namespace Session

open Physical Disk

variable {disk first : Disk} {disks : List Disk} {environment : Environment}
  {session begun : Session} {config : Config} {place : Place} {file content : Text}
  {root : Option Text}

/-! ## What holds of every session -/

/-- The settings in force are those of the text that was loaded last, and the file is known by its
one spelling since then. -/
structure Sound (session : Session) : Prop where
  absolute : isAbsolute session.config.file = true
  directory : session.config.directory = (parent? session.config.file).getD []
  unloaded : session.loaded = none → session.config.settings = {}
  said : ∀ content, session.loaded = some content → session.config.settings.SaidBy content
  spelled : session.loaded ≠ none →
    ∃ place, (∀ name ∈ place, IsName name) ∧ session.config.file = pathOf place

/-- A file that is read is known by its one spelling afterwards. -/
theorem canonical_spelled {path : Text}
    (stands : Config.content? disk environment path = some content) :
    ∃ place, (∀ name ∈ place, IsName name) ∧
      disk.canonical environment.cwd path = pathOf place := by
  unfold Config.content? Disk.content? named? at stands
  cases resolves : disk.resolve? environment.cwd path with
  | none => simp [resolves] at stands
  | some place =>
    refine ⟨place, (resolve?_pathOf resolves environment.cwd).1, ?_⟩
    simp only [canonical, resolves]

/-- A session is sound at its start. -/
theorem start_sound (here : environment.cwd = pathOf place) (named : ∀ name ∈ place, IsName name)
    (loads : (Config.load first environment file root).1 = .ok config) :
    (start first environment config).Sound := by
  have cwd : isAbsolute environment.cwd = true := here ▸ isAbsolute_pathOf place
  obtain ⟨target, settings, absolute, rfl, origin⟩ := Config.load_eq_ok here named loads
  have loaded : (start first environment (Config.ofSettings first environment target
      (root.map (first.canonical environment.cwd)) settings)).loaded =
        Config.content? first environment target := Config.content?_canonical absolute
  refine ⟨first.isAbsolute_canonical cwd target, rfl, ?_, ?_, ?_⟩
  · intro none
    rw [loaded] at none
    rcases origin with ⟨-, rfl⟩ | ⟨content, stands, -⟩
    · rfl
    · rw [stands] at none
      cases none
  · intro content some
    rw [loaded] at some
    rcases origin with ⟨missing, -⟩ | ⟨other, stands, said⟩
    · rw [missing] at some
      cases some
    · rw [stands] at some
      exact Option.some.inj some ▸ said
  · intro some
    rw [loaded] at some
    obtain ⟨content, stands⟩ := Option.ne_none_iff_exists'.mp some
    exact canonical_spelled stands

/-- It stays sound over calls, whatever disks they find. -/
theorem after_sound (cwd : isAbsolute environment.cwd = true) (sound : session.Sound) :
    (session.after environment disks).Sound := by
  apply after_induct sound
  intro session disk content settings finds _
  refine ⟨disk.isAbsolute_canonical cwd _, rfl, nofun, ?_,
    fun _ => canonical_spelled finds.standing⟩
  intro other same
  obtain rfl := Option.some.inj same
  exact finds.said

/-! ## What is kept of the start -/

/-- No call changes the root that was given at the start. -/
theorem after_givenRoot :
    (session.after environment disks).config.givenRoot = session.config.givenRoot := by
  refine after_induct (motive := fun later => later.config.givenRoot = session.config.givenRoot)
    rfl ?_
  intro later disk content settings _ kept
  exact kept

/-- The spelling of a file that is known by its one spelling does not change any more. -/
theorem after_spelled (named : ∀ name ∈ place, IsName name)
    (spelled : session.config.file = pathOf place) :
    (session.after environment disks).config.file = pathOf place := by
  refine after_induct (motive := fun later => later.config.file = pathOf place) spelled ?_
  intro later disk content settings _ kept
  have respelled : (later.loading disk environment content settings).config.file =
      disk.canonical environment.cwd later.config.file := rfl
  rw [respelled, kept, disk.canonical_pathOf environment.cwd named]

/-- A file whose path does not climb keeps the steps of its path. -/
theorem after_components (cwd : isAbsolute environment.cwd = true)
    (absolute : isAbsolute session.config.file = true)
    (plain : ['.', '.'] ∉ rawPieces session.config.file) :
    components (session.after environment disks).config.file =
      components session.config.file := by
  have kept : let file := (session.after environment disks).config.file
      isAbsolute file = true ∧ ['.', '.'] ∉ rawPieces file ∧
        components file = components session.config.file := by
    refine after_induct (motive := fun later => isAbsolute later.config.file = true ∧
      ['.', '.'] ∉ rawPieces later.config.file ∧
        components later.config.file = components session.config.file) ⟨absolute, plain, rfl⟩ ?_
    rintro later disk content settings - ⟨absolute, plain, steps⟩
    have joined : join environment.cwd later.config.file = later.config.file := if_pos absolute
    have respelled : (later.loading disk environment content settings).config.file =
        disk.canonical environment.cwd later.config.file := rfl
    rw [← joined] at plain
    rw [respelled]
    refine ⟨disk.isAbsolute_canonical cwd later.config.file, (disk.canonical_plain plain).2, ?_⟩
    rw [disk.components_canonical cwd plain, joined, steps]
  exact kept.2.2

/-- From the first call on that replaces the configuration, the file is known by the one spelling
that it had then. -/
theorem after_loaded {before later : List Disk} (quiet : Quiet environment session before)
    (loads : (session.reload disk environment).1 = .ok true) :
    (session.after environment (before ++ disk :: later)).config.file =
      disk.canonical environment.cwd session.config.file := by
  obtain ⟨content, settings, finds, loading⟩ := reload_loading loads
  obtain ⟨place, named, spelled⟩ := canonical_spelled finds.standing
  have unchanged : session.after environment before = session := quiet.after_eq
  have onward : session.after environment (before ++ disk :: later) =
      (session.loading disk environment content settings).after environment later := by
    rw [after_append, unchanged, after_cons, loading]
  rw [onward, spelled]
  exact after_spelled named spelled

/-- What a session keeps of its start over calls that find these disks: the given root, and the
file up to its spelling. A file that existed keeps its spelling, one whose path does not climb
keeps its steps, and any other is known by its one spelling from the first call on that replaces
the configuration. -/
structure Keeps (environment : Environment) (begun : Session) (disks : List Disk)
    (session : Session) : Prop where
  givenRoot : session.config.givenRoot = begun.config.givenRoot
  existing : begun.loaded ≠ none →
    session.config.file = begun.config.file ∧ session.config.directory = begun.config.directory
  plain : ['.', '.'] ∉ rawPieces begun.config.file →
    components session.config.file = components begun.config.file ∧
      components session.config.directory = components begun.config.directory
  respelled : ∀ before disk later, disks = before ++ disk :: later →
    Quiet environment begun before → (begun.reload disk environment).1 = .ok true →
      session.config.file = disk.canonical environment.cwd begun.config.file
  directory : session.config.directory = (parent? session.config.file).getD []

/-- After any calls a session keeps of its start what there is to keep. -/
theorem after_keeps (cwd : isAbsolute environment.cwd = true) (sound : begun.Sound) :
    Keeps environment begun disks (begun.after environment disks) := by
  have later : (begun.after environment disks).Sound := after_sound cwd sound
  refine ⟨after_givenRoot, ?_, ?_, ?_, later.directory⟩
  · intro existing
    obtain ⟨place, named, spelled⟩ := sound.spelled existing
    have same : (begun.after environment disks).config.file = begun.config.file :=
      (after_spelled named spelled).trans spelled.symm
    exact ⟨same, by rw [later.directory, sound.directory, same]⟩
  · intro plain
    have steps : components (begun.after environment disks).config.file =
        components begun.config.file := after_components cwd sound.absolute plain
    refine ⟨steps, ?_⟩
    rw [later.directory, sound.directory, components_parent? later.absolute,
      components_parent? sound.absolute, steps]
  · rintro before disk later rfl quiet loads
    exact after_loaded quiet loads

/-! ## What is in force -/

/-- Nothing was loaded since the start, or what is in force is the configuration of the text that
the last call found that replaced it. -/
def InForce (environment : Environment) (begun : Session) (disks : List Disk)
    (session : Session) : Prop :=
  (Quiet environment begun disks ∧ session = begun) ∨
  ∃ before disk later content, disks = before ++ disk :: later ∧
    ((begun.after environment before).reload disk environment).1 = .ok true ∧
    Quiet environment (begun.after environment (before ++ [disk])) later ∧
    Config.content? disk environment (begun.after environment before).config.file = some content ∧
    session.config.settings.SaidBy content ∧ session.loaded = some content

/-- After any calls, what is in force is what was loaded last. -/
theorem after_inForce : InForce environment begun disks (begun.after environment disks) := by
  rcases after_cases environment begun disks with
    ⟨quiet, same⟩ | ⟨before, disk, later, shape, loads, quiet, same⟩
  · exact .inl ⟨quiet, same⟩
  · obtain ⟨content, settings, finds, loading⟩ := reload_loading loads
    have last : begun.after environment disks =
        (begun.after environment before).loading disk environment content settings := by
      rw [same, ← loading, after_append, after_cons, after_nil]
    refine .inr ⟨before, disk, later, content, shape, loads, quiet, finds.standing, ?_, ?_⟩
    · rw [last]
      exact finds.said
    · rw [last]
      rfl

/-- A program is started on a disk with the configuration of its file, or with the default one if
there is no file. After any calls that find any disks, what is in force is the configuration of
the text that was loaded last, at the start or by a call, for the file and with the given root of
the start. The next call answers that it replaced the configuration exactly if the file exists,
says something else than that text, and this is accepted; after any other answer the session is
as it was. A session that remembers marks of texts that tell them apart does and answers the
same. -/
theorem reload_all_or_nothing {hash : Text → UInt64} (here : environment.cwd = pathOf place)
    (named : ∀ name ∈ place, IsName name)
    (loads : (Config.load first environment file root).1 = .ok config) (past : List Disk)
    (next : Disk)
    (apart : Apart hash ((start first environment config).loaded.toList ++
      readings environment (start first environment config) (past ++ [next]))) :
    let begun := start first environment config
    let session := begun.after environment past
    let reply := session.reload next environment
    let marked := (MarkedSession.start hash first environment config).after hash environment past
    (begun.config = config ∧ (begun.loaded = none → config.settings = {}) ∧
        ∀ content, begun.loaded = some content → config.settings.SaidBy content) ∧
      InForce environment begun past session ∧
      Keeps environment begun past session ∧
      (reply.1 = .ok true ↔ next.isFile environment.cwd session.config.file = true ∧
        ∃ content, Config.content? next environment session.config.file = some content ∧
          session.loaded ≠ some content ∧ ∃ settings : Settings, settings.SaidBy content) ∧
      (reply.1 ≠ .ok true → reply.2.1 = session) ∧
      marked = session.marked hash ∧
      marked.reload hash next environment = (reply.1, reply.2.1.marked hash, reply.2.2) := by
  intro begun session reply marked
  have cwd : isAbsolute environment.cwd = true := here ▸ isAbsolute_pathOf place
  have sound : begun.Sound := start_sound here named loads
  refine ⟨⟨rfl, sound.unloaded, sound.said⟩, after_inForce, after_keeps cwd sound, ?_,
    reload_untouched, ?_⟩
  · rw [reload_eq_ok_iff]
    constructor
    · rintro ⟨content, settings, finds⟩
      exact ⟨Config.isFile_of_content? finds.standing,
        content, finds.standing, finds.differing, settings, finds.said⟩
    · rintro ⟨-, content, standing, differing, settings, said⟩
      exact ⟨content, settings, standing, differing, said⟩
  · obtain ⟨same, replies⟩ := reload_marked_after apart (List.subset_append_left _ _)
      (List.subset_append_right _ _)
    have alike : marked = session.marked hash := by
      rw [← same, ← start_marked]
    exact ⟨alike, alike ▸ replies⟩

/-- A correction is loaded after a text that is refused and after the file is gone for a while. -/
theorem reload_all_or_nothing_recovered :
    let environment : Environment := ⟨"/", "/"⟩
    let config : Config :=
      { settings := { watch := { window := 150 } }, file := "/razor.toml", directory := "/",
        givenRoot := none }
    let written (content : Text) : Disk :=
      (Disk.mk []).write ["razor.toml"] (Utf8.encode content) 0
    let first := written "[watch]\ndebounce_ms = 150\n"
    let past := [written "[watch]\ndebounce_ms = 0\n", ⟨[]⟩]
    let next := written "[watch]\ndebounce_ms = 90\n"
    let hash (content : Text) : UInt64 := .ofNat (content.length + 1)
    let marked := (MarkedSession.start hash first environment config).after hash environment past
    (Config.load first environment "razor.toml" none).1 = .ok config ∧
      marked = { config, mark := 27 } ∧ (marked.reload hash next environment).1 = .ok true := by
  intro environment config written first past next hash marked
  have loads : (Config.load first environment "razor.toml" none).1 = .ok config := by
    decide +kernel
  have read : (start first environment config).loaded.toList ++
      readings environment (start first environment config) (past ++ [next]) =
        [("[watch]\ndebounce_ms = 150\n" : Text), ("[watch]\ndebounce_ms = 0\n" : Text),
          ("[watch]\ndebounce_ms = 90\n" : Text)] := by
    decide +kernel
  have apart : Apart hash ((start first environment config).loaded.toList ++
      readings environment (start first environment config) (past ++ [next])) := by
    rw [read]
    constructor <;> decide
  have root : environment.cwd = pathOf [] := rfl
  obtain ⟨-, -, -, answers, -, -, replies⟩ :=
    reload_all_or_nothing root (List.forall_mem_nil _) loads past next apart
  have kept : marked = { config, mark := 27 } := by decide +kernel
  refine ⟨loads, kept, ?_⟩
  rw [replies]
  refine answers.mpr ⟨by decide +kernel, "[watch]\ndebounce_ms = 90\n", by decide +kernel,
    by decide +kernel, { watch := { window := 90 } }, ⟨[], by decide +kernel⟩, by decide +kernel⟩

/-- The file of a program that is started without it is known by another path once it is loaded,
and so is its directory: a climb is not followed as long as there is no file to be found. -/
theorem reload_respells_climb :
    let environment : Environment := ⟨"/", "/"⟩
    let first : Disk := ⟨[(["x"], .directory)]⟩
    let config : Config := { file := "/x/../razor.toml", directory := "/x/..", givenRoot := none }
    let next := first.write ["razor.toml"] (Utf8.encode "[watch]\ndebounce_ms = 150\n") 0
    let hash (content : Text) : UInt64 := .ofNat (content.length + 1)
    let reply := (MarkedSession.start hash first environment config).reload hash next environment
    (Config.load first environment "x/../razor.toml" none).1 = .ok config ∧
      Apart hash (readings environment (start first environment config) [next]) ∧
      reply.1 = .ok true ∧
      reply.2.1.config.file = "/razor.toml" ∧ reply.2.1.config.directory = "/" ∧
      components reply.2.1.config.file ≠ components config.file ∧
      components reply.2.1.config.directory ≠ components config.directory := by
  intro environment first config next hash reply
  have read : readings environment (start first environment config) [next] =
      [("[watch]\ndebounce_ms = 150\n" : Text)] := by
    decide +kernel
  have apart : Apart hash (readings environment (start first environment config) [next]) := by
    rw [read]
    constructor <;> decide
  have replies : (reply.1, reply.2.1.config) = (.ok true,
      { settings := { watch := { window := 150 } }, file := "/razor.toml", directory := "/",
        givenRoot := none }) := by
    decide +kernel
  obtain ⟨loads, respelled⟩ := Prod.mk.inj replies
  rw [loads, respelled]
  exact ⟨by decide +kernel, apart, rfl, rfl, rfl, by decide, by decide⟩

end Session

end ViewCompiler

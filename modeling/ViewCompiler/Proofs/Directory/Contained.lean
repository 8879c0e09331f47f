import ViewCompiler.Proofs.Directory.Signalling

/-!
# No path leads out of the root

Every text names either nothing at all or a file that lies below the root of its project, by
names alone: a text that would climb out of the root has no item on the disk, no imports and a
token that never reports a change. The token of any other text looks at the file that its item
reads, or listens to the logical path of this file, and the logical path of the file is again
the canonical spelling of the text.

The root may be spelled in any way, with repeated slashes or climbing. On a disk without links
the file therefore lies below the directory that the root names.
-/

namespace ViewCompiler

open Text

namespace Physical

variable {path root : Text} {names : List Text}

/-- Names below a root are steps after those of the root, however the root is spelled. -/
theorem components_join (absolute : isAbsolute root = true)
    (named : ∀ name ∈ names, IsName name) :
    components (join root (joined ['/'] names)) = components root ++ names.map .name := by
  have nonempty : root ≠ [] := by
    rintro rfl
    cases absolute
  obtain ⟨front, spelled, spelling⟩ := Disk.rawPieces_join root named nonempty
  have shared : (rawPieces root).filterMap step? = front.filterMap step? := by
    rcases spelling with same | slash
    · rw [same]
    · rw [slash, List.filterMap_append]
      exact List.append_nil _
  rw [components_absolute (Disk.isAbsolute_join absolute _), components_absolute absolute, spelled,
    List.filterMap_append, components_joined named, shared, List.cons_append]

/-- A path below a directory is found below it. -/
theorem below?_append (directory rest : List Component) :
    below? directory (directory ++ rest) = some rest := by
  induction directory with
  | nil => rfl
  | cons step directory inductionHypothesis =>
    rw [List.cons_append, below?, if_pos rfl, inductionHypothesis]

/-- The logical path of a path that goes down from the root is spelled from its names. -/
theorem toLogical_join (absolute : isAbsolute root = true)
    (named : ∀ name ∈ names, IsName name) :
    toLogical root (join root (joined ['/'] names)) = some (Logical.ofSegments names) := by
  have below := below?_append (components root) (names.map .name)
  rw [← components_join absolute named] at below
  unfold toLogical
  rw [below, Option.bind_eq_bind, Option.bind_some, namesOf_map, Option.bind_eq_bind,
    Option.bind_some]
  cases names with
  | nil => rfl
  | cons name names => exact congrArg some (Logical.flatMap_slash (List.cons_ne_nil name names))

end Physical

namespace Directory

open Logical

/-- The directory when everything was told to have changed. -/
def tellAll (directory : Directory) : Directory :=
  { directory with signals := directory.signals.map Signals.notifyAll }

/-- What a project with this root comes to: it is made with or without signals, its tokens are
issued and asked, its disk changes in any way, and paths are told. -/
inductive Opened (root : Text) : Directory → Prop
  | probing (disk : Disk) : Opened root { disk, root }
  | signalled (disk : Disk) : Opened root { disk, root, signals := some {} }
  | issue {directory : Directory} (opened : Opened root directory) (path : Text) :
      Opened root (directory.issue path).2
  | ask {directory : Directory} (opened : Opened root directory) (token : DirectoryToken) :
      Opened root (directory.asked token).1
  | edit {directory : Directory} (opened : Opened root directory) (disk : Disk) :
      Opened root { directory with disk }
  | tell {directory : Directory} (opened : Opened root directory) (told : Text) :
      Opened root (directory.tell told)
  | tellAll {directory : Directory} (opened : Opened root directory) :
      Opened root directory.tellAll

/-- Nothing is found of a path. -/
structure Outside (directory : Directory) (path : Text) : Prop where
  normal : normalize path = none
  item : directory.item path = ⟨path, none, false⟩
  token : directory.issue path = (.never, directory)
  /-- The token reports no change, whatever becomes of the project. -/
  never : ∀ later : Directory, later.changed (directory.issue path).1 = false
  imports : ∀ name, hierarchicalCandidates path name = []

/-- A token is about the file of a physical path. A probe is of this path. A signal was handed
out for the logical path by which a change of the file is told, and for no other. -/
def Observes (directory : Directory) (physical : Text) : DirectoryToken → Prop
  | .never => False
  | .probe index => ∃ probe, directory.probes[index]? = some probe ∧ probe.path = physical
  | .signal number => ∃ signals logical, directory.signals = some signals ∧
      Physical.toLogical directory.root physical = some logical ∧ signals.Names logical number

/-- A path names the file that these names lead down to from the root. -/
structure Inside (directory : Directory) (path : Text) (names : List Text) (physical : Text) :
    Prop where
  named : ∀ name ∈ names, Physical.IsName name
  steps : Physical.components physical = Physical.components directory.root ++ names.map .name
  item : directory.item path =
    ⟨ofSegments names, some physical, directory.disk.isFile ['/'] physical⟩
  normal : normalize path = some (ofSegments names)
  /-- On a disk whose entries lie in directories, the file lies below the root's directory. -/
  below : directory.disk.Rooted → directory.disk.content? ['/'] physical =
    (directory.disk.directory? directory.root).bind fun place =>
      directory.disk.file? (place ++ names)
  /-- The physical path has the canonical spelling for its logical path. -/
  back : Physical.toLogical directory.root physical = normalize path
  observed : (directory.issue path).2.Observes physical (directory.issue path).1
  /-- The token reports no change while the same stands there, whatever else changes. -/
  quiet : ∀ disk, disk.named? ['/'] physical = directory.disk.named? ['/'] physical →
    ({ (directory.issue path).2 with disk } : Directory).changed (directory.issue path).1 = false
  /-- A file that comes or goes is reported, if files are looked at. -/
  found : directory.signals = none → ∀ disk,
    disk.isFile ['/'] physical ≠ directory.disk.isFile ['/'] physical →
    ({ (directory.issue path).2 with disk } : Directory).changed (directory.issue path).1 = true
  /-- A change of the file that is told is reported, if changes are signalled. -/
  heard : directory.signals ≠ none → ∀ logical,
    Physical.toLogical directory.root physical = some logical →
    ((directory.issue path).2.tell logical).changed (directory.issue path).1 = true

variable {root path : Text} {directory : Directory} {names : List Text}

/-- Whatever happens, the root stays, and signals are outstanding only for the paths that they
were handed out for. -/
theorem Opened.sound (opened : Opened root directory) :
    directory.root = root ∧ ∀ signals, directory.signals = some signals → signals.Sound := by
  induction opened with
  | probing disk => exact ⟨rfl, nofun⟩
  | signalled disk =>
    refine ⟨rfl, ?_⟩
    rintro _ ⟨⟩
    exact Signals.sound_empty
  | @issue directory _ path inductionHypothesis =>
    obtain ⟨same, sound⟩ := inductionHypothesis
    refine ⟨(directory.issue_disk path).2.trans same, ?_⟩
    rw [issue_signals]
    cases normalize path with
    | none => exact sound
    | some canonical =>
      intro signals issued
      obtain ⟨before, stands, rfl⟩ := Option.map_eq_some_iff.mp issued
      exact (sound before stands).token canonical
  | @ask directory _ token inductionHypothesis =>
    obtain ⟨-, kept, signals⟩ := directory.asked_disk token
    rw [kept, signals]
    exact inductionHypothesis
  | edit _ disk inductionHypothesis => exact inductionHypothesis
  | tell _ told inductionHypothesis =>
    refine ⟨inductionHypothesis.1, ?_⟩
    intro signals told
    obtain ⟨before, stands, rfl⟩ := Option.map_eq_some_iff.mp told
    exact (inductionHypothesis.2 before stands).notify _
  | tellAll _ inductionHypothesis =>
    refine ⟨inductionHypothesis.1, ?_⟩
    intro signals told
    obtain ⟨before, stands, rfl⟩ := Option.map_eq_some_iff.mp told
    exact nofun

/-- Nothing is found of a path that leaves the root. -/
theorem outside_of_normalize (outside : normalize path = none) : directory.Outside path where
  normal := outside
  item := by simp only [item, outside]
  token := by simp only [issue, outside]
  never later := by simp only [issue, outside, changed]
  imports name := by simp only [hierarchicalCandidates, outside]

/-- A probe reports that a file came or went. -/
theorem probe_changed_of_file {physical : Text} {node other : Option Node}
    (differs : (Probe.stampOf other).isSome ≠ (Probe.stampOf node).isSome) :
    (Probe.capture physical node).changed other = true := by
  unfold Probe.changed Probe.differs Probe.capture
  cases own : Probe.stampOf node with
  | none =>
    cases now : Probe.stampOf other with
    | none => simp [own, now] at differs
    | some stamp => rfl
  | some stamp =>
    cases now : Probe.stampOf other with
    | none => rfl
    | some later => simp [own, now] at differs

/-- A path names a regular file exactly if what it names has a stamp. -/
theorem isFile_eq_stampOf (disk : Disk) (physical : Text) :
    disk.isFile ['/'] physical = (Probe.stampOf (disk.named? ['/'] physical)).isSome := by
  unfold Disk.isFile
  cases disk.named? ['/'] physical with
  | none => rfl
  | some node => cases node <;> rfl

/-- A path that stays below the root names a file by names alone, and its token is about this
file. -/
theorem inside_of_normalize (absolute : Physical.isAbsolute directory.root = true)
    (sound : ∀ signals, directory.signals = some signals → signals.Sound)
    (named : ∀ name ∈ names, Physical.IsName name)
    (normal : normalize path = some (ofSegments names)) :
    directory.Inside path names (directory.physicalOf (ofSegments names)) := by
  have spelled := physicalOf_names named directory
  have back : Physical.toLogical directory.root (directory.physicalOf (ofSegments names)) =
      some (ofSegments names) := by
    rw [spelled, Physical.toLogical_join absolute named]
  have steps : Physical.components (directory.physicalOf (ofSegments names)) =
      Physical.components directory.root ++ names.map .name := by
    rw [spelled, Physical.components_join absolute named]
  have below (rooted : directory.disk.Rooted) :
      directory.disk.content? ['/'] (directory.physicalOf (ofSegments names)) =
        (directory.disk.directory? directory.root).bind fun place =>
          directory.disk.file? (place ++ names) := by
    rw [spelled, Disk.content?_below rooted absolute named]
  have item : directory.item path = ⟨ofSegments names,
      some (directory.physicalOf (ofSegments names)),
      directory.disk.isFile ['/'] (directory.physicalOf (ofSegments names))⟩ := by
    simp only [Directory.item, normal]
  cases stands : directory.signals with
  | none =>
    let physical := directory.physicalOf (ofSegments names)
    let probe := Probe.capture physical (directory.node? physical)
    have issued : directory.issue path = (.probe directory.probes.length,
        { directory with probes := directory.probes ++ [probe] }) := by
      simp only [issue, normal, stands, probe, physical]
    have reports (disk : Disk) :
        ({ (directory.issue path).2 with disk } : Directory).changed (directory.issue path).1 =
          probe.changed (disk.named? ['/'] physical) := by
      simp only [issued, changed, List.getElem?_concat_length]
      rfl
    exact {
      named, steps, item, normal, below
      back := back.trans normal.symm
      observed := by
        rw [issued]
        exact ⟨probe, List.getElem?_concat_length, rfl⟩
      quiet := by
        intro disk same
        rw [reports, same]
        exact Probe.changed_capture physical _
      found := by
        intro _ disk differs
        rw [reports]
        apply probe_changed_of_file
        rwa [isFile_eq_stampOf, isFile_eq_stampOf] at differs
      heard := fun told => absurd stands told }
  | some signals =>
    let canonical := ofSegments names
    let number := (signals.token canonical).1
    have issued : directory.issue path =
        (.signal number, { directory with signals := some (signals.token canonical).2 }) := by
      simp only [issue, normal, stands, number, canonical]
    have hears : (directory.issue path).2.Hears path (directory.issue path).1 :=
      Signalled.hears ⟨signals, stands, sound signals stands⟩ path
    exact {
      named, steps, item, normal, below
      back := back.trans normal.symm
      observed := by
        rw [issued]
        exact ⟨_, canonical, rfl, back, (sound signals stands).token_names canonical⟩
      quiet := by
        intro disk _
        rw [hears.changed_disk disk, issued, changed_signal rfl, Signals.fired_eq_false_iff]
        exact ⟨canonical, Signals.mem_token.mpr (.inr rfl)⟩
      found := fun looked => by rw [stands] at looked; cases looked
      heard := by
        intro _ logical told
        obtain rfl := Option.some.inj (back.symm.trans told)
        rw [hears.changed_tell]
        refine .inr ⟨_, normal, ?_⟩
        simp [Signals.concerns] }

/-- No path leads out of the root: whatever happened to a project with an absolute root, nothing
is found of a path, or names alone lead from the root to the file that its item reads and its
token is about, and the file has the canonical spelling of the path for its logical path. -/
theorem item_contained (opened : Opened root directory) (absolute : Physical.isAbsolute root = true)
    (path : Text) :
    directory.Outside path ∨ ∃ names physical, directory.Inside path names physical := by
  obtain ⟨same, sound⟩ := opened.sound
  cases normal : normalize path with
  | none => exact .inl (outside_of_normalize normal)
  | some canonical =>
    obtain ⟨names, rfl, named⟩ := normalize_names normal
    have physical : ∀ name ∈ names, Physical.IsName name := fun name member =>
      (named name member).1.physical
    exact .inr ⟨names, _, inside_of_normalize (same ▸ absolute) sound physical normal⟩

/-- A root that is spelled with a climb and a slash at its end, and a path of all kinds of steps. -/
theorem item_contained_spelled :
    let directory : Directory :=
      { disk := {}, root := "/srv/../app/", signals := some {} }
    let path : Text := "~/Views\\..//./a.cshtml"
    Opened directory.root directory ∧ Physical.isAbsolute directory.root = true ∧
      ∃ names, directory.Inside path names "/srv/../app/a.cshtml" := by
  intro directory path
  have opened : Opened directory.root directory := .signalled {}
  have absolute : Physical.isAbsolute directory.root = true := by decide
  refine ⟨opened, absolute, ?_⟩
  rcases item_contained opened absolute path with outside | ⟨names, physical, inside⟩
  · have normal : normalize path = some "/a.cshtml" := by decide
    rw [outside.normal] at normal
    cases normal
  · have found : directory.item path = ⟨"/a.cshtml", some "/srv/../app/a.cshtml", false⟩ := by
      decide
    rw [inside.item] at found
    obtain rfl : physical = "/srv/../app/a.cshtml" := by
      simpa using congrArg Item.physical found
    exact ⟨names, inside⟩

end Directory

end ViewCompiler

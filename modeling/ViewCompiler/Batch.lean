import ViewCompiler.Disk
import ViewCompiler.Event

/-!
# Batches of changes

Changes of files come in bursts: an editor may remove, create and modify a file within
a few milliseconds. A batch collects them until nothing has come for a while, and keeps
for each path the one change that the burst amounts to. After a batch was taken, the
next one is not ready before a cooldown is over.

Paths are told apart by their steps, so two spellings of a path are one entry, under
the spelling that came first. Times are milliseconds of one clock.
-/

namespace ViewCompiler

/-- What a file system reports about paths. -/
inductive Happening
  | appeared
  | vanished
  /-- The content or the name changed. -/
  | altered
  /-- Only what is known about the file changed, not what is in it. -/
  | described
  /-- The file was looked at, or something else. -/
  | passed
deriving DecidableEq, Repr

/-- What became of a file. -/
inductive ChangeKind
  | created
  | modified
  | removed
deriving DecidableEq, Repr

namespace ChangeKind

/-- The change that a happening amounts to, if it is one. -/
def ofHappening? : Happening → Option ChangeKind
  | .appeared => some .created
  | .vanished => some .removed
  | .altered => some .modified
  | .described | .passed => none

/-- The word for a change. -/
def label : ChangeKind → Text
  | .created => "created"
  | .modified => "modified"
  | .removed => "removed"

end ChangeKind

/-- Whether a path names what editors leave beside the files they work on: backups, swap
files and everything hidden. -/
def isTemporary (path : Text) : Bool :=
  let name := (Physical.fileName? path).getD []
  let extension := (Physical.extension? path).getD []
  (["bck", "bak", "backup", "swp", "swo", "tmp"] : List Text).contains extension ||
    Text.endsWith ['~'] name || Text.beginsWith ['.'] name

/-- A path with what became of it. -/
structure Change where
  path : Text
  kind : ChangeKind
deriving DecidableEq, Repr

/-- The changes since the last batch was taken. -/
structure Batch where
  /-- How long nothing may come before a batch is ready. -/
  window : Nat
  changes : List Change := []
  /-- When a change last came that counts. -/
  lastChange : Option Nat := none
  /-- When a batch was last taken. -/
  lastTaken : Option Nat := none
deriving DecidableEq, Repr

namespace Batch

/-- How long the next batch has to wait after one was taken. -/
def cooldown (batch : Batch) : Nat := min 500 (2 * batch.window)

/-- How long to sleep when nothing is expected. -/
def idle : Nat := 3600000

/-- The change that is kept for a path. -/
def find? (batch : Batch) (path : Text) : Option Change :=
  batch.changes.find? fun change => Physical.components change.path = Physical.components path

/-- The changes with another kind for the path of one of them. -/
def exchanged (batch : Batch) (path : Text) (kind : ChangeKind) : List Change :=
  batch.changes.map fun change =>
    if Physical.components change.path = Physical.components path then { change with kind } else change

/-- The changes without that of a path. -/
def without (batch : Batch) (path : Text) : List Change :=
  batch.changes.filter fun change => Physical.components change.path ≠ Physical.components path

/-- Adds a change of a path. A file that comes back is what it came back as, one that is
modified and then goes is removed, and one that is created and then goes leaves
nothing. In every other case the first change stands. -/
def note (batch : Batch) (now : Nat) (path : Text) (kind : ChangeKind) : Batch × List Event :=
  match batch.find? path with
  | none =>
    ({ batch with changes := batch.changes ++ [⟨path, kind⟩], lastChange := some now },
      [.noted kind.label path])
  | some known =>
    match known.kind, kind with
    | .removed, .created | .removed, .modified =>
      ({ batch with changes := batch.exchanged path kind, lastChange := some now }, [.restored path])
    | .modified, .removed =>
      ({ batch with changes := batch.exchanged path .removed, lastChange := some now }, [])
    | .created, .removed =>
      ({ batch with changes := batch.without path, lastChange := some now }, [.discarded path])
    | _, _ => (batch, [])

/-- Adds what a file system reports about paths. A path is noted in the one spelling
that the disk gives it. -/
def add (batch : Batch) (disk : Disk) (cwd : Text) (now : Nat) (happening : Happening) :
    (paths : List Text) → Batch × List Event
  | [] => (batch, [])
  | path :: paths =>
    let (batch, events) :=
      match ChangeKind.ofHappening? happening with
      | some kind => if isTemporary path then (batch, []) else batch.note now (disk.canonical cwd path) kind
      | none => (batch, [])
    let (batch, more) := batch.add disk cwd now happening paths
    (batch, events ++ more)

/-- Whether a batch can be taken: there is a change, none came within the window, and
the cooldown is over. -/
def isReady (batch : Batch) (now : Nat) : Bool :=
  match batch.lastChange with
  | none => false
  | some last =>
    batch.window ≤ now - last &&
      (match batch.lastTaken with
        | some taken => batch.cooldown ≤ now - taken
        | none => true) &&
      !batch.changes.isEmpty

/-- Changes in the order of the steps of their paths. -/
def sorted (changes : List Change) : List Change :=
  changes.mergeSort fun left right =>
    Physical.stepsAtMost (Physical.components left.path) (Physical.components right.path)

/-- Takes the batch if it is ready. -/
def take? (batch : Batch) (now : Nat) : Option (List Change) × Batch :=
  if batch.isReady now then
    (some (sorted batch.changes), { batch with changes := [], lastChange := none, lastTaken := some now })
  else (none, batch)

/-- How long to sleep before a batch can be ready. -/
def sleep (batch : Batch) (now : Nat) : Nat :=
  match batch.lastChange with
  | none => idle
  | some last =>
    let rest := batch.window - (now - last)
    let cooling := match batch.lastTaken with
      | some taken => batch.cooldown - (now - taken)
      | none => 0
    max (max rest cooling) 1

/-- How many changes there are. -/
def pending (batch : Batch) : Nat := batch.changes.length

end Batch

end ViewCompiler

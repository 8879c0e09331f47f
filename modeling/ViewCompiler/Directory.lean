import ViewCompiler.Probe
import ViewCompiler.Project
import ViewCompiler.Signals

/-!
# Templates in a directory

A project whose logical paths name files below one directory of a disk. Changes are
found by probing the files or, if signals are kept, by being told. A path that leaves
the root names no file and its token never reports a change.
-/

namespace ViewCompiler

/-- A token of a path below a directory. -/
inductive DirectoryToken
  /-- The path leaves the root, so it never changes. -/
  | never
  /-- A probe, by its place in the list of probes. -/
  | probe (index : Nat)
  /-- A signal. -/
  | signal (number : Nat)
deriving DecidableEq, Repr

/-- A disk seen from the root directory of a project, with the state of the tokens
issued so far. -/
structure Directory where
  disk : Disk
  /-- The absolute path of the root directory. -/
  root : Text
  /-- The signals, if changes are signalled rather than probed. -/
  signals : Option Signals := none
  probes : List Probe := []
deriving Repr

namespace Directory

/-- The physical path of a canonical logical path. -/
def physicalOf (directory : Directory) (canonical : Text) : Text :=
  Physical.join directory.root (canonical.dropWhile (· == '/'))

/-- What stands at a physical path. -/
def node? (directory : Directory) (physical : Text) : Option Node := directory.disk.named? ['/'] physical

/-- The item at a path. The physical path is known even if nothing stands there. -/
def item (directory : Directory) (path : Text) : Item :=
  match Logical.normalize path with
  | none => { path, present := false }
  | some canonical =>
    let physical := directory.physicalOf canonical
    { path := canonical, physical := some physical, present := directory.disk.isFile ['/'] physical }

/-- The octets of an item's file as they are now. -/
def octets (directory : Directory) (item : Item) : Except ReadFault Octets :=
  match item.physical.bind (directory.disk.content? ['/']) with
  | some content => .ok content
  | none => .error .noFile

/-- A token for a path. -/
def issue (directory : Directory) (path : Text) : DirectoryToken × Directory :=
  match Logical.normalize path with
  | none => (.never, directory)
  | some canonical =>
    match directory.signals with
    | some signals =>
      let (signal, signals) := signals.token canonical
      (.signal signal, { directory with signals := some signals })
    | none =>
      let physical := directory.physicalOf canonical
      let probe := Probe.capture physical (directory.node? physical)
      (.probe directory.probes.length, { directory with probes := directory.probes ++ [probe] })

/-- Whether a token reports a change. -/
def changed (directory : Directory) : DirectoryToken → Bool
  | .never => false
  | .signal number =>
    match directory.signals with
    | some signals => signals.fired number
    | none => false
  | .probe index =>
    match directory.probes[index]? with
    | some probe => probe.changed (directory.node? probe.path)
    | none => false

/-- The directory after a token was asked, and what there is to note. -/
def asked (directory : Directory) : DirectoryToken → Directory × List Event
  | .probe index =>
    match directory.probes[index]? with
    | some probe =>
      let node := directory.node? probe.path
      ({ directory with probes := directory.probes.set index (probe.asked node) }, probe.notes node)
    | none => (directory, [])
  | _ => (directory, [])

instance : Project Directory DirectoryToken where
  item := item
  octets := octets
  issue := issue
  changed := changed
  asked := asked

/-- Whether a name is hidden, so that what it names is not searched. -/
def isHidden (name : Text) : Bool := Text.beginsWith ['.'] name

/-- The regular files below a place that no hidden name leads to. A regular file at
the place itself counts whatever its name is. -/
def visibleFiles (disk : Disk) (place : Place) : List Place :=
  (disk.tree place).filter fun other =>
    !((other.drop place.length).any isHidden) &&
      match disk.node? other with
      | some (.file _ _) => true
      | _ => false

/-- The existing files below a directory whose names have the extension, in the order
of their paths. -/
def enumerate (directory : Directory) (base extension : Text) : List Item :=
  match Logical.normalize base with
  | none => []
  | some canonical =>
    let start := directory.physicalOf canonical
    match directory.disk.resolve? ['/'] start with
    | none => []
    | some place =>
      let found := (visibleFiles directory.disk place).filterMap fun other =>
        let physical := (other.drop place.length).foldl Physical.join start
        if Physical.extension? physical = some extension then
          (Physical.toLogical directory.root physical).map fun logical =>
            ({ path := logical, physical := some physical, present := true } : Item)
        else none
      found.mergeSort fun left right => Text.atMost left.path right.path

end Directory

end ViewCompiler

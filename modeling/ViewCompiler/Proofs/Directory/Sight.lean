import ViewCompiler.Directory
import ViewCompiler.Proofs.Cache.Calls
import ViewCompiler.Proofs.Disk.Walking

/-!
# What a directory shows

A directory shows of a logical path the octets of the file below its root. Tokens have no part
in that: issuing and asking them leaves disk and root as they are, and asking one makes no
difference to what any reports. What is shown depends on the root only through the directory
that the root names, and a change of the disk makes no difference to what is shown of a path
unless its own logical path leads there.
-/

namespace ViewCompiler

/-- A path names a regular file exactly if the file has content. -/
theorem Disk.isFile_eq (disk : Disk) (cwd path : Text) :
    disk.isFile cwd path = (disk.content? cwd path).isSome := by
  unfold isFile content?
  cases disk.named? cwd path with
  | none => rfl
  | some node => cases node <;> rfl

/-- Asking a probe makes no difference to what it reports of the same file. -/
theorem Probe.changed_asked (probe : Probe) (node : Option Node) :
    (probe.asked node).changed node = probe.changed node := by
  unfold asked
  cases latched : probe.latched with
  | true => rfl
  | false =>
    cases differs : probe.differs node with
    | true => simp [changed, differs]
    | false =>
      simp only [Bool.false_eq_true, ↓reduceIte]
      cases old : probe.stamp with
      | none => simp only [changed, latched, differs]
      | some stamp =>
        cases new : stampOf node with
        | none => simp only [changed, latched, differs]
        | some now => simpa [changed, latched, Probe.differs, old, new] using differs

/-- A probe reports no change of what it was taken of. -/
theorem Probe.changed_capture (path : Text) (node : Option Node) :
    (capture path node).changed node = false := by
  unfold changed differs capture
  cases stampOf node with
  | none => rfl
  | some stamp => simp

/-- A probe that is asked stays at its path. -/
theorem Probe.asked_path (probe : Probe) (node : Option Node) :
    (probe.asked node).path = probe.path := by
  unfold asked
  split
  · rfl
  · split
    · rfl
    · split <;> rfl

namespace Directory

open Logical

variable {directory one other : Directory} {disk : Disk} {root path canonical : Text}
  {token : DirectoryToken}

/-- The octets of the file that a path names below the root, if it has one. -/
def seen (directory : Directory) (path : Text) : Option Octets :=
  (normalize path).bind fun canonical =>
    directory.disk.content? ['/'] (directory.physicalOf canonical)

/-- Disk and root are all that is looked at. -/
theorem seen_congr (disk : other.disk = one.disk) (root : other.root = one.root) (path : Text) :
    other.seen path = one.seen path := by
  unfold seen physicalOf
  rw [disk, root]

/-- The item of a path depends on the disk and the root only. -/
theorem item_congr (disk : other.disk = one.disk) (root : other.root = one.root) (path : Text) :
    other.item path = one.item path := by
  unfold item physicalOf
  rw [disk, root]

/-- So do the items that are enumerated. -/
theorem enumerate_congr (disk : other.disk = one.disk) (root : other.root = one.root)
    (base extension : Text) : other.enumerate base extension = one.enumerate base extension := by
  cases one
  cases other
  cases disk
  cases root
  rfl

/-- Issuing a token leaves everything but the state of the tokens. -/
theorem issue_disk (directory : Directory) (path : Text) :
    (directory.issue path).2.disk = directory.disk ∧
      (directory.issue path).2.root = directory.root := by
  unfold issue
  split
  · exact ⟨rfl, rfl⟩
  · split <;> exact ⟨rfl, rfl⟩

/-- Asking a token leaves everything but the probes. -/
theorem asked_disk (directory : Directory) (token : DirectoryToken) :
    (directory.asked token).1.disk = directory.disk ∧
      (directory.asked token).1.root = directory.root ∧
      (directory.asked token).1.signals = directory.signals := by
  unfold asked
  split
  · split <;> exact ⟨rfl, rfl, rfl⟩
  · exact ⟨rfl, rfl, rfl⟩

/-- The probes when a token was asked. -/
theorem asked_probes (directory : Directory) (token : DirectoryToken) (index : Nat) :
    (directory.asked token).1.probes[index]? =
      directory.probes[index]?.map fun probe =>
        if token = .probe index then probe.asked (directory.node? probe.path) else probe := by
  cases token with
  | never => simp [asked]
  | signal number => simp [asked]
  | probe position =>
    cases stands : directory.probes[position]? with
    | none =>
      have same : (directory.asked (.probe position)).1 = directory := by simp only [asked, stands]
      rw [same]
      by_cases own : position = index
      · simp [← own, stands]
      · simp [own]
    | some probe =>
      simp only [asked, stands, List.getElem?_set]
      by_cases own : position = index
      · obtain ⟨held, rfl⟩ := List.getElem?_eq_some_iff.mp stands
        subst own
        simp [held]
      · simp [own]

/-- Asking a token makes no difference to what any token reports. -/
theorem changed_asked (directory : Directory) (token other : DirectoryToken) :
    (directory.asked token).1.changed other = directory.changed other := by
  obtain ⟨disk, root, signals⟩ := directory.asked_disk token
  cases other with
  | never => rfl
  | signal number => rw [changed, changed, signals]
  | probe index =>
    have node (physical : Text) :
        (directory.asked token).1.node? physical = directory.node? physical := by
      rw [node?, node?, disk]
    rw [changed, changed, asked_probes]
    simp only [node]
    cases directory.probes[index]? with
    | none => rfl
    | some probe =>
      rw [Option.map_some]
      by_cases own : token = .probe index
      · simp only [own, ↓reduceIte]
        rw [Probe.asked_path, Probe.changed_asked]
      · simp only [own, ↓reduceIte]

/-- What becomes of the signals when a token is issued. -/
theorem issue_signals (directory : Directory) (path : Text) : (directory.issue path).2.signals =
    match normalize path with
    | none => directory.signals
    | some canonical => directory.signals.map fun signals => (signals.token canonical).2 := by
  unfold issue
  cases normalize path with
  | none => rfl
  | some canonical =>
    cases stands : directory.signals with
    | none => rfl
    | some signals => rfl

/-- A token that is issued leaves the probes where they are in the list. -/
theorem issue_probes (directory : Directory) (path : Text) :
    ∃ more, (directory.issue path).2.probes = directory.probes ++ more := by
  unfold issue
  split
  · exact ⟨[], (List.append_nil _).symm⟩
  · split
    · exact ⟨[], (List.append_nil _).symm⟩
    · exact ⟨_, rfl⟩

/-- A directory with this disk below this root. -/
structure Placed (disk : Disk) (root : Text) (directory : Directory) : Prop where
  disk : directory.disk = disk
  root : directory.root = root

/-- Asking a token changes neither disk nor root. -/
theorem Placed.asked (placed : Placed disk root directory) (token : DirectoryToken) :
    Placed disk root (directory.asked token).1 :=
  ⟨(directory.asked_disk token).1.trans placed.disk,
    (directory.asked_disk token).2.1.trans placed.root⟩

/-- Issuing one does not either. -/
theorem Placed.issued (placed : Placed disk root directory) (path : Text) :
    Placed disk root (directory.issue path).2 :=
  ⟨(directory.issue_disk path).1.trans placed.disk, (directory.issue_disk path).2.trans placed.root⟩

instance : Project.Steady Directory where
  changed_asked := changed_asked

instance : Project.Sighted Directory where
  seen := seen
  item_path directory path := by
    have same : Project.item directory path = directory.item path := rfl
    rw [same, item]
    cases normalize path <;> rfl
  item_present directory path := by
    have same : Project.item directory path = directory.item path := rfl
    rw [same, item, seen]
    cases normalize path with
    | none => rfl
    | some canonical => exact directory.disk.isFile_eq _ _
  octets_item {directory path content} stands := by
    obtain ⟨canonical, normal, held⟩ := Option.bind_eq_some_iff.mp stands
    have same : Project.octets directory (Project.item directory path) =
        directory.octets (directory.item path) := rfl
    rw [same, item, normal]
    simp only [octets, Option.bind_some, held]
  seen_canonical directory {path canonical} normal := by
    rw [seen, seen, normal, normalize_canonical normal]
  seen_outside directory {path} outside := by
    rw [seen, outside, Option.bind_none]
  item_asked directory token path :=
    item_congr (directory.asked_disk token).1 (directory.asked_disk token).2.1 path
  item_issued directory other path :=
    item_congr (directory.issue_disk other).1 (directory.issue_disk other).2 path
  seen_asked directory token path :=
    seen_congr (directory.asked_disk token).1 (directory.asked_disk token).2.1 path
  seen_issued directory other path :=
    seen_congr (directory.issue_disk other).1 (directory.issue_disk other).2 path

/-- A path below the root goes down by names. -/
theorem physicalOf_names {names : List Text} (named : ∀ name ∈ names, Physical.IsName name)
    (directory : Directory) : directory.physicalOf (ofSegments names) =
      Physical.join directory.root (Text.joined ['/'] names) := by
  rw [physicalOf, dropWhile_ofSegments named]

/-- What is shown depends on the root only through the directory that it names. -/
theorem seen_below (rooted : directory.disk.Rooted)
    (absolute : Physical.isAbsolute directory.root = true) {names : List Text}
    (named : ∀ name ∈ names, Physical.IsName name)
    (normal : normalize path = some (ofSegments names)) :
    directory.seen path = (directory.disk.directory? directory.root).bind fun place =>
      directory.disk.file? (place ++ names) := by
  rw [seen, normal, Option.bind_some, physicalOf_names named,
    Disk.content?_below rooted absolute named]

/-- Directories with the same disk show the same if their roots name the same directory. -/
theorem seen_of_directory (disk : other.disk = one.disk) (rooted : one.disk.Rooted)
    (absolute : Physical.isAbsolute one.root = true) (also : Physical.isAbsolute other.root = true)
    (same : one.disk.directory? other.root = one.disk.directory? one.root) (path : Text) :
    other.seen path = one.seen path := by
  cases normal : normalize path with
  | none => rw [seen, seen, normal]; rfl
  | some canonical =>
    obtain ⟨names, rfl, named⟩ := normalize_names normal
    have physical (name : Text) (member : name ∈ names) : Physical.IsName name :=
      (named name member).1.physical
    rw [seen_below rooted absolute physical normal, seen_below (disk ▸ rooted) also physical normal,
      disk, same]

/-- A change of the disk whose place is below the root makes no difference to what is shown of
a path unless its logical path leads there. -/
theorem seen_edit (rooted : directory.disk.Rooted)
    (absolute : Physical.isAbsolute directory.root = true) {change : Disk.Edit} {logical : Text}
    (proper : ∀ name ∈ change.place, Physical.IsName name)
    (below : Physical.toLogical directory.root (Disk.pathOf change.place) = some logical)
    (normal : normalize path = some canonical) (aside : ¬ Leads logical canonical) :
    ({ directory with disk := directory.disk.edit change } : Directory).seen path =
      directory.seen path := by
  obtain ⟨plain, inner, place, rfl⟩ := Physical.toLogical_place absolute proper below
  obtain ⟨names, rfl, named⟩ := normalize_names normal
  have physical (name : Text) (member : name ∈ names) : Physical.IsName name :=
    (named name member).1.physical
  have edited := rooted.edit change
  rw [seen, seen, normal, Option.bind_some, Option.bind_some, physicalOf_names physical,
    physicalOf_names physical]
  by_cases nonempty : names = []
  · subst nonempty
    exact (Disk.content?_root edited absolute).trans (Disk.content?_root rooted absolute).symm
  · have apart : ¬ change.place <+: Physical.namesIn directory.root ++ names := by
      rw [place, List.prefix_append_right_inj]
      rintro ⟨rest, rfl⟩
      exact aside ⟨inner, rest, physical, rfl, rfl⟩
    rw [Disk.content?_plain edited absolute plain nonempty physical,
      Disk.content?_plain rooted absolute plain nonempty physical]
    exact Disk.file?_edit directory.disk change apart

end Directory

end ViewCompiler

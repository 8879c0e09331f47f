import ViewCompiler.Proofs.Cache.Vouching
import ViewCompiler.Proofs.Directory.Sight
import ViewCompiler.Proofs.Disk.Telling

/-!
# Tokens of a directory that is looked at

Where changes are looked for, the token of a path is a probe of its physical path. If stamps and
digests tell the contents of every place apart, the probe recalls the content that was seen when
the token was issued, however often tokens are asked and whatever the disk becomes, and so
vouches for it.
-/

namespace ViewCompiler

namespace Directory

open Logical

variable {directory : Directory} {disks : List Disk} {disk : Disk} {root path : Text}
  {token : DirectoryToken} {content : Option Octets}

/-- A token that recalls the content of a path: a probe of its physical path that does, or no
probe at all if the path leaves the root. -/
def Recalls (disks : List Disk) (directory : Directory) (content : Option Octets) (path : Text)
    (token : DirectoryToken) : Prop :=
  match normalize path with
  | none => token = .never ∧ content = none
  | some canonical => ∃ index probe, token = .probe index ∧
      directory.probes[index]? = some probe ∧ probe.path = directory.physicalOf canonical ∧
      probe.Recalls (Disk.nodesAt disks (directory.physicalOf canonical)) content

/-- Of a path that leaves the root there is nothing to recall. -/
theorem recalls_none (outside : normalize path = none) :
    directory.Recalls disks content path token ↔ token = .never ∧ content = none := by
  rw [Recalls, outside]

/-- The content of a path below the root is recalled by a probe of its file. -/
theorem recalls_some {canonical : Text} (normal : normalize path = some canonical) :
    directory.Recalls disks content path token ↔ ∃ index probe, token = .probe index ∧
      directory.probes[index]? = some probe ∧ probe.path = directory.physicalOf canonical ∧
      probe.Recalls (Disk.nodesAt disks (directory.physicalOf canonical)) content := by
  rw [Recalls, normal]

/-- What is seen of a path is the content of what stands at its physical path. -/
theorem seen_eq_contentOf {canonical : Text} (normal : normalize path = some canonical) :
    directory.seen path = Probe.contentOf (directory.node? (directory.physicalOf canonical)) := by
  rw [seen, normal, Option.bind_some, Disk.content?, node?]
  cases directory.disk.named? ['/'] (directory.physicalOf canonical) with
  | none => rfl
  | some node => cases node <;> rfl

/-- A token that recalls what was seen of a path does so in another state in which its probe
recalls the same. -/
theorem Recalls.kept {after : Directory} (recalls : directory.Recalls disks content path token)
    (root : after.root = directory.root)
    (probes : ∀ (index : Nat) (probe : Probe), directory.probes[index]? = some probe → ∃ later,
      after.probes[index]? = some later ∧ later.path = probe.path ∧
        (probe.Recalls (Disk.nodesAt disks probe.path) content →
          later.Recalls (Disk.nodesAt disks probe.path) content)) :
    after.Recalls disks content path token := by
  cases normal : normalize path with
  | none => exact (recalls_none normal).mpr ((recalls_none normal).mp recalls)
  | some canonical =>
    obtain ⟨index, probe, same, stands, physical, own⟩ := (recalls_some normal).mp recalls
    obtain ⟨later, remains, spelled, further⟩ := probes index probe stands
    have unmoved : after.physicalOf canonical = directory.physicalOf canonical := by
      rw [physicalOf, physicalOf, root]
    rw [recalls_some normal, unmoved]
    rw [physical] at spelled further
    exact ⟨index, later, same, remains, spelled, further own⟩

/-- A probe that recalls a content still does when a token was asked. -/
theorem Recalls.asked (recalls : directory.Recalls disks content path token)
    (telling : Disk.Telling disks) (known : directory.disk ∈ disks) (other : DirectoryToken) :
    (directory.asked other).1.Recalls disks content path token := by
  apply recalls.kept (directory.asked_disk other).2.1
  intro index probe stands
  rw [asked_probes, stands, Option.map_some]
  split
  · refine ⟨_, rfl, probe.asked_path _, fun own => own.asked (telling.apart _) ?_⟩
    exact ⟨directory.disk, known, rfl⟩
  · exact ⟨probe, rfl, rfl, id⟩

/-- So it does when another token was issued, since probes keep their places in the list. -/
theorem Recalls.issued (recalls : directory.Recalls disks content path token) (other : Text) :
    (directory.issue other).2.Recalls disks content path token := by
  apply recalls.kept (directory.issue_disk other).2
  intro index probe stands
  refine ⟨probe, ?_, rfl, id⟩
  unfold issue
  split
  · exact stands
  · split
    · exact stands
    · rw [List.getElem?_append_left (List.getElem?_eq_some_iff.mp stands).1]
      exact stands

/-- Another disk makes no difference to what tokens recall. -/
theorem Recalls.onDisk (recalls : directory.Recalls disks content path token) (disk : Disk) :
    ({ directory with disk } : Directory).Recalls disks content path token :=
  recalls.kept rfl fun _ probe stands => ⟨probe, stands, rfl, id⟩

/-- Probes vouch for what was seen on the disks of a run. -/
theorem probes_vouch (telling : Disk.Telling disks) (known : disk ∈ disks) (root : Text) :
    Project.Vouches (fun directory => Placed disk root directory ∧ directory.signals = none)
      (Recalls disks) where
  stays _ := {
    sound_asked := fun {directory} other holds =>
      ⟨holds.1.asked other, (directory.asked_disk other).2.2.trans holds.2⟩
    sound_issued := by
      intro directory other holds
      refine ⟨holds.1.issued other, ?_⟩
      have issued := directory.issue_signals other
      rw [holds.2] at issued
      exact issued.trans (by split <;> rfl)
    asked := fun other holds recalls => recalls.asked telling (holds.1.disk ▸ known) other
    issued := fun other _ recalls => recalls.issued other }
  own {directory} path holds := by
    have issued : Project.issue directory path = directory.issue path := rfl
    have shown : Project.Sighted.seen directory path = directory.seen path := rfl
    rw [issued, shown]
    cases normal : normalize path with
    | none =>
      rw [recalls_none normal, issue, seen, normal]
      exact ⟨rfl, rfl⟩
    | some canonical =>
      rw [recalls_some normal, seen_eq_contentOf normal, issue, normal]
      simp only [holds.2]
      refine ⟨_, _, rfl, List.getElem?_concat_length, rfl, Probe.recalls_capture _ ?_⟩
      refine ⟨disk, known, ?_⟩
      rw [node?, holds.1.disk]
      rfl
  quiet {directory content path token} holds recalls unchanged := by
    have shown : Project.Sighted.seen directory path = directory.seen path := rfl
    rw [shown]
    cases normal : normalize path with
    | none =>
      rw [seen, normal, ((recalls_none normal).mp recalls).2]
      rfl
    | some canonical =>
      obtain ⟨index, probe, rfl, stands, physical, own⟩ := (recalls_some normal).mp recalls
      have quiet : probe.changed (directory.node? probe.path) = false := by
        have reported : directory.changed (.probe index) = false := unchanged
        rwa [changed, stands] at reported
      rw [seen_eq_contentOf normal, ← physical]
      rw [← physical] at own
      refine own.quiet (telling.apart _) ?_ quiet
      exact ⟨disk, known, by rw [node?, holds.1.disk]⟩

end Directory

end ViewCompiler

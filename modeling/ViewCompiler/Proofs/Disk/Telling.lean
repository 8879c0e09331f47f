import ViewCompiler.Probe
import ViewCompiler.Proofs.Disk.Walking

/-!
# Contents that are told apart

A probe tells whether a file changed by its stamp and its digest. On the disks of a run these
tell contents apart if no place ever had two contents with the same length and time, or with the
same digest. A probe then recalls the content of the file that it was taken of: it remembers a
digest from when it was taken and a stamp from then or from a later look at which the digest was
the same. If it reports no change, the file has this content, and looking in vain can only
exchange the stamp for another one of this content.
-/

namespace ViewCompiler

namespace Probe

variable {probe : Probe} {nodes : Option Node → Prop} {node : Option Node} {content : Option Octets}

/-- The content of what a node is, if it is a regular file. -/
def contentOf : Option Node → Option Octets
  | some (.file content _) => some content
  | _ => none

/-- There is a stamp of what has content. -/
theorem stampOf_isSome (node : Option Node) : (stampOf node).isSome = (contentOf node).isSome := by
  cases node with
  | none => rfl
  | some node => cases node <;> rfl

/-- Stamps tell the contents of nodes apart, and so do the digests of regular files. -/
structure Apart (nodes : Option Node → Prop) : Prop where
  stamps : ∀ one other, nodes one → nodes other → stampOf one = stampOf other →
    contentOf one = contentOf other
  digests : ∀ one other, nodes one → nodes other → (stampOf one).isSome → (stampOf other).isSome →
    digestOf one = digestOf other → contentOf one = contentOf other

/-- A probe reports a change, or its digest and its stamp were taken of nodes with this content. -/
def Recalls (probe : Probe) (nodes : Option Node → Prop) (content : Option Octets) : Prop :=
  probe.latched = true ∨ ∃ taken stamped, nodes taken ∧ nodes stamped ∧
    (contentOf taken = content ∧ probe.digest = digestOf taken) ∧
    (contentOf stamped = content ∧ probe.stamp = stampOf stamped)

/-- A probe recalls the content that it was made for. -/
theorem recalls_capture (path : Text) (known : nodes node) :
    (capture path node).Recalls nodes (contentOf node) :=
  .inr ⟨node, node, known, known, ⟨rfl, rfl⟩, rfl, rfl⟩

/-- A probe that reports no change looks at the content that it recalls. -/
theorem Recalls.quiet (recalls : probe.Recalls nodes content) (apart : Apart nodes)
    (known : nodes node) (unchanged : probe.changed node = false) : contentOf node = content := by
  obtain ⟨fresh, same⟩ := Bool.or_eq_false_iff.mp unchanged
  obtain ⟨taken, stamped, first, later, ⟨own, digest⟩, also, stamp⟩ :=
    recalls.resolve_left (by rw [fresh]; exact Bool.false_ne_true)
  rw [differs, stamp, digest] at same
  cases old : stampOf stamped with
  | none =>
    cases new : stampOf node with
    | none => exact (apart.stamps node stamped known later (new.trans old.symm)).trans also
    | some now => simp [old, new] at same
  | some stamp =>
    cases new : stampOf node with
    | none => simp [old, new] at same
    | some now =>
      simp only [old, new, ne_eq, decide_not, Bool.and_eq_false_imp, Bool.not_eq_eq_eq_not,
        Bool.not_true, decide_eq_false_iff_not, Bool.not_false, decide_eq_true_eq] at same
      by_cases still : stamp = now
      · exact (apart.stamps node stamped known later (by rw [new, old, still])).trans also
      · have regular : (stampOf taken).isSome := by
          rw [stampOf_isSome, own, ← also, ← stampOf_isSome, old]
          rfl
        have solid : (stampOf node).isSome := by
          rw [new]
          rfl
        exact (apart.digests node taken known first solid regular (same still)).trans own

/-- Asking a probe leaves what it recalls. -/
theorem Recalls.asked (recalls : probe.Recalls nodes content) (apart : Apart nodes)
    (known : nodes node) : (probe.asked node).Recalls nodes content := by
  unfold Probe.asked
  split
  · exact recalls
  · rename_i fresh
    split
    · exact .inl rfl
    · rename_i same
      split
      · rename_i old now stood stands
        have unchanged : probe.changed node = false :=
          Bool.or_eq_false_iff.mpr ⟨Bool.not_eq_true _ ▸ fresh, Bool.not_eq_true _ ▸ same⟩
        have content := recalls.quiet apart known unchanged
        obtain ⟨taken, stamped, first, later, digest, stamp⟩ := recalls.resolve_left fresh
        exact .inr ⟨taken, node, first, known, digest, content, stands.symm⟩
      · exact recalls

end Probe

/-- Whether two nodes that stood at one place are told apart if their contents differ. -/
def Node.tells : Node → Node → Bool
  | .file content modified, .file further later =>
    content == further ||
      !(content.length == further.length && modified == later) &&
        Digest.ofOctets content != Digest.ofOctets further
  | _, _ => true

namespace Disk

/-- The disks of a run on which the contents of every place are told apart by length and time of
modification, and by digest. -/
structure Telling (disks : List Disk) : Prop where
  stamps : ∀ one ∈ disks, ∀ other ∈ disks, ∀ place content further modified,
    one.node? place = some (.file content modified) →
      other.node? place = some (.file further modified) →
        content.length = further.length → content = further
  digests : ∀ one ∈ disks, ∀ other ∈ disks, ∀ place content further,
    one.file? place = some content → other.file? place = some further →
      Digest.ofOctets content = Digest.ofOctets further → content = further

/-- It can be computed whether everything on some disks is told apart. -/
theorem Telling.of_entries {disks : List Disk}
    (apart : ∀ one ∈ disks, ∀ other ∈ disks, ∀ first ∈ one.entries, ∀ second ∈ other.entries,
      first.1 = second.1 → first.2.tells second.2 = true) : Telling disks := by
  have entered {disk : Disk} {place : Place} {content : Octets} {modified : Nat}
      (stands : disk.node? place = some (.file content modified)) :
      (place, .file content modified) ∈ disk.entries := by
    unfold node? at stands
    split at stands
    · cases stands
    · exact Table.mem_of_find? stands
  have regular {disk : Disk} {place : Place} {content : Octets}
      (stands : disk.file? place = some content) :
      ∃ modified, disk.node? place = some (.file content modified) := by
    unfold file? at stands
    split at stands
    · rename_i held modified node
      obtain rfl := Option.some.inj stands
      exact ⟨modified, node⟩
    · cases stands
  constructor
  · intro one first other second place content further modified here there same
    have told := apart one first other second _ (entered here) _ (entered there) rfl
    simpa [Node.tells, same] using told
  · intro one first other second place content further here there same
    obtain ⟨modified, here⟩ := regular here
    obtain ⟨later, there⟩ := regular there
    have told := apart one first other second _ (entered here) _ (entered there) rfl
    simpa [Node.tells, same] using told

/-- What stood at a path on the disks of a run. -/
def nodesAt (disks : List Disk) (path : Text) (node : Option Node) : Prop :=
  ∃ disk ∈ disks, disk.named? ['/'] path = node

/-- What is told apart at every place is told apart at every path. -/
theorem Telling.apart {disks : List Disk} (telling : Telling disks) (path : Text) :
    Probe.Apart (nodesAt disks path) := by
  have regular {node : Option Node} {stamp : Stamp} (stands : Probe.stampOf node = some stamp) :
      ∃ content, node = some (.file content stamp.modified) ∧ content.length = stamp.length := by
    unfold Probe.stampOf at stands
    split at stands
    · rename_i content modified
      obtain rfl := Option.some.inj stands
      exact ⟨content, rfl, rfl⟩
    · cases stands
  have empty {node : Option Node} (missing : Probe.stampOf node = none) :
      Probe.contentOf node = none := by
    rw [← Option.isNone_iff_eq_none, ← Option.not_isSome, ← Probe.stampOf_isSome, missing]
    rfl
  constructor
  · rintro one other ⟨first, among, named⟩ ⟨second, also, spelled⟩ same
    cases stamp : Probe.stampOf one with
    | none => rw [empty stamp, empty (same.symm.trans stamp)]
    | some stamped =>
      obtain ⟨content, rfl, length⟩ := regular stamp
      obtain ⟨further, rfl, alike⟩ := regular (same.symm.trans stamp)
      obtain ⟨place, here, there⟩ := named?_same named spelled
      exact congrArg some (telling.stamps first among second also place content further _ here there
        (length.trans alike.symm))
  · rintro one other ⟨first, among, named⟩ ⟨second, also, spelled⟩ stands further same
    obtain ⟨stamp, stamped⟩ := Option.isSome_iff_exists.mp stands
    obtain ⟨later, restamped⟩ := Option.isSome_iff_exists.mp further
    obtain ⟨content, rfl, -⟩ := regular stamped
    obtain ⟨changed, rfl, -⟩ := regular restamped
    obtain ⟨place, here, there⟩ := named?_same named spelled
    refine congrArg some (telling.digests first among second also place content changed ?_ ?_ same)
    · rw [file?, here]
    · rw [file?, there]

end Disk

end ViewCompiler

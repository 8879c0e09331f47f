import ViewCompiler.Proofs.Cache.Vouching
import ViewCompiler.Proofs.Directory.Sight
import ViewCompiler.Proofs.Signals.Firing

/-!
# Tokens of a directory that is told of changes

Where changes are signalled, the token of a path is a signal that was handed out for its
canonical spelling, and stays so. It vouches for what was seen of the path as long as every
change is told: between a change and the next question, a change that was not told yet is one
that will be.
-/

namespace ViewCompiler.Directory

open Logical

variable {directory : Directory} {disk : Disk} {root path : Text} {token : DirectoryToken}
  {content : Option Octets} {coming : List Text}

/-- Changes are signalled. -/
def Signalled (directory : Directory) : Prop :=
  ∃ signals, directory.signals = some signals ∧ signals.Sound

/-- A token that hears of changes of a path: a signal that was handed out for its canonical
spelling, or no signal at all if the path leaves the root. -/
def Hears (directory : Directory) (path : Text) (token : DirectoryToken) : Prop :=
  match normalize path with
  | none => token = .never
  | some canonical => ∃ signals number, directory.signals = some signals ∧
      token = .signal number ∧ signals.Names canonical number

/-- No signal is handed out for a path that leaves the root. -/
theorem hears_none (outside : normalize path = none) :
    directory.Hears path token ↔ token = .never := by
  rw [Hears, outside]

/-- The token of a path below the root is a signal of its canonical spelling. -/
theorem hears_some {canonical : Text} (normal : normalize path = some canonical) :
    directory.Hears path token ↔ ∃ signals number, directory.signals = some signals ∧
      token = .signal number ∧ signals.Names canonical number := by
  rw [Hears, normal]

/-- Changes are still signalled after a token was issued. -/
theorem Signalled.issued (signalled : directory.Signalled) (path : Text) :
    (directory.issue path).2.Signalled := by
  obtain ⟨signals, stands, sound⟩ := signalled
  rw [Signalled, issue_signals, stands]
  cases normalize path with
  | none => exact ⟨signals, rfl, sound⟩
  | some canonical => exact ⟨_, rfl, sound.token canonical⟩

/-- A token still hears of its path when another one was issued. -/
theorem Hears.issued (hears : directory.Hears path token) (other : Text) :
    (directory.issue other).2.Hears path token := by
  cases normal : normalize path with
  | none => exact (hears_none normal).mpr ((hears_none normal).mp hears)
  | some canonical =>
    obtain ⟨signals, number, stands, same, names⟩ := (hears_some normal).mp hears
    rw [hears_some normal, issue_signals, stands]
    cases normalize other with
    | none => exact ⟨signals, number, rfl, same, names⟩
    | some spelled => exact ⟨_, number, rfl, same, names.token spelled⟩

/-- So it does when another one was asked. -/
theorem Hears.asked (hears : directory.Hears path token) (other : DirectoryToken) :
    (directory.asked other).1.Hears path token := by
  rw [Hears, (directory.asked_disk other).2.2]
  exact hears

/-- A token hears of changes of the path that it is issued for. -/
theorem Signalled.hears (signalled : directory.Signalled) (path : Text) :
    (directory.issue path).2.Hears path (directory.issue path).1 := by
  obtain ⟨signals, stands, sound⟩ := signalled
  cases normal : normalize path with
  | none =>
    rw [hears_none normal]
    simp only [issue, normal]
  | some canonical =>
    rw [hears_some normal]
    simp only [issue, normal, stands]
    exact ⟨_, _, rfl, rfl, sound.token_names canonical⟩

/-- Signals tie tokens to paths. -/
theorem ties : Project.Ties Signalled Hears where
  sound_asked {directory} other signalled := by
    rw [Signalled, show (Project.asked directory other).1.signals = directory.signals from
      (directory.asked_disk other).2.2]
    exact signalled
  sound_issued path signalled := signalled.issued path
  asked other _ hears := hears.asked other
  issued other _ hears := hears.issued other
  own path signalled := signalled.hears path

/-- A signal reports a change exactly if it has fired. -/
theorem changed_signal {signals : Signals} (stands : directory.signals = some signals)
    (number : Nat) :
    directory.changed (.signal number) = signals.fired number := by
  rw [changed, stands]

/-- Issuing tokens makes no difference to what a token reports. -/
theorem Hears.changed_issued (hears : directory.Hears path token) (other : Text) :
    (directory.issue other).2.changed token = directory.changed token := by
  cases normal : normalize path with
  | none =>
    rw [(hears_none normal).mp hears]
    rfl
  | some canonical =>
    obtain ⟨signals, number, stands, rfl, names⟩ := (hears_some normal).mp hears
    have issued := directory.issue_signals other
    rw [stands] at issued
    cases spelled : normalize other with
    | none =>
      rw [spelled] at issued
      rw [changed_signal stands, changed_signal issued]
    | some spelling =>
      rw [spelled] at issued
      rw [changed_signal stands, changed_signal issued, Signals.fired_token names]

/-- A token that hears of changes of a path of which this was seen: the same is seen now, or
the token reports a change, or it is to come that a change is told that concerns the path. -/
def Awaits (coming : List Text) (directory : Directory) (content : Option Octets) (path : Text)
    (token : DirectoryToken) : Prop :=
  directory.Hears path token ∧
    (directory.seen path = content ∨ directory.changed token = true ∨
      ∃ told ∈ coming, ∃ canonical, normalize path = some canonical ∧
        Signals.concerns told canonical = true)

/-- What a token awaits it awaits in another state in which it hears of its path, reports the same
and the same is seen. -/
theorem Awaits.kept {after : Directory} (awaits : directory.Awaits coming content path token)
    (hears : after.Hears path token) (seen : after.seen path = directory.seen path)
    (reports : after.changed token = directory.changed token) :
    after.Awaits coming content path token := by
  refine ⟨hears, ?_⟩
  rw [seen, reports]
  exact awaits.2

/-- More may be to come. -/
theorem Awaits.mono {further : List Text} (awaits : directory.Awaits coming content path token)
    (more : ∀ told ∈ coming, told ∈ further) : directory.Awaits further content path token := by
  refine ⟨awaits.1, awaits.2.imp_right (Or.imp_right ?_)⟩
  rintro ⟨told, among, concerned⟩
  exact ⟨told, more told among, concerned⟩

/-- When nothing more is to come, signals vouch for what was seen. -/
theorem signals_vouch (disk : Disk) (root : Text) :
    Project.Vouches (fun directory => Placed disk root directory ∧ directory.Signalled)
      (Awaits []) where
  stays _ := {
    sound_asked := fun other holds => ⟨holds.1.asked other, ties.sound_asked other holds.2⟩
    sound_issued := fun other holds => ⟨holds.1.issued other, holds.2.issued other⟩
    asked := fun {directory path token} other _ awaits => awaits.kept (awaits.1.asked other)
      (Project.Sighted.seen_asked directory other path) (directory.changed_asked other token)
    issued := fun {directory path _} other _ awaits => awaits.kept (awaits.1.issued other)
      (Project.Sighted.seen_issued directory other path) (awaits.1.changed_issued other) }
  own {directory} path holds :=
    ⟨holds.2.hears path, .inl (Project.Sighted.seen_issued directory path path)⟩
  quiet {directory content path token} _ awaits unchanged := by
    rcases awaits.2 with same | reports | ⟨told, later, _⟩
    · exact same
    · have contrary : directory.changed token = false := unchanged
      rw [reports] at contrary
      cases contrary
    · cases later

/-- The directory when a path was told. -/
def tell (directory : Directory) (told : Text) : Directory :=
  { directory with signals := directory.signals.map fun signals => (signals.notify told).2 }

/-- Changes are still signalled after one was told. -/
theorem Signalled.tell (signalled : directory.Signalled) (told : Text) :
    (directory.tell told).Signalled := by
  obtain ⟨signals, stands, sound⟩ := signalled
  refine ⟨(signals.notify told).2, ?_, sound.notify told⟩
  rw [Directory.tell, stands]
  rfl

/-- A token still hears of its path after a change was told. -/
theorem Hears.tell (hears : directory.Hears path token) (told : Text) :
    (directory.tell told).Hears path token := by
  cases normal : normalize path with
  | none => exact (hears_none normal).mpr ((hears_none normal).mp hears)
  | some canonical =>
    obtain ⟨signals, number, stands, same, names⟩ := (hears_some normal).mp hears
    refine (hears_some normal).mpr ⟨(signals.notify told).2, number, ?_, same, names.notify told⟩
    rw [Directory.tell, stands]
    rfl

/-- A token that hears of changes of a path reports a change when a path is told exactly if it
did before or if what is told concerns the canonical spelling of its path. -/
theorem Hears.changed_tell (hears : directory.Hears path token) (told : Text) :
    (directory.tell told).changed token = true ↔ directory.changed token = true ∨
      ∃ canonical, normalize path = some canonical ∧ Signals.concerns told canonical = true := by
  cases normal : normalize path with
  | none =>
    rw [(hears_none normal).mp hears]
    simp [changed]
  | some canonical =>
    obtain ⟨signals, number, stands, rfl, names⟩ := (hears_some normal).mp hears
    have next : (directory.tell told).signals = some (signals.notify told).2 := by
      rw [Directory.tell, stands]
      rfl
    rw [changed_signal stands, changed_signal next, Signals.fired_notify names, Bool.or_eq_true]
    simp

/-- When many paths are told, a token reports a change exactly if one of them concerns its path. -/
theorem Hears.changed_tellAll (hears : directory.Hears path token) (told : List Text) :
    (told.foldl Directory.tell directory).changed token = true ↔ directory.changed token = true ∨
      ∃ other ∈ told, ∃ canonical, normalize path = some canonical ∧
        Signals.concerns other canonical = true := by
  induction told generalizing directory with
  | nil => simp
  | cons first told inductionHypothesis =>
    rw [List.foldl_cons, inductionHypothesis (hears.tell first), hears.changed_tell, or_assoc,
      List.exists_mem_cons_iff]

/-- Once a path is told, it is no longer to come. -/
theorem Awaits.tell {told : Text} (awaits : directory.Awaits (told :: coming) content path token) :
    (directory.tell told).Awaits coming content path token := by
  refine ⟨awaits.1.tell told, ?_⟩
  rw [awaits.1.changed_tell told]
  rcases awaits.2 with same | reports | ⟨other, later, concerned⟩
  · exact .inl same
  · exact .inr (.inl (.inl reports))
  · rcases List.mem_cons.mp later with rfl | later
    · exact .inr (.inl (.inr concerned))
    · exact .inr (.inr ⟨other, later, concerned⟩)

/-- Signals do not look at the disk. -/
theorem Hears.changed_disk (hears : directory.Hears path token) (disk : Disk) :
    ({ directory with disk } : Directory).changed token = directory.changed token := by
  cases normal : normalize path with
  | none =>
    rw [(hears_none normal).mp hears]
    rfl
  | some canonical =>
    obtain ⟨_, _, _, rfl, _⟩ := (hears_some normal).mp hears
    rfl

/-- A change of the disk that will be told leaves tokens that await what is to come. -/
theorem Awaits.edit (awaits : directory.Awaits coming content path token)
    (rooted : directory.disk.Rooted) (absolute : Physical.isAbsolute directory.root = true)
    {change : Disk.Edit} {logical told : Text}
    (proper : ∀ name ∈ change.place, Physical.IsName name)
    (below : Physical.toLogical directory.root (Disk.pathOf change.place) = some logical)
    (comes : told ∈ coming) (leads : Leads told logical) :
    ({ directory with disk := directory.disk.edit change } : Directory).Awaits coming content path
      token := by
  refine ⟨awaits.1, ?_⟩
  rcases awaits.2 with same | reports | later
  · cases normal : normalize path with
    | none =>
      left
      rw [← same, seen, seen, normal]
      rfl
    | some canonical =>
      by_cases aside : Leads logical canonical
      · exact .inr (.inr ⟨told, comes, canonical, rfl, (leads.trans aside).concerns⟩)
      · left
        rw [← same]
        exact seen_edit rooted absolute proper below normal aside
  · rw [awaits.1.changed_disk]
    exact .inr (.inl reports)
  · exact .inr (.inr later)

end ViewCompiler.Directory

import ViewCompiler.Proofs.Cache.Links
import ViewCompiler.Proofs.Directory.Contained

/-!
# Tokens that are about a file

A token of a directory is about the file of one physical path, be it a probe of that path or a
signal for it, and stays so whatever becomes of the directory. As long as it reports no change,
there is one canonical path that it can have been issued for: that of the file.
-/

namespace ViewCompiler.Directory

open Logical

variable {directory : Directory} {root path physical : Text} {token : DirectoryToken}

/-- A token is about the same file after another one was asked. -/
theorem Observes.asked (observes : directory.Observes physical token) (other : DirectoryToken) :
    (directory.asked other).1.Observes physical token := by
  obtain ⟨-, root, signals⟩ := directory.asked_disk other
  cases token with
  | never => exact observes.elim
  | probe index =>
    obtain ⟨probe, stands, about⟩ := observes
    refine ⟨_, by rw [asked_probes, stands, Option.map_some], ?_⟩
    split
    · exact (probe.asked_path _).trans about
    · exact about
  | signal number =>
    obtain ⟨known, logical, stands, below, names⟩ := observes
    exact ⟨known, logical, signals.trans stands, root ▸ below, names⟩

/-- So it is after another one was issued. -/
theorem Observes.issued (observes : directory.Observes physical token) (other : Text) :
    (directory.issue other).2.Observes physical token := by
  obtain ⟨-, root⟩ := directory.issue_disk other
  cases token with
  | never => exact observes.elim
  | probe index =>
    obtain ⟨probe, stands, about⟩ := observes
    obtain ⟨more, longer⟩ := directory.issue_probes other
    refine ⟨probe, ?_, about⟩
    rw [longer, List.getElem?_append_left (List.getElem?_eq_some_iff.mp stands).1, stands]
  | signal number =>
    obtain ⟨signals, logical, stands, below, names⟩ := observes
    rw [Observes, issue_signals, root, stands]
    cases normalize other with
    | none => exact ⟨signals, logical, rfl, below, names⟩
    | some canonical => exact ⟨_, logical, rfl, below, names.token canonical⟩

/-- So it is after a change was told: a signal keeps the path that it was handed out for. -/
theorem Observes.tell (observes : directory.Observes physical token) (told : Text) :
    (directory.tell told).Observes physical token := by
  cases token with
  | never => exact observes.elim
  | probe index => exact observes
  | signal number =>
    obtain ⟨signals, logical, stands, below, names⟩ := observes
    refine ⟨(signals.notify told).2, logical, ?_, below, names.notify told⟩
    rw [Directory.tell, stands]
    rfl

/-- A token is about the file of a logical path, or about nothing if the path leaves the root. -/
def Minds (directory : Directory) (path : Text) (token : DirectoryToken) : Prop :=
  match normalize path with
  | none => token = .never
  | some canonical => directory.Observes (directory.physicalOf canonical) token

/-- The token of a path that leaves the root is the one that never reports a change. -/
theorem minds_none (outside : normalize path = none) :
    directory.Minds path token ↔ token = .never := by
  rw [Minds, outside]

/-- The token of a path below the root is about the file that its canonical spelling leads to. -/
theorem minds_some {canonical : Text} (normal : normalize path = some canonical) :
    directory.Minds path token ↔ directory.Observes (directory.physicalOf canonical) token := by
  rw [Minds, normal]

/-- What keeps tokens about their files keeps them about their paths. -/
theorem Minds.kept {after : Directory} (minds : directory.Minds path token)
    (root : after.root = directory.root)
    (keeps : ∀ physical, directory.Observes physical token → after.Observes physical token) :
    after.Minds path token := by
  cases normal : normalize path with
  | none => exact (minds_none normal).mpr ((minds_none normal).mp minds)
  | some canonical =>
    rw [minds_some normal, physicalOf, root]
    exact keeps _ ((minds_some normal).mp minds)

/-- In whatever a project comes to, its tokens are about the files of the paths that they were
issued for. -/
theorem ties_opened (absolute : Physical.isAbsolute root = true) :
    Project.Ties (Opened root) Minds where
  sound_asked token opened := opened.ask token
  sound_issued path opened := opened.issue path
  asked {directory _ _} other _ minds :=
    minds.kept (directory.asked_disk other).2.1 fun _ observes => observes.asked other
  issued {directory _ _} other _ minds :=
    minds.kept (directory.issue_disk other).2 fun _ observes => observes.issued other
  own {directory} path opened := by
    cases normal : normalize path with
    | none =>
      rw [minds_none normal]
      exact congrArg Prod.fst (outside_of_normalize normal).token
    | some canonical =>
      obtain ⟨names, rfl, proper⟩ := normalize_names normal
      obtain ⟨same, sound⟩ := opened.sound
      have inside := inside_of_normalize (same ▸ absolute) sound
        (fun name member => (proper name member).1.physical) normal
      rw [minds_some normal]
      have placed : (Project.issue directory path).2.physicalOf (ofSegments names) =
          directory.physicalOf (ofSegments names) := by
        rw [physicalOf, physicalOf]
        exact congrArg (Physical.join · _) (directory.issue_disk path).2
      rw [placed]
      exact inside.observed

/-- A token that is about a file and reports no change is of the canonical path of the file. -/
theorem Minds.observed (minds : directory.Minds path token)
    (absolute : Physical.isAbsolute directory.root = true)
    (observes : directory.Observes physical token) (unchanged : directory.changed token = false) :
    ∃ canonical, normalize path = some canonical ∧
      Physical.toLogical directory.root physical = some canonical := by
  cases normal : normalize path with
  | none =>
    rw [(minds_none normal).mp minds] at observes
    exact observes.elim
  | some canonical =>
    refine ⟨canonical, rfl, ?_⟩
    have also := (minds_some normal).mp minds
    obtain ⟨names, rfl, proper⟩ := normalize_names normal
    have named : ∀ name ∈ names, Physical.IsName name :=
      fun name member => (proper name member).1.physical
    have back : Physical.toLogical directory.root (directory.physicalOf (ofSegments names)) =
        some (ofSegments names) := by
      rw [physicalOf_names named, Physical.toLogical_join absolute named]
    cases token with
    | never => exact observes.elim
    | probe index =>
      obtain ⟨probe, stands, rfl⟩ := observes
      obtain ⟨same, also, about⟩ := also
      obtain rfl := Option.some.inj (stands.symm.trans also)
      rw [about, back]
    | signal number =>
      obtain ⟨signals, logical, stands, below, names⟩ := observes
      obtain ⟨same, other, also, spelled, own⟩ := also
      obtain rfl := Option.some.inj (stands.symm.trans also)
      rw [changed_signal stands] at unchanged
      obtain ⟨known, outstanding⟩ := Signals.fired_eq_false_iff.mp unchanged
      obtain rfl := names.own known outstanding
      obtain rfl := own.own known outstanding
      rw [below, ← back, spelled]

end ViewCompiler.Directory

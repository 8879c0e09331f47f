import ViewCompiler.CheckRun
import ViewCompiler.Proofs.Cache.Links
import ViewCompiler.Proofs.Checker.Answers

/-!
# Checking one template after the other

A round checks its templates in order and takes down what there is to note after each. What every
check and every taking down keeps is true of the checker after the round, and every report is that
of a check by a checker of which it is true. One such thing is that the tokens of the entries are of
the paths that are recorded for their keys.
-/

namespace ViewCompiler.Checker

variable {motive : Checker → Prop} {checker : Checker}

/-- What stays true of a checker whatever it checks. -/
structure Lasts (motive : Checker → Prop) : Prop where
  checks {checker : Checker} (path : Text) (kind : ImportsKind) (holds : motive checker) :
    motive (checker.check path kind).2
  drains {checker : Checker} (holds : motive checker) : motive checker.drain.2

/-- The report is that of a check by a checker of which something is true. -/
def ReportedBy (motive : Checker → Prop) (job : Text × ImportsKind) (report : TemplateReport) :
    Prop :=
  ∃ standing, motive standing ∧ report = (standing.check job.1 job.2).1

/-- What lasts of a checker lasts over a round of checks. -/
theorem checkEach_lasts (lasts : Lasts motive) (holds : motive checker) (verbose : Bool)
    (terminal : Terminal) (jobs : List (Text × ImportsKind)) :
    let done := checkEach verbose checker terminal jobs
    motive done.2.1 ∧ List.Forall₂ (ReportedBy motive) jobs done.1 := by
  induction jobs generalizing checker terminal with
  | nil => exact ⟨holds, .nil⟩
  | cons job jobs inductionHypothesis =>
    obtain ⟨path, kind⟩ := job
    have next : motive (checker.check path kind).2.drain.2 :=
      lasts.drains (lasts.checks path kind holds)
    obtain ⟨after, reports⟩ :=
      inductionHypothesis next (terminal.advance (counterOf kind)).2
    exact ⟨after, .cons ⟨checker, holds, rfl⟩ reports⟩

/-- What lasts is true after a round of checks, and was true at each of them. -/
theorem checkAll_lasts (lasts : Lasts motive) (holds : motive checker) (verbose progress : Bool)
    (jobs : List (Text × ImportsKind)) :
    let done := checker.checkAll verbose progress jobs
    motive done.2.1 ∧ List.Forall₂ (ReportedBy motive) jobs done.1 :=
  checkEach_lasts lasts holds verbose _ jobs

/-- Checks leave a cache linked. -/
theorem linked_lasts {sound : Directory → Prop} {minds : Directory → Text → DirectoryToken → Prop}
    {first : Cache Directory DirectoryToken} (ties : Project.Ties sound minds) (options : Options) :
    Lasts fun checker =>
      checker.options = options ∧ Cache.Linked sound minds first checker.cache where
  checks {checker} path kind holds := by
    obtain ⟨same, linked⟩ := holds
    rcases checker.check_cases path kind with ⟨left, -⟩ | ⟨-, missing⟩
    · have goes := Cache.getOrAdd_goes checker.options kind {} checker.cache path (linked.alone _)
      rw [left]
      exact ⟨same, goes.linked ties Project.Keeps.refl linked⟩
    · rw [missing]
      exact ⟨same, linked⟩
  drains holds := ⟨holds.1, holds.2.sound, holds.2.alone, holds.2.mirrored, holds.2.entries⟩

end ViewCompiler.Checker

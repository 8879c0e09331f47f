import ViewCompiler.Proofs.Checker.Anew
import ViewCompiler.Proofs.Compilation.Causes
import ViewCompiler.Proofs.Directory.Latching

/-!
# What a report counts

A report fails if and only if it counts an error. A missing template counts as one. A template that
is there and is reported as failed may not have been compiled for this report; but it was compiled
at one of the checks of its key, on the disk as it was then. So it is enough that no compilation
fails without something to report, and a report of failures is traced to a source that could not be
read, to errors or to diagnostics of that moment.
-/

namespace ViewCompiler

open Project TemplateUnit

namespace Directory

/-- An inquiry into a directory depends on its disk and its root alone. -/
theorem Placed.run_eq {α : Type} {disk : Disk} {root : Text} {directory : Directory}
    (placed : Placed disk root directory) (inquiry : Inquiry α) :
    inquiry.run directory = inquiry.run ({ disk, root } : Directory) := by
  induction inquiry with
  | answer value => rfl
  | item path follow inductionHypothesis =>
    have same : Project.item directory path = Project.item ({ disk, root } : Directory) path :=
      item_congr placed.disk placed.root path
    simp only [Inquiry.run, same, inductionHypothesis]
  | text asked follow inductionHypothesis =>
    have octets : Project.octets directory asked =
        Project.octets ({ disk, root } : Directory) asked := octets_congr placed.disk asked
    have same : Project.text directory asked =
        Project.text ({ disk, root } : Directory) asked := by
      rw [Project.text, Project.text, octets]
    simp only [Inquiry.run, same, inductionHypothesis]

/-- Asking and issuing tokens leaves disk and root. -/
theorem placed_stays (disk : Disk) (root : Text) :
    Stays (Placed disk root) fun _ _ _ => True where
  sound_asked token placed := placed.asked token
  sound_issued path placed := placed.issued path
  asked _ _ _ := trivial
  issued _ _ _ := trivial

end Directory

/-- A check of a key with a kind of imports on a disk. -/
structure Look where
  disk : Disk
  key : Text
  kind : ImportsKind

namespace Look

/-- What is looked at, below a root. -/
def directory (look : Look) (root : Text) : Directory := { disk := look.disk, root }

/-- The template and the candidates for its imports. -/
def unit (look : Look) (options : Options) (root : Text) : TemplateUnit :=
  (resolve options look.kind look.key).run (look.directory root)

/-- What compiling the template comes to. -/
def outcome (look : Look) (options : Options) (root : Text) : Outcome :=
  .ofUnitOn options (look.unit options root) (look.directory root)

end Look

namespace Cache

open Directory

variable {looks : List Look} {root : Text} {options : Options} {kind : ImportsKind} {key : Text}
  {before after : Cache Directory DirectoryToken} {reply : Reply DirectoryToken}

/-- Every entry is what compiling its key came to at a look at it. No key is being built. -/
structure DrawnFrom (looks : List Look) (root : Text) (options : Options)
    (cache : Cache Directory DirectoryToken) : Prop where
  below : cache.project.root = root
  alone : ∀ key handle, cache.slot? key ≠ some (.pending handle)
  entries : ∀ key entry, cache.slot? key = some (.cached entry) →
    ∃ look ∈ looks, look.key = key ∧ entry.outcome = look.outcome options root

/-- A call draws its entry from the disk as it is, or has one that was drawn before. -/
theorem Goes.drawn (goes : Goes options kind {} before key reply after)
    (drawn : DrawnFrom looks root options before)
    (among : ⟨before.project.disk, key, kind⟩ ∈ looks) :
    (∃ entry compiled, reply = .entry entry compiled ∧
      ∃ look ∈ looks, look.key = key ∧ entry.outcome = look.outcome options root) ∧
      DrawnFrom looks root options after ∧ after.project.disk = before.project.disk := by
  have start : Placed before.project.disk root before.project := ⟨rfl, drawn.below⟩
  have stays := placed_stays before.project.disk root
  cases goes with
  | @hits entry events asked stands current asks =>
    have placed := (asks.keeps stays start).1
    exact ⟨⟨entry, false, rfl, drawn.entries key entry stands⟩,
      ⟨placed.root, drawn.alone, drawn.entries⟩, placed.disk⟩
  | @builds entry compiled events asked issued _ outdated asks issues project shape dependents
      ends =>
    have same : after.project = issued := by
      rw [project]
      split <;> rfl
    have halfway := (asks.keeps stays start).1
    have placed := (issues.keeps stays halfway).1
    let look : Look := ⟨before.project.disk, key, kind⟩
    have resolved : (resolve options kind key).run asked = look.unit options root :=
      halfway.run_eq _
    have own : entry.outcome = look.outcome options root := by
      rw [shape, same, resolved, Look.outcome, Outcome.ofUnitOn, Outcome.ofUnitOn, placed.run_eq]
      rfl
    refine ⟨⟨entry, compiled, rfl, look, among, rfl, own⟩, ⟨?_, ?_, ?_⟩, ?_⟩
    · rw [same, placed.root]
    · intro other handle stands
      rcases ends.stands stands with ⟨-, built⟩ | ⟨-, before⟩
      · cases built
      · exact drawn.alone other handle before
    · intro other known stands
      rcases ends.stands stands with ⟨rfl, built⟩ | ⟨-, before⟩
      · cases built
        exact ⟨look, among, rfl, own⟩
      · exact drawn.entries other known before
    · rw [same, placed.disk]
  | breaksAtOnce _ breaks => cases breaks
  | breaksLate _ breaks => cases breaks

end Cache

/-- A template that failed when it was looked at had a cause to. -/
theorem Look.cause {look : Look} {options : Options} {root : Text} {failures : List Failure}
    (failed : look.outcome options root = .compiled (.failure failures)) :
    Cause options (look.unit options root) (look.directory root) failures := by
  unfold outcome Outcome.ofUnitOn at failed
  split at failed
  · exact CompilationResult.cause_of_failure (Outcome.compiled.inj failed)
  · cases failed

/-- Failures that say what is wrong are counted. -/
theorem Failure.Substantial.total_pos {failures : List Failure}
    (substantial : Substantial failures) : 1 ≤ Failure.total failures := by
  obtain ⟨first, rest, rfl⟩ := List.exists_cons_of_ne_nil substantial.nonempty
  have spoken := List.length_pos_iff.mpr (substantial.messages first List.mem_cons_self)
  have shape : Failure.total (first :: rest) = first.messages.length + Failure.total rest := rfl
  omega

/-- A report fails exactly if it counts an error, if its failures say what is wrong. -/
theorem TemplateReport.isFailure_iff {report : TemplateReport}
    (substantial : ∀ failures, report.status = .failed failures → Failure.Substantial failures) :
    report.isFailure = true ↔ 1 ≤ report.errorCount := by
  unfold isFailure errorCount
  cases status : report.status with
  | compiled typeName precompiled => simp
  | failed failures => exact iff_of_true rfl (substantial failures status).total_pos
  | notFound => exact iff_of_true rfl (Nat.le_refl 1)

namespace Checker

open Directory

namespace Step

/-- The checks of a run, each with the disk that it is made on. -/
def looks (disk : Disk) : List Step → List Look
  | [] => []
  | .check path kind :: steps => ⟨disk, Logical.stripAppRoot path, kind⟩ :: looks disk steps
  | step :: steps => looks (step.onDisk disk) steps

/-- The checks of a run are those of its first part and those of the rest, made on the disk that the
first part leaves. -/
theorem looks_append (disk : Disk) (front rest : List Step) :
    looks disk (front ++ rest) = looks disk front ++ looks (front.foldl onDisk disk) rest := by
  induction front generalizing disk with
  | nil => rfl
  | cons step front inductionHypothesis =>
    cases step with
    | edit change => exact inductionHypothesis _
    | tell told => exact inductionHypothesis _
    | check path kind => exact congrArg (List.cons _) (inductionHypothesis _)

end Step

variable {checker : Checker} {looks : List Look} {root path : Text} {kind : ImportsKind}
  {options : Options}

/-- A template is reported as failed, with these failures, exactly if they are its outcome. -/
theorem statusOn_failed_iff {outcome : Outcome} {failures : List Failure} :
    statusOn kind outcome = .failed failures ↔ outcome = .compiled (.failure failures) := by
  cases outcome with
  | notFound => simp [statusOn]
  | compiled result => cases result <;> simp [statusOn]

/-- The entries of a checker are drawn from what there was to see at its checks. -/
def DrawnFrom (looks : List Look) (root : Text) (options : Options) (checker : Checker) : Prop :=
  checker.options = options ∧ checker.cache.DrawnFrom looks root options

/-- What is reported is missing, or what was seen at a check of its key. -/
theorem DrawnFrom.check (drawn : checker.DrawnFrom looks root options)
    (among : ⟨checker.disk, Logical.stripAppRoot path, kind⟩ ∈ looks) :
    ((checker.check path kind).1.status = .notFound ∨
        ∃ look ∈ looks, look.key = Logical.stripAppRoot path ∧
          (checker.check path kind).1.status = statusOn kind (look.outcome options root)) ∧
      (checker.check path kind).2.DrawnFrom looks root options ∧
      (checker.check path kind).2.disk = checker.disk := by
  obtain ⟨rfl, entries⟩ := drawn
  rcases checker.check_cases path kind with ⟨left, report⟩ | ⟨-, missing⟩
  · have goes := Cache.getOrAdd_goes checker.options kind {} checker.cache path (entries.alone _)
    obtain ⟨⟨entry, compiled, reply, look, member, key, outcome⟩, after, disk⟩ :=
      goes.drawn entries among
    rw [left]
    refine ⟨.inr ⟨look, member, key, ?_⟩, ⟨rfl, after⟩, disk⟩
    rw [report entry compiled reply, outcome]
  · rw [missing]
    exact ⟨.inl rfl, ⟨rfl, entries⟩, rfl⟩

/-- Whatever happens to a checker, its entries are drawn from what it saw at its checks. -/
theorem DrawnFrom.take {step : Step} (drawn : checker.DrawnFrom looks root options)
    (among : ∀ look ∈ Step.looks checker.disk [step], look ∈ looks) :
    (checker.take step).DrawnFrom looks root options ∧
      (checker.take step).disk = step.onDisk checker.disk := by
  obtain ⟨same, entries⟩ := drawn
  cases step with
  | edit change => exact ⟨⟨same, entries.below, entries.alone, entries.entries⟩, rfl⟩
  | tell told =>
    obtain ⟨journal, one⟩ := checker.notify_told told
    rw [Checker.take, one]
    exact ⟨⟨same, entries.below, entries.alone, entries.entries⟩, rfl⟩
  | check path kind =>
    have known : ⟨checker.disk, Logical.stripAppRoot path, kind⟩ ∈ looks :=
      among _ List.mem_cons_self
    exact (DrawnFrom.check ⟨same, entries⟩ known).2

/-- A run draws its entries from its own checks, and leaves the disk that its steps leave. -/
theorem DrawnFrom.takeAll {steps : List Step} (drawn : checker.DrawnFrom looks root options)
    (among : ∀ look ∈ Step.looks checker.disk steps, look ∈ looks) :
    (steps.foldl Checker.take checker).DrawnFrom looks root options ∧
      (steps.foldl Checker.take checker).disk = steps.foldl Step.onDisk checker.disk := by
  induction steps generalizing checker with
  | nil => exact ⟨drawn, rfl⟩
  | cons step steps inductionHypothesis =>
    rw [← List.singleton_append, Step.looks_append] at among
    obtain ⟨own, further⟩ := List.forall_mem_append.mp among
    obtain ⟨next, disk⟩ := drawn.take own
    rw [List.foldl_cons, List.foldl_cons, ← disk]
    refine inductionHypothesis next ?_
    rwa [disk]

/-- Whatever a checker has seen, a report on a template fails if and only if it counts an error. If
it lists failures, they say what is wrong, and they have a cause: at one of the checks of the key of
the template, a source could not be read, or there were errors or diagnostics. -/
theorem check_substantial (disk : Disk) (environment : Environment) (config : Config)
    (signals : Option Signals) (steps : List Step) (path : Text) (kind : ImportsKind) :
    let first := ofConfig disk environment config signals
    let root := first.cache.project.root
    let report := ((steps.foldl take first).check path kind).1
    (report.isFailure = true ↔ 1 ≤ report.errorCount) ∧
      ∀ failures, report.status = .failed failures → Failure.Substantial failures ∧
        ∃ look ∈ Step.looks disk (steps ++ [.check path kind]),
          look.key = Logical.stripAppRoot path ∧
          Cause first.options (look.unit first.options root) (look.directory root) failures := by
  intro first root report
  let looks := Step.looks disk (steps ++ [.check path kind])
  have all : looks = Step.looks disk steps ++
      [⟨steps.foldl Step.onDisk disk, Logical.stripAppRoot path, kind⟩] :=
    Step.looks_append disk steps [.check path kind]
  have begun : first.DrawnFrom looks root first.options := ⟨rfl, rfl, nofun, nofun⟩
  have earlier : ∀ look ∈ Step.looks first.disk steps, look ∈ looks := by
    intro look member
    rw [all]
    exact List.mem_append_left _ member
  obtain ⟨drawn, moved⟩ := begun.takeAll earlier
  have last : ⟨(steps.foldl take first).disk, Logical.stripAppRoot path, kind⟩ ∈ looks := by
    rw [all, moved]
    exact List.mem_append_right _ List.mem_cons_self
  obtain ⟨seen, -⟩ := drawn.check last
  have caused (failures : List Failure) (failed : report.status = .failed failures) :
      ∃ look ∈ looks, look.key = Logical.stripAppRoot path ∧
        Cause first.options (look.unit first.options root) (look.directory root) failures := by
    rcases seen with missing | ⟨look, member, key, status⟩
    · cases missing.symm.trans failed
    · exact ⟨look, member, key, Look.cause (statusOn_failed_iff.mp (status.symm.trans failed))⟩
  have substantial (failures : List Failure) (failed : report.status = .failed failures) :
      Failure.Substantial failures := by
    obtain ⟨look, -, -, cause⟩ := caused failures failed
    exact cause.substantial
  exact ⟨TemplateReport.isFailure_iff substantial,
    fun failures failed => ⟨substantial failures failed, caused failures failed⟩⟩

end Checker

end ViewCompiler

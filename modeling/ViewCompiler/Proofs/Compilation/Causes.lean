import ViewCompiler.Proofs.Compilation.Grouping
import ViewCompiler.Proofs.Compilation.Watched
import ViewCompiler.Proofs.Manifest.Hearing

/-!
# What makes a compilation fail

A template fails for one of three reasons: one of its sources cannot be read, the template engine
found errors in what was read, or the page class that came of it was refused. Each of them leaves
something to report. The reader names the source and what is wrong with it, the engine is short of a
class only if it has errors, and no class is refused without a diagnostic. Grouping what was found by
file makes no empty groups, so that every failure has a message, and all messages are about its file.
-/

namespace ViewCompiler

open Inquiry

variable {P Token : Type} [Project P Token] {options : Options} {unit : TemplateUnit} {project : P}
  {failures : List Failure}

namespace Failure

/-- Failures that say what is wrong: there is one, and each has messages, all about its file. -/
structure Substantial (failures : List Failure) : Prop where
  nonempty : failures ≠ []
  messages : ∀ failure ∈ failures, failure.messages ≠ []
  named : ∀ failure ∈ failures, ∀ message ∈ failure.messages, message.file = failure.file

/-- What shows faults says something if there are any. -/
theorem ShowsByFile.substantial {α : Type} {fileOf : α → Text} {report : α → Text → Message}
    {faults : List α} (shows : ShowsByFile fileOf report faults failures) (some : faults ≠ []) :
    Substantial failures := by
  refine ⟨?_, ?_, shows.named⟩
  · rintro rfl
    obtain ⟨fault, member⟩ := List.exists_mem_of_ne_nil faults some
    have listed : fileOf fault ∈ ([] : List Failure).map (·.file) := by
      rw [shows.files, List.mem_eraseDups]
      exact List.mem_map_of_mem member
    cases listed
  · intro failure member
    have listed : failure.file ∈ faults.map fileOf := by
      rw [← List.mem_eraseDups, ← shows.files]
      exact List.mem_map_of_mem member
    obtain ⟨fault, among, own⟩ := List.mem_map.mp listed
    rw [shows.reported failure member, ne_eq, List.map_eq_nil_iff]
    exact List.ne_nil_of_mem (List.mem_filter.mpr ⟨among, decide_eq_true own⟩)

end Failure

namespace TemplateUnit

/-- The items of a unit that are read. -/
def sources (unit : TemplateUnit) : List Item := unit.item :: unit.imports.filter (·.present)

/-- Reading an item fails as its text does. -/
theorem read_error {item : Item} {unreadable : Unreadable}
    (given : (read item).run project = .error unreadable) :
    ∃ fault, Project.text project item = .error fault ∧ unreadable = ⟨item.path, fault⟩ := by
  rw [read, run_andThen] at given
  simp only [textOf, run] at given
  cases text : Project.text project item with
  | ok content =>
    rw [text] at given
    cases given
  | error fault =>
    rw [text] at given
    exact ⟨fault, rfl, (Except.error.inj given).symm⟩

/-- When items cannot be read, it is because of the fault of one of them. -/
theorem readAll_error {items : List Item} {unreadable : Unreadable}
    (given : (readAll items).run project = .error unreadable) :
    ∃ item ∈ items, ∃ fault, Project.text project item = .error fault ∧
      unreadable = ⟨item.path, fault⟩ := by
  induction items with
  | nil => cases given
  | cons first items inductionHypothesis =>
    rw [readAll, run_andThen] at given
    cases own : (read first).run project with
    | error fault =>
      rw [own] at given
      obtain rfl := Except.error.inj given
      exact ⟨first, List.mem_cons_self, read_error own⟩
    | ok document =>
      rw [own, run_andThen] at given
      cases others : (readAll items).run project with
      | error fault =>
        rw [others] at given
        obtain rfl := Except.error.inj given
        obtain ⟨item, among, unread⟩ := inductionHypothesis others
        exact ⟨item, List.mem_cons_of_mem _ among, unread⟩
      | ok documents =>
        rw [others] at given
        cases given

/-- A unit cannot be read if one of its sources cannot. -/
theorem document_error {unreadable : Unreadable}
    (given : (unit.document options).run project = .error unreadable) :
    ∃ item ∈ unit.sources, ∃ fault, Project.text project item = .error fault ∧
      unreadable = ⟨item.path, fault⟩ := by
  rw [document, run_andThen] at given
  cases own : (read unit.item).run project with
  | error fault =>
    rw [own] at given
    obtain rfl := Except.error.inj given
    exact ⟨unit.item, List.mem_cons_self, read_error own⟩
  | ok source =>
    rw [own, run_andThen] at given
    cases others : (readAll (unit.imports.filter (·.present))).run project with
    | error fault =>
      rw [others] at given
      obtain rfl := Except.error.inj given
      obtain ⟨item, among, unread⟩ := readAll_error others
      exact ⟨item, List.mem_cons_of_mem _ among, unread⟩
    | ok imports =>
      rw [others] at given
      cases given

end TemplateUnit

/-- Why a unit fails in a state of a project, and with which failures. -/
inductive Cause (options : Options) (unit : TemplateUnit) (project : P) : List Failure → Prop
  /-- A source cannot be read. -/
  | unreadable {item : Item} {fault : ReadFault} (source : item ∈ unit.sources)
      (unread : Project.text project item = .error fault) :
      Cause options unit project [Failure.ofUnreadable ⟨item.path, fault⟩]
  /-- There are errors in what was read. -/
  | errors {document : CodeDocument} {failures : List Failure}
      (given : (unit.document options).run project = .ok document)
      (wrong : (PageClass.generate document).errors ≠ [])
      (shown : Failure.ShowsByFile (Failure.fileOfError document.path) Message.ofError
        (PageClass.generate document).errors failures) :
      Cause options unit project failures
  /-- The page class is refused. -/
  | diagnostics {document : CodeDocument} {diagnostics : List Diagnostic} {failures : List Failure}
      (given : (unit.document options).run project = .ok document)
      (sound : (PageClass.generate document).errors = [])
      (refused : Manifest.check options.references (PageClass.generate document).code =
        .error diagnostics)
      (wrong : diagnostics ≠ [])
      (shown : Failure.ShowsByFile (Failure.fileOfDiagnostic document.path) Message.ofDiagnostic
        diagnostics failures) :
      Cause options unit project failures

/-- Whatever the cause, it is reported. -/
theorem Cause.substantial (cause : Cause options unit project failures) :
    Failure.Substantial failures := by
  cases cause with
  | unreadable source unread =>
    refine ⟨List.cons_ne_nil _ _, ?_, ?_⟩
    · intro failure member
      rw [List.mem_singleton.mp member]
      exact List.cons_ne_nil _ _
    · intro failure member message among
      rw [List.mem_singleton.mp member] at among ⊢
      rw [List.mem_singleton.mp among]
      rfl
  | errors given wrong shown => exact shown.substantial wrong
  | diagnostics given sound refused wrong shown => exact shown.substantial wrong

namespace CompilationResult

/-- A document fails for errors in it or for diagnostics of its page class. -/
theorem cause_of_ofDocument {document : CodeDocument}
    (given : (unit.document options).run project = .ok document)
    (failed : (ofDocument options document).run project = .failure failures) :
    Cause options unit project failures := by
  unfold ofDocument at failed
  split at failed
  · rename_i code generated
    split at failed
    · cases failed
    · rename_i diagnostics refused
      rw [run_andThen] at failed
      obtain rfl := CompilationResult.failure.inj failed
      refine .diagnostics given (by rw [generated]) (by rw [generated, refused])
        (Manifest.check_refused refused) ?_
      exact Failure.grouped_shows (fun _ _ => ⟨rfl, rfl⟩) (fun _ _ => rfl) project diagnostics
  · rename_i code errors several generated
    rw [run_andThen] at failed
    obtain rfl := CompilationResult.failure.inj failed
    refine .errors given ?_ ?_
    · rw [generated]
      rintro rfl
      exact several rfl
    · rw [generated]
      exact Failure.grouped_shows (fun _ _ => ⟨rfl, rfl⟩) (fun _ _ => rfl) project errors

/-- A unit that fails has a cause to. -/
theorem cause_of_failure (failed : (ofUnit options unit).run project = .failure failures) :
    Cause options unit project failures := by
  rw [ofUnit, run_andThen, attempt, run_andThen] at failed
  cases given : (unit.document options).run project with
  | error unreadable =>
    rw [given] at failed
    obtain ⟨item, source, fault, unread, rfl⟩ := TemplateUnit.document_error given
    obtain rfl := CompilationResult.failure.inj failed
    exact .unreadable source unread
  | ok document =>
    rw [given, run_andThen] at failed
    exact cause_of_ofDocument given failed

end CompilationResult

end ViewCompiler

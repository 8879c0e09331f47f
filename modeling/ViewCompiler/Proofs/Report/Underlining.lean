import ViewCompiler.Proofs.Compilation.Pointing
import ViewCompiler.Proofs.Compilation.Sight
import ViewCompiler.Proofs.Report.Carets

/-!
# What is underlined in a report

A failure shows the file that its faults were found in, as the project holds it, so every fault
that has a place in a template or an import file is printed with the line it is on. What a
diagnostic is about is underlined from its first character to its last. What a template error is
about is not: its columns count from zero and are taken to count from one. So the carets stand
one column further left, and at the beginning of a line one caret is missing.

The default imports have no file. Their faults, and diagnostics without a place, are reported in
the template, and nothing is said here of what is underlined there.
-/

namespace ViewCompiler

open Inquiry Text

/-- What the check of the code of a document without errors finds. -/
def CodeDocument.Diagnosed (document : CodeDocument) (references : List Text)
    (diagnostic : Diagnostic) : Prop :=
  (PageClass.generate document).errors = [] ∧ ∃ diagnostics,
    Manifest.check references (PageClass.generate document).code = .error diagnostics ∧
      diagnostic ∈ diagnostics

/-- What a message about a file reports of a document: an error or a diagnostic that belongs to
the file or, if the file is the template, one that belongs to none. -/
inductive Message.Tells (document : CodeDocument) (references : List Text) (file : Text) :
    Message → Prop
  | error (error : TemplateError) (found : document.Finds (some file) error) :
      Tells document references file (.ofError error file)
  | diagnostic (diagnostic : Diagnostic) (found : document.Diagnosed references diagnostic)
      (mapped : diagnostic.file = some file) :
      Tells document references file (.ofDiagnostic diagnostic file)
  | foreignError (error : TemplateError) (found : document.Finds none error)
      (template : file = document.path) : Tells document references file (.ofError error file)
  | unmapped (diagnostic : Diagnostic) (found : document.Diagnosed references diagnostic)
      (nowhere : diagnostic.file = none) (template : file = document.path) :
      Tells document references file (.ofDiagnostic diagnostic file)

variable {P Token : Type} [Project P Token] {project : P} {options : Options}
  {kind : ImportsKind} {path file content : Text} {document : CodeDocument} {failure : Failure}
  {message : Message}

/-- The failures of a document show the content of their files, and their messages tell of its
errors and diagnostics. -/
theorem CompilationResult.ofDocument_tells {failures : List Failure}
    (failed : (ofDocument options document).run project = .failure failures)
    (among : failure ∈ failures) :
    failure.content = (Failure.contentOf failure.file).run project ∧
      ∀ message ∈ failure.messages, message.Tells document options.references failure.file := by
  unfold ofDocument at failed
  split at failed
  · rename_i code generated
    split at failed
    · cases failed
    · rename_i diagnostics refused
      rw [run_andThen] at failed
      cases failed
      obtain ⟨content, messages⟩ := Failure.ofDiagnostics_run among
      refine ⟨content, fun message member => ?_⟩
      obtain ⟨diagnostic, listed, inFile, rfl⟩ := messages message member
      have found : document.Diagnosed options.references diagnostic := by
        refine ⟨by rw [generated], diagnostics, ?_, listed⟩
        rw [generated]
        exact refused
      unfold Failure.fileOfDiagnostic at inFile
      cases mapped : diagnostic.file with
      | none => exact .unmapped diagnostic found mapped (by rw [← inFile, mapped]; rfl)
      | some name => exact .diagnostic diagnostic found (by rw [← inFile, mapped]; rfl)
  · rename_i code errors _ generated
    rw [run_andThen] at failed
    cases failed
    obtain ⟨content, messages⟩ := Failure.ofErrors_run among
    refine ⟨content, fun message member => ?_⟩
    obtain ⟨error, listed, inFile, rfl⟩ := messages message member
    have errs : error ∈ PageClass.errorsOf document := by
      rw [← PageClass.generate_errors, generated]
      exact listed
    obtain ⟨origin, found⟩ := PageClass.mem_errorsOf.mp errs
    have located : origin.getD document.path = failure.file := by
      rw [← inFile, Failure.fileOfError]
      rcases PageClass.finds_located found with same | ⟨unlocated, rfl⟩
      · rw [same]
      · rw [unlocated]
        rfl
    cases origin with
    | none => exact .foreignError error found located.symm
    | some name =>
      obtain rfl : name = failure.file := located
      exact .error error found

variable [Project.Sighted P]

/-- An item that is read is read again by its own path. -/
theorem Project.text_again
    (reads : Project.text project (Project.item project path) = .ok content) :
    Project.text project (Project.item project (Project.item project path).path) = .ok content := by
  rw [Project.text_item] at reads
  rw [Project.text_item, Sighted.item_path, Project.seen_spelled]
  cases stands : Sighted.seen project path with
  | none =>
    rw [stands] at reads
    cases reads
  | some octets =>
    rw [stands] at reads
    exact reads

/-- The content that is shown of a file is the text of the item at its path. -/
theorem Failure.contentOf_text (project : P) (file : Text) :
    (contentOf file).run project = (Project.text project (Project.item project file)).toOption := by
  rw [contentOf_run, Project.text_item]
  cases Project.Sighted.seen project file <;> rfl

/-- A document that is read holds what its files hold. -/
theorem TemplateUnit.document_texts
    (given : (((resolve options kind path).run project).document options).run project =
      .ok document) (holds : document.Holds (some file) content) :
    Project.text project (Project.item project file) = .ok content := by
  obtain ⟨own, ⟨-, -, text⟩, imports⟩ := document_run given
  rw [resolve_items] at own text imports
  rcases holds with ⟨source, among, named, rfl⟩ | ⟨named, rfl⟩
  · rcases imports source among with rfl | ⟨item, listed, -, ofItem, reads⟩
    · cases named
    · obtain ⟨candidate, -, rfl⟩ := List.mem_map.mp (List.mem_filter.mp listed).1
      obtain rfl := Option.some.inj (named.trans ofItem)
      exact Project.text_again reads
  · obtain rfl := Option.some.inj named
    rw [own]
    exact Project.text_again text

namespace Failure

/-- The carets of a template error begin in the column before that of the error, or in the first
column, and they end one column too early. Only under a single character at the beginning of a
line they stand right. -/
theorem underlines_error {error : TemplateError} (found : document.Finds (some file) error)
    (shows : ∀ content, document.Holds (some file) content → failure.content = some content)
    (named : message = .ofError error file) :
    failure.Underlines message error.location.line (error.location.character - 1)
        (max (error.location.character + error.length - 1) 1) ∧
      (failure.Underlines message error.location.line error.location.character
          (error.location.character + error.length) ↔
        error.location.character = 0 ∧ error.length = 1) := by
  obtain ⟨content, row, holds, stands, refusal⟩ := PageClass.finds_refusal found
  obtain ⟨nonempty, within⟩ := refusal.within
  subst named
  have underlined : failure.Underlines (.ofError error file) error.location.line
      (error.location.character - 1) (max (error.location.character + error.length - 1) 1) := by
    apply underlines_of_row (shows content holds) stands rfl
    · exact fun width wide => Snippet.extent_ofError file nonempty wide
    · omega
    · omega
  refine ⟨underlined, ?_, ?_⟩
  · intro exact_
    obtain ⟨start, stop⟩ := underlined.unique exact_
    omega
  · rintro ⟨first, single⟩
    simpa [first, single] using underlined

/-- The carets of a diagnostic with a place stand under all of it. -/
theorem underlines_diagnostic {references : List Text} {diagnostic : Diagnostic}
    (oneLine : document.NamesOnOneLine) (addressable : document.Addressable)
    (found : document.Diagnosed references diagnostic) (mapped : diagnostic.file = some file)
    (shows : ∀ content, document.Holds (some file) content → failure.content = some content)
    (named : message = .ofDiagnostic diagnostic file) :
    ∃ line start stop, diagnostic.line = line + 1 ∧ diagnostic.column = start + 1 ∧
      diagnostic.endColumn = stop + 1 ∧ failure.Underlines message line start stop := by
  obtain ⟨accepted, diagnostics, failed, member⟩ := found
  obtain ⟨origin, content, row, directive, fault, number, holds, stands, declares, -, rfl⟩ :=
    PageClass.diagnostic_declared oneLine addressable accepted failed member
  cases origin with
  | none => cases mapped
  | some name =>
    obtain rfl : name = file := Option.some.inj mapped
    obtain ⟨ordered, within⟩ := declares.within
    subst named
    refine ⟨directive.line, directive.column, directive.endColumn, rfl, rfl, rfl, ?_⟩
    apply underlines_of_row (shows content holds) stands rfl
    · exact fun width wide => Snippet.extent_ofDiagnostic name rfl rfl rfl ordered (by omega)
    · exact ordered
    · exact within

end Failure

namespace CompilationResult

open TemplateUnit

/-- Whatever is wrong with a path whose sources can be read, every failure shows its file as the
project holds it, and its messages tell of nothing but errors and diagnostics. A diagnostic with a
place is underlined there, from its column up to its end column, which count from one. A template
error of a template or an import file has carets on its line from the column before its own, if
there is one, up to the column before its end, but at least one; so they stand under what it is
about only if this is the first character of the line. -/
theorem attempt_underlined (project : P) (options : Options) (kind : ImportsKind) (path : Text)
    (inPath : '\n' ∉ path) (inName : '\n' ∉ options.importName kind) {failures : List Failure} :
    let unit := (resolve options kind path).run project
    (attempt options unit).run project = .ok (.failure failures) →
    ∃ document, (unit.document options).run project = .ok document ∧
      ∀ failure ∈ failures,
        failure.content = (Project.text project (Project.item project failure.file)).toOption ∧
        ∀ message ∈ failure.messages,
          message.Tells document options.references failure.file ∧
          (document.Addressable →
            ∀ diagnostic, document.Diagnosed options.references diagnostic →
              diagnostic.file = some failure.file →
              message = .ofDiagnostic diagnostic failure.file →
              ∃ line start stop, diagnostic.line = line + 1 ∧ diagnostic.column = start + 1 ∧
                diagnostic.endColumn = stop + 1 ∧ failure.Underlines message line start stop) ∧
          (∀ error, document.Finds (some failure.file) error →
            message = .ofError error failure.file →
            failure.Underlines message error.location.line (error.location.character - 1)
                (max (error.location.character + error.length - 1) 1) ∧
              (failure.Underlines message error.location.line error.location.character
                  (error.location.character + error.length) ↔
                error.location.character = 0 ∧ error.length = 1)) := by
  intro unit failed
  rw [attempt] at failed
  obtain ⟨document, given, compiled⟩ := run_andThen_ok failed fun _ => rfl
  rw [run_andThen] at compiled
  have oneLine := document_oneLine inPath inName given
  refine ⟨document, given, fun failure among => ?_⟩
  obtain ⟨content, messages⟩ := ofDocument_tells (Except.ok.inj compiled) among
  rw [Failure.contentOf_text] at content
  have shows (text : Text) (holds : document.Holds (some failure.file) text) :
      failure.content = some text := by
    rw [content, document_texts given holds]
    rfl
  refine ⟨content, fun message member => ⟨messages message member, ?_, ?_⟩⟩
  · intro addressable diagnostic found mapped named
    exact Failure.underlines_diagnostic oneLine addressable found mapped shows named
  · intro error found named
    exact Failure.underlines_error found shows named

/-- A type that is no type name is underlined with its directive, all of it. -/
theorem attempt_underlined_model :
    let options : Options := { defaults := [] }
    let document : CodeDocument :=
      ⟨⟨some "/a.cshtml", "@model Home-Model"⟩, [options.defaultDocument], "/a.cshtml"⟩
    let diagnostic : Diagnostic := ⟨some "RV1002",
      "'Microsoft.AspNetCore.Mvc.Razor.RazorPage<Home-Model>' is not a valid type name.",
      some "/a.cshtml", 1, 1, 1, 18⟩
    let failure : Failure := .ofDiagnosticGroup (PageClass.generate document).code
      (some "@model Home-Model") ("/a.cshtml", [diagnostic])
    (attempt options ((resolve options .views "/a.cshtml").run dashedModel)).run dashedModel =
        .ok (.failure [failure]) ∧
      failure.Underlines (.ofDiagnostic diagnostic "/a.cshtml") 0 0 17 := by
  intro options document diagnostic failure
  have failed : (attempt options ((resolve options .views "/a.cshtml").run dashedModel)).run
      dashedModel = .ok (.failure [failure]) := by
    decide +kernel
  have read : (((resolve options .views "/a.cshtml").run dashedModel).document options).run
      dashedModel = .ok document := by
    decide +kernel
  have found : document.Diagnosed [] diagnostic :=
    ⟨by decide +kernel, [diagnostic], by decide +kernel, List.mem_cons_self⟩
  have addressable : document.Addressable := by
    unfold CodeDocument.Addressable
    decide
  obtain ⟨other, given, underlined⟩ := attempt_underlined dashedModel options .views "/a.cshtml"
    (by decide) (by decide) failed
  obtain rfl : document = other := Except.ok.inj (read.symm.trans given)
  obtain ⟨-, messages⟩ := underlined failure List.mem_cons_self
  obtain ⟨-, exact_, -⟩ := messages (.ofDiagnostic diagnostic "/a.cshtml") List.mem_cons_self
  obtain ⟨line, start, stop, atLine, atStart, atStop, carets⟩ :=
    exact_ addressable diagnostic found rfl rfl
  obtain rfl : 0 = line := Nat.succ.inj atLine
  obtain rfl : 0 = start := Nat.succ.inj atStart
  obtain rfl : 17 = stop := Nat.succ.inj atStop
  exact ⟨failed, carets⟩

/-- A directive that is refused is not underlined as a whole: one caret is missing. -/
theorem attempt_short_caret :
    let memory : Memory := Memory.ofFiles [("/a.cshtml", Utf8.encode "@model")]
    let options : Options := { defaults := [] }
    let document : CodeDocument :=
      ⟨⟨some "/a.cshtml", "@model"⟩, [options.defaultDocument], "/a.cshtml"⟩
    let error : TemplateError :=
      ⟨"The 'model' directive expects a value.", ⟨none, 0, 0, 0⟩, 6⟩
    let failure : Failure := .ofErrorGroup (some "@model") ("/a.cshtml", [error])
    (attempt options ((resolve options .views "/a.cshtml").run memory)).run memory =
        .ok (.failure [failure]) ∧
      document.Finds (some "/a.cshtml") error ∧
      ¬ failure.Underlines (.ofError error "/a.cshtml") 0 0 6 := by
  intro memory options document error failure
  have failed : (attempt options ((resolve options .views "/a.cshtml").run memory)).run memory =
      .ok (.failure [failure]) := by
    decide +kernel
  have found : document.Finds (some "/a.cshtml") error := .inr ⟨rfl, by decide +kernel⟩
  have shows (content : Text) (holds : document.Holds (some "/a.cshtml") content) :
      failure.content = some content := by
    rcases holds with ⟨source, among, named, -⟩ | ⟨-, rfl⟩
    · obtain rfl := List.mem_singleton.mp among
      cases named
    · rfl
  refine ⟨failed, found, fun whole => ?_⟩
  obtain ⟨-, single⟩ := (Failure.underlines_error found shows rfl).2.mp whole
  exact absurd single (by decide)

end CompilationResult

end ViewCompiler

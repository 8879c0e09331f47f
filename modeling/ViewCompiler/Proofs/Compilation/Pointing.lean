import ViewCompiler.Proofs.Compilation.Watched
import ViewCompiler.Proofs.PageClass.Blame

/-!
# What the messages of a failure point to

Every message of a failure is explained by a row of the template, of an import file, or of
the default imports. In the first two cases it points to this row: it names the file, and
the file has the row at the line of the message. The default imports have no file. What
they are to blame for is reported in the template, and then the line says nothing about the
template.
-/

namespace ViewCompiler

open Inquiry Text

namespace Failure

variable {α : Type}

/-- What holds of every fault in its group still does after one more fault was entered. -/
theorem enter_faults (holds : Text → α → Prop) {file : Text} {fault : α}
    {groups : List (Text × List α)}
    (known : ∀ group ∈ groups, ∀ other ∈ group.2, holds group.1 other) (own : holds file fault) :
    ∀ group ∈ enter file fault groups, ∀ other ∈ group.2, holds group.1 other := by
  induction groups with
  | nil => simpa [enter] using own
  | cons first groups inductionHypothesis =>
    obtain ⟨ofFirst, ofLater⟩ := List.forall_mem_cons.mp known
    unfold enter
    split
    · rename_i same
      refine List.forall_mem_cons.mpr ⟨?_, ofLater⟩
      intro other member
      rcases List.mem_append.mp member with earlier | last
      · exact ofFirst other earlier
      · obtain rfl := List.mem_singleton.mp last
        exact same ▸ own
    · exact List.forall_mem_cons.mpr ⟨ofFirst, inductionHypothesis ofLater⟩

/-- The faults of a group are faults of its file. -/
theorem grouped_faults {fileOf : α → Text} {faults : List α} :
    ∀ group ∈ grouped fileOf faults, ∀ fault ∈ group.2,
      fault ∈ faults ∧ fileOf fault = group.1 := by
  apply List.foldlRecOn (motive := fun groups : List (Text × List α) =>
    ∀ group ∈ groups, ∀ fault ∈ group.2, fault ∈ faults ∧ fileOf fault = group.1)
  · simp
  · intro groups known fault among
    exact enter_faults (fun file fault => fault ∈ faults ∧ fileOf fault = file) known ⟨among, rfl⟩

variable {P Token : Type} [Project P Token] {project : P} {failure : Failure}

/-- A failure that shows a group of faults shows the content of their file, and has a message for
each of them and no others. -/
theorem grouped_run {fileOf : α → Text} {faults : List α} {report : α → Text → Message}
    {shown : Option Text → Text × List α → Failure}
    (shape : ∀ content group, (shown content group).file = group.1 ∧
      (shown content group).content = content ∧
      (shown content group).messages = group.2.map (report · group.1))
    (member : failure ∈ (each
      (fun group => (contentOf group.1).andThen fun content => .answer (shown content group))
      (grouped fileOf faults)).run project) :
    failure.content = (contentOf failure.file).run project ∧
      ∀ message ∈ failure.messages, ∃ fault ∈ faults,
        fileOf fault = failure.file ∧ message = report fault failure.file := by
  rw [run_each] at member
  obtain ⟨group, among, rfl⟩ := List.mem_map.mp member
  rw [run_andThen]
  obtain ⟨file, content, messages⟩ := shape ((contentOf group.1).run project) group
  simp only [run, messages, file, content, List.mem_map]
  refine ⟨trivial, ?_⟩
  rintro message ⟨fault, inside, rfl⟩
  obtain ⟨found, same⟩ := grouped_faults group among fault inside
  exact ⟨fault, found, same, rfl⟩

/-- The messages of a failure of template errors are those of the errors of its file. -/
theorem ofErrors_run {template : Text} {errors : List TemplateError}
    (member : failure ∈ (ofErrors template errors).run project) :
    failure.content = (contentOf failure.file).run project ∧
      ∀ message ∈ failure.messages, ∃ error ∈ errors,
        fileOfError template error = failure.file ∧ message = .ofError error failure.file :=
  grouped_run (fun _ _ => ⟨rfl, rfl, rfl⟩) member

/-- The messages of a failure of diagnostics are those of the diagnostics of its file. -/
theorem ofDiagnostics_run {template code : Text} {diagnostics : List Diagnostic}
    (member : failure ∈ (ofDiagnostics template code diagnostics).run project) :
    failure.content = (contentOf failure.file).run project ∧
      ∀ message ∈ failure.messages, ∃ diagnostic ∈ diagnostics,
        fileOfDiagnostic template diagnostic = failure.file ∧
          message = .ofDiagnostic diagnostic failure.file :=
  grouped_run (fun _ _ => ⟨rfl, rfl, rfl⟩) member

end Failure

namespace TemplateUnit

variable {memory : Memory} {unit : TemplateUnit} {document : CodeDocument}

/-- A document that is read holds what the files hold now, and the default imports, which
have no file. -/
theorem document_holds {options : Options} (current : unit.Current memory)
    (given : (unit.document options).run memory = .ok document) {file : Option Text}
    {content : Text} (holds : document.Holds file content) :
    (file = none ∧ content = options.defaultDocument.content) ∨
      ∃ name, file = some name ∧ Project.text memory (memory.item name) = .ok content := by
  obtain ⟨path, template, imports⟩ := document_run given
  rcases holds with ⟨source, among, rfl, rfl⟩ | ⟨rfl, rfl⟩
  · rcases imports source among with rfl | ⟨item, listed, -, named, text⟩
    · exact .inl ⟨rfl, rfl⟩
    · have found := current item (List.mem_cons_of_mem _ (List.mem_filter.mp listed).1)
      exact .inr ⟨item.path, named, by rw [found, text]⟩
  · obtain ⟨-, -, text⟩ := template
    have found := current unit.item List.mem_cons_self
    exact .inr ⟨document.path, rfl, by rw [path, found, text]⟩

/-- The files that a document of a resolved unit is attributed to are named on one line. -/
theorem ResolvedFor.document_named {options : Options} {kind : ImportsKind} {path : Text}
    (resolved : unit.ResolvedFor options kind path) (inPath : '\n' ∉ path)
    (inName : '\n' ∉ options.importName kind)
    (given : (unit.document options).run memory = .ok document) : document.NamesOnOneLine := by
  obtain ⟨own, ⟨present, -, -⟩, imports⟩ := document_run given
  have sound := resolved.sound present inPath inName
  refine ⟨own ▸ sound.oneLine _ List.mem_cons_self, ?_⟩
  intro source among file named
  rcases imports source among with rfl | ⟨item, listed, -, same, -⟩
  · cases named
  · rw [same] at named
    cases named
    exact sound.oneLine _ (List.mem_cons_of_mem _ (List.mem_map_of_mem listed))

end TemplateUnit

namespace Message

/-- A message points to a row that explains it, in its file as it is now. -/
def Points (references : List Text) (page : PageModel) (memory : Memory) (message : Message) :
    Prop :=
  ∃ content line row, Project.text memory (memory.item message.file) = .ok content ∧
    (rows content)[line]? = some row ∧ message.startLine = line + 1 ∧
    Explains references page row message.message message.startColumn

/-- A message of the template is explained by a row of the default imports. -/
def Foreign (options : Options) (page : PageModel) (template : Text) (message : Message) : Prop :=
  message.file = template ∧ ∃ row ∈ rows options.defaultDocument.content, ∃ column,
    Explains options.references page row message.message column

variable {options : Options} {memory : Memory} {unit : TemplateUnit} {document : CodeDocument}

/-- What a row of a document explains, and is reported at this row of the file of the
document, points to this row or is foreign to the template. -/
theorem points_or_foreign (current : unit.Current memory)
    (given : (unit.document options).run memory = .ok document) {page : PageModel}
    {message : Message} {file : Option Text} {content row : Text} {line column : Nat}
    (holds : document.Holds file content) (inFile : message.file = file.getD document.path)
    (stands : (rows content)[line]? = some row)
    (explains : Explains options.references page row message.message column)
    (place : file ≠ none → message.startLine = line + 1 ∧ message.startColumn = column) :
    message.Points options.references page memory ∨
      message.Foreign options page unit.item.path := by
  rcases TemplateUnit.document_holds current given holds with ⟨rfl, rfl⟩ | ⟨name, rfl, text⟩
  · obtain ⟨path, -, -⟩ := TemplateUnit.document_run given
    exact .inr ⟨inFile.trans path, row, List.mem_of_getElem? stands, column, explains⟩
  · obtain ⟨startLine, startColumn⟩ := place (Option.some_ne_none name)
    have named : message.file = name := inFile
    exact .inl ⟨content, line, row, named ▸ text, stands, startLine, startColumn ▸ explains⟩

end Message

namespace CompilationResult

open TemplateUnit

/-- The messages about a document point to what explains them or are foreign to the
template. -/
theorem ofDocument_pointed {options : Options} {memory : Memory} {unit : TemplateUnit}
    {document : CodeDocument} (current : unit.Current memory)
    (given : (unit.document options).run memory = .ok document)
    (named : document.NamesOnOneLine) (addressable : document.Addressable)
    {failures : List Failure}
    (failed : (ofDocument options document).run memory = .failure failures) :
    ∀ failure ∈ failures, ∀ message ∈ failure.messages, message.file = failure.file ∧
      (message.Points options.references (PageClass.modelOf document) memory ∨
        message.Foreign options (PageClass.modelOf document) unit.item.path) := by
  intro failure among message member
  unfold ofDocument at failed
  split at failed
  · rename_i code generated
    split at failed
    · cases failed
    · rename_i diagnostics refused
      rw [run_andThen] at failed
      cases failed
      obtain ⟨diagnostic, found, inFile, rfl⟩ := (Failure.ofDiagnostics_run among).2 message member
      have accepted : (PageClass.generate document).errors = [] := by rw [generated]
      have checked : Manifest.check options.references (PageClass.generate document).code =
          .error diagnostics := by
        rw [generated]
        exact refused
      obtain ⟨file, content, line, row, column, holds, own, stands, explains, place⟩ :=
        PageClass.diagnostic_explained named addressable accepted checked found
      refine ⟨rfl, Message.points_or_foreign current given holds ?_ stands explains place⟩
      rw [← own]
      exact inFile.symm
  · rename_i code errors _ generated
    rw [run_andThen] at failed
    cases failed
    obtain ⟨error, found, inFile, rfl⟩ := (Failure.ofErrors_run among).2 message member
    have listed : error ∈ PageClass.errorsOf document := by
      rw [← PageClass.generate_errors, generated]
      exact found
    obtain ⟨file, content, row, holds, own, stands, refuses⟩ := PageClass.error_explained listed
    refine ⟨rfl, Message.points_or_foreign current given holds ?_ stands (.inl refuses)
      fun _ => ⟨rfl, rfl⟩⟩
    rw [← own]
    exact inFile.symm

/-- Whatever is wrong with a path whose sources can be read, every message about it points to
the row that explains it, in a file as it is now, unless a row of the default imports explains
it. -/
theorem attempt_pointed (options : Options) (kind : ImportsKind) (path : Text) (memory : Memory)
    (inPath : '\n' ∉ path) (inName : '\n' ∉ options.importName kind) {failures : List Failure} :
    let unit := (resolve options kind path).run memory
    (attempt options unit).run memory = .ok (.failure failures) →
    ∃ document, (unit.document options).run memory = .ok document ∧
      (document.Addressable →
        ∀ failure ∈ failures, ∀ message ∈ failure.messages, message.file = failure.file ∧
          (message.Points options.references (PageClass.modelOf document) memory ∨
            message.Foreign options (PageClass.modelOf document) unit.item.path)) := by
  intro unit failed
  rw [attempt] at failed
  obtain ⟨document, given, compiled⟩ := run_andThen_ok failed fun _ => rfl
  rw [run_andThen] at compiled
  have resolved := resolve_resolved options kind path memory
  exact ⟨document, given, fun addressable => ofDocument_pointed
    (resolve_current options kind path memory) given
    (resolved.document_named inPath inName given) addressable (Except.ok.inj compiled)⟩

/-- A directive without its value is reported at its own place in the import that it stands in. -/
theorem attempt_pointed_import :
    let memory : Memory := Memory.ofFiles
      [("/_ViewImports.cshtml", Utf8.encode "@using"), ("/a.cshtml", Utf8.encode "<p>")]
    let options : Options := { defaults := [] }
    let failure : Failure := .ofErrorGroup (some "@using") ("/_ViewImports.cshtml",
      [⟨"The 'using' directive expects a value.", ⟨some "/_ViewImports.cshtml", 0, 0, 0⟩, 6⟩])
    let document : CodeDocument := ⟨⟨some "/a.cshtml", "<p>"⟩,
      [options.defaultDocument, ⟨some "/_ViewImports.cshtml", "@using"⟩], "/a.cshtml"⟩
    (attempt options ((resolve options .views "/a.cshtml").run memory)).run memory =
        .ok (.failure [failure]) ∧
      ∀ message ∈ failure.messages, message.Points [] (PageClass.modelOf document) memory := by
  intro memory options failure document
  let unit := (resolve options .views "/a.cshtml").run memory
  have failed : (attempt options unit).run memory = .ok (.failure [failure]) := by decide +kernel
  have read : (unit.document options).run memory = .ok document := by decide +kernel
  refine ⟨failed, fun message member => ?_⟩
  obtain ⟨other, given, pointed⟩ := attempt_pointed options .views "/a.cshtml" memory
    (by decide) (by decide) failed
  obtain rfl : document = other := Except.ok.inj (read.symm.trans given)
  have addressable : document.Addressable := by
    unfold CodeDocument.Addressable
    decide
  obtain ⟨inFile, points | ⟨foreign, -⟩⟩ :=
    pointed addressable failure List.mem_cons_self message member
  · exact points
  · exact absurd (inFile.symm.trans foreign) (by decide +kernel)

/-- A template whose model no type can be named after. -/
def dashedModel : Memory := Memory.ofFiles [("/a.cshtml", Utf8.encode "@model Home-Model")]

/-- Default imports that give every page a property of a type with its model. -/
def modelHelper : Options := { defaults := [("@inject Helper<TModel> Html" : Text)] }

/-- A property of the default imports whose type is no type name is reported in the template,
at a line of the page class. The template need not have such a line. -/
theorem attempt_foreign :
    ∃ failures, (attempt modelHelper
        ((resolve modelHelper .views "/a.cshtml").run dashedModel)).run dashedModel =
        .ok (.failure failures) ∧
      ∃ failure ∈ failures, ∃ message ∈ failure.messages, message.file = "/a.cshtml" ∧
        ∀ page, ¬ message.Points [] page dashedModel := by
  have read : Project.text dashedModel (dashedModel.item "/a.cshtml") =
      .ok "@model Home-Model" := by
    decide +kernel
  have found : (match (attempt modelHelper
        ((resolve modelHelper .views "/a.cshtml").run dashedModel)).run dashedModel with
      | .ok (.failure failures) => failures.any fun failure => failure.messages.any fun message =>
        decide (message.file = "/a.cshtml" ∧ 1 < message.startLine)
      | _ => false) = true := by
    decide +kernel
  split at found
  · rename_i failures failed
    simp only [List.any_eq_true, decide_eq_true_eq] at found
    obtain ⟨failure, among, message, member, inFile, below⟩ := found
    refine ⟨failures, failed, failure, among, message, member, inFile, ?_⟩
    rintro page ⟨content, line, row, text, stands, startLine, -⟩
    rw [inFile, read] at text
    cases text
    have short : (rows "@model Home-Model").length = 1 := by decide
    have within := (List.getElem?_eq_some_iff.mp stands).1
    omega
  · cases found

end CompilationResult

end ViewCompiler

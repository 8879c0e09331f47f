import ViewCompiler.Proofs.Directive.Places
import ViewCompiler.Proofs.PageClass.SourceMap

/-!
# Which directive is to blame

Every fault of a template is the fault of something that stands on a row of the template or
of an import. What a scan refuses stands there itself. A fault of the page class is one of a
value, and the directive that supplied the value is to blame. The built-in base types have
no faults, so there is always such a directive.
-/

namespace ViewCompiler

open Text

namespace PageModel

/-- A directive of the given kind and value is to blame for a fault of a page: it opens a
namespace that no reference covers, it gives a base type or a model that makes the base type
no type name, or it gives a property whose type is no type name or whose name is no
identifier. -/
inductive Blames (references : List Text) (page : PageModel) :
    DirectiveKind → Text → ClassFault → Prop
  | opens (name : Text) (uncovered : isReferenced references name = false) :
      Blames references page .opens name (.unknownNamespace name)
  | inherits (base : Text) (bad : isTypeName (trim (substitute page.modelType base)) = false) :
      Blames references page .inherits base (.badType (trim (substitute page.modelType base)))
  | model (type : Text) (bad : isTypeName (trim (substitute type viewBase)) = false) :
      Blames references page .model type (.badType (trim (substitute type viewBase)))
  | type (value : Text) (injection : Injection)
      (read : injection? value injection.span = some injection)
      (bad : isTypeName (substitute page.modelType injection.type) = false) :
      Blames references page .inject value (.badType (substitute page.modelType injection.type))
  | name (value : Text) (injection : Injection)
      (read : injection? value injection.span = some injection)
      (bad : isIdentifier injection.name = false) :
      Blames references page .inject value (.badIdentifier injection.name)

variable {references : List Text} {page : PageModel} {source : DirectiveSource}

/-- The directive that supplied the base type, or the model in it, is to blame for it. -/
theorem baseType_blamed (supplied : page.SuppliedBy source)
    (bad : isTypeName (trim page.baseType.value) = false) :
    ∃ kind value, Supplies source kind value page.baseType.span ∧
      Blames references page kind value (.badType (trim page.baseType.value)) := by
  unfold baseType at bad ⊢
  cases ofBase : page.base with
  | some base =>
    simp only [ofBase] at bad ⊢
    exact ⟨.inherits, base.value, supplied.base base ofBase, .inherits base.value bad⟩
  | none =>
    cases ofRoute : page.route with
    | some route =>
      simp only [ofBase, ofRoute] at bad
      exact absurd bad (by decide)
    | none =>
      cases ofModel : page.model with
      | some model =>
        have type : page.modelType = model.value := by simp only [modelType, ofModel]
        simp only [ofBase, ofRoute, type, ofModel] at bad ⊢
        exact ⟨.model, model.value, supplied.model model ofModel, .model model.value bad⟩
      | none =>
        have type : page.modelType = "dynamic" := by simp only [modelType, ofModel]
        simp only [ofBase, ofRoute, type] at bad
        exact absurd bad (by decide)

/-- A fault of a page has the place of a directive that is to blame for it. -/
theorem faults_blamed (supplied : page.SuppliedBy source) {fault : ClassFault × Option Span}
    (member : fault ∈ page.faults references) :
    ∃ kind value, Supplies source kind value fault.2 ∧
      Blames references page kind value fault.1 := by
  unfold faults at member
  simp only [List.mem_append, List.mem_flatMap, List.mem_ite_nil_left, List.mem_singleton,
    Bool.not_eq_true] at member
  rcases member with (⟨opened, among, bad, rfl⟩ | ⟨bad, rfl⟩) |
    ⟨injection, among, ⟨bad, rfl⟩ | ⟨bad, rfl⟩⟩
  · exact ⟨.opens, opened.value, supplied.opened opened among, .opens opened.value bad⟩
  · exact baseType_blamed supplied bad
  · obtain ⟨value, supplies, read⟩ := supplied.injections injection among
    exact ⟨.inject, value, supplies, .type value injection read bad⟩
  · obtain ⟨value, supplies, read⟩ := supplied.injections injection among
    exact ⟨.inject, value, supplies, .name value injection read bad⟩

end PageModel

/-- A row explains a message with a column: it holds what is refused there, or a directive
that is to blame for a fault of the page, whose column is counted from one. -/
def Explains (references : List Text) (page : PageModel) (row message : Text) (column : Nat) :
    Prop :=
  Scanned.Refuses row message column ∨
    ∃ directive fault, Scanned.Declares row directive ∧
      page.Blames references directive.kind directive.value fault ∧ message = fault.message ∧
      column = directive.column + 1

/-- A document of a template: its text, and the file that its directives are attributed to.
The template itself is attributed to its path. -/
def CodeDocument.Holds (document : CodeDocument) (file : Option Text) (content : Text) : Prop :=
  (∃ source ∈ document.imports, file = source.file ∧ content = source.content) ∨
    (file = some document.path ∧ content = document.source.content)

namespace PageClass

variable {document : CodeDocument} {references : List Text}

/-- What is found in a document is refused on the row of its line. -/
theorem finds_refusal {file : Option Text} {error : TemplateError}
    (found : document.Finds file error) :
    ∃ content row, document.Holds file content ∧ (rows content)[error.location.line]? = some row ∧
      Scanned.Refusal row error.message error.location.character error.length := by
  rcases found with ⟨source, among, rfl, inside⟩ | ⟨rfl, inside⟩
  · obtain ⟨row, stands, refusal⟩ := Scanned.ofDocument_refusal inside
    exact ⟨source.content, row, .inl ⟨source, among, rfl, rfl⟩, stands, refusal⟩
  · obtain ⟨row, stands, refusal⟩ := Scanned.ofDocument_refusal inside
    exact ⟨document.source.content, row, .inr ⟨rfl, rfl⟩, stands, refusal⟩

/-- An error is explained by the row of its line, in the document that it is attributed to. -/
theorem error_explained {error : TemplateError} (member : error ∈ errorsOf document) :
    ∃ file content row, document.Holds file content ∧
      error.location.file.getD document.path = file.getD document.path ∧
      (rows content)[error.location.line]? = some row ∧
      Scanned.Refuses row error.message error.location.character := by
  obtain ⟨file, found⟩ := mem_errorsOf.mp member
  obtain ⟨content, row, holds, stands, refusal⟩ := finds_refusal found
  have located : error.location.file.getD document.path = file.getD document.path := by
    rcases finds_located found with same | ⟨unlocated, rfl⟩
    · rw [same]
    · rw [unlocated]
      rfl
  exact ⟨file, content, row, holds, located, stands, refusal.refuses⟩

/-- A directive of a document stands on the row of its line. -/
theorem directives_row {file : Option Text} {directive : Directive}
    (given : document.directives file directive) :
    ∃ content row, document.Holds file content ∧ (rows content)[directive.line]? = some row ∧
      Scanned.Declares row directive := by
  rcases given with ⟨source, among, rfl, member⟩ | ⟨rfl, member⟩
  · obtain ⟨row, found, declares⟩ := Scanned.ofDocument_directive_row member
    exact ⟨source.content, row, .inl ⟨source, among, rfl, rfl⟩, found, declares⟩
  · obtain ⟨row, found, declares⟩ := Scanned.ofDocument_directive_row member
    exact ⟨document.source.content, row, .inr ⟨rfl, rfl⟩, found, declares⟩

/-- A diagnostic of a page class is the fault of a directive that is to blame for it, at the place
of this directive. -/
theorem diagnostic_declared (named : document.NamesOnOneLine) (addressable : document.Addressable)
    (accepted : (generate document).errors = []) {diagnostics : List Diagnostic}
    (failed : Manifest.check references (generate document).code = .error diagnostics)
    {diagnostic : Diagnostic} (member : diagnostic ∈ diagnostics) :
    ∃ file content row directive fault number, document.Holds file content ∧
      (rows content)[directive.line]? = some row ∧ Scanned.Declares row directive ∧
      (modelOf document).Blames references directive.kind directive.value fault ∧
      diagnostic = fault.at_ number ((PageModel.spanOf file directive).map Span.place) := by
  have reported := check_reported named accepted failed
  rw [faults_placed references addressable, List.forall₂_map_left_iff] at reported
  obtain ⟨fault, among, number, -, -, rfl⟩ := exists_related reported member
  obtain ⟨kind, value, ⟨file, directive, given, rfl, rfl, placed⟩, blames⟩ :=
    PageModel.faults_blamed (modelOf_supplied document) among
  obtain ⟨content, row, holds, stands, declares⟩ := directives_row given
  exact ⟨file, content, row, directive, fault.1, number, holds, stands, declares, blames,
    by rw [placed]⟩

/-- A diagnostic of a page class is explained by a row of a document. If this document has a
file, the diagnostic is at that row of this file. -/
theorem diagnostic_explained (named : document.NamesOnOneLine) (addressable : document.Addressable)
    (accepted : (generate document).errors = []) {diagnostics : List Diagnostic}
    (failed : Manifest.check references (generate document).code = .error diagnostics)
    {diagnostic : Diagnostic} (member : diagnostic ∈ diagnostics) :
    ∃ file content line row column, document.Holds file content ∧ diagnostic.file = file ∧
      (rows content)[line]? = some row ∧
      Explains references (modelOf document) row diagnostic.message column ∧
      (file ≠ none → diagnostic.line = line + 1 ∧ diagnostic.column = column) := by
  obtain ⟨file, content, row, directive, fault, number, holds, stands, declares, blames, rfl⟩ :=
    diagnostic_declared named addressable accepted failed member
  have explains (message : Text) (same : message = fault.message) :
      Explains references (modelOf document) row message (directive.column + 1) :=
    .inr ⟨directive, fault, declares, blames, same, rfl⟩
  refine ⟨file, content, directive.line, row, directive.column + 1, holds, ?_⟩
  cases file with
  | none => exact ⟨rfl, stands, explains _ rfl, by simp⟩
  | some name => exact ⟨rfl, stands, explains _ rfl, fun _ => ⟨rfl, rfl⟩⟩

end PageClass

end ViewCompiler

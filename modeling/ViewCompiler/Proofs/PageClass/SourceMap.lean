import ViewCompiler.Proofs.PageClass.Faults

/-!
# What the check of a page class finds

A page class is written from the merged directives of a template and its imports, and it
is checked as text. What the check finds in it are the faults of the merged values, in order,
each with the place of the directive that supplied the value; and when there are none, what
it returns are these values.

Places are numbers of 64 bits in a page class. A text whose lines or columns could not be
counted with them cannot be held in memory; `CodeDocument.Addressable` says so.
-/

namespace ViewCompiler

open Text

/-- The place of a span, as a fault reports it. -/
def Span.place (span : Span) : Mapping :=
  ⟨span.file, span.line, span.column, span.line, span.endColumn⟩

/-- Every line and column of a document can be counted with 64 bits, as in a document
that is held in memory. -/
def CodeDocument.Addressable (document : CodeDocument) : Prop :=
  ∀ source ∈ document.source :: document.imports, source.content.length + 1 < 0x10000000000000000

/-- An error that the scan of a template or an import finds, with the file that the document is
attributed to. -/
def CodeDocument.Finds (document : CodeDocument) (file : Option Text) (error : TemplateError) :
    Prop :=
  (∃ source ∈ document.imports, file = source.file ∧
    error ∈ (Scanned.ofDocument source source.file true).errors) ∨
  (file = some document.path ∧ error ∈ (PageClass.scanTemplate document).errors)

variable {document : CodeDocument}

/-- The place of a directive is named by its numbers. -/
theorem CodeDocument.named_place (addressable : document.Addressable) {kind : DirectiveKind}
    {value : Text} {span : Option Span}
    (supplies : PageModel.Supplies document.directives kind value span) :
    span.map Span.named = span.map Span.place := by
  have within {source : SourceDocument} {file : Option Text} {inImport : Bool}
      {directive : Directive} (among : source ∈ document.source :: document.imports)
      (member : directive ∈ (Scanned.ofDocument source file inImport).directives) :
      directive.line + 1 < 0x10000000000000000 ∧ directive.column + 1 < 0x10000000000000000 ∧
        directive.endColumn + 1 < 0x10000000000000000 := by
    have bound := addressable source among
    obtain ⟨below, row, inRows, _, column, endColumn⟩ := Scanned.directive_parts member
    have many : (rows source.content).length ≤ source.content.length + 1 := pieces_length _ _
    have long : row.length ≤ source.content.length := (mem_pieces inRows).1.length_le
    omega
  obtain ⟨file, directive, given, -, -, rfl⟩ := supplies
  have bounds : directive.line + 1 < 0x10000000000000000 ∧
      directive.column + 1 < 0x10000000000000000 ∧
      directive.endColumn + 1 < 0x10000000000000000 := by
    rcases given with ⟨source, among, -, member⟩ | ⟨-, member⟩
    · exact within (by simp [among]) member
    · exact within (by simp) member
  cases file with
  | none => rfl
  | some file =>
    simp only [PageModel.spanOf, Option.map_some, Span.named, Span.place,
      ClassLine.numberOf_decimal bounds.1, ClassLine.numberOf_decimal bounds.2.1,
      ClassLine.numberOf_decimal bounds.2.2]

namespace ClassFault

/-- A fault is reported under its number, wherever it is. -/
theorem at_id (fault : ClassFault) (row : Nat) (place : Option Mapping) :
    (fault.at_ row place).id = some fault.id := by
  cases place <;> rfl

/-- A fault without a place is in no file. -/
theorem at_file (fault : ClassFault) (row : Nat) (place : Option Mapping) :
    (fault.at_ row place).file = place.map Mapping.file := by
  cases place <;> rfl

end ClassFault

namespace PageClass

open Manifest

/-- The faults of a page are at the places of their directives. -/
theorem faults_placed (references : List Text) (addressable : document.Addressable) :
    ((modelOf document).faults references).map (fun fault => (fault.1, fault.2.map Span.named)) =
      ((modelOf document).faults references).map fun fault =>
        (fault.1, fault.2.map Span.place) := by
  refine List.map_congr_left fun fault member => congrArg (fault.1, ·) ?_
  rcases PageModel.faults_supplied (modelOf_supplied document) member with
    unplaced | ⟨_, _, supplies⟩
  · rw [unplaced]
    rfl
  · exact CodeDocument.named_place addressable supplies

/-- The manifest that the merged values give. -/
def summary (page : PageModel) (path : Text) : Manifest where
  within := trim page.namespaceName
  typeName := className path
  baseType := trim page.baseType.value
  route := page.route.map escape
  injections := page.injections.map fun injection =>
    ⟨PageModel.substitute page.modelType injection.type, injection.name⟩
  tagHelpers := page.tagHelpers.map escape

/-- What the check finds are the faults of the merged values, and without faults it
returns these values. -/
theorem check_found (references : List Text) (named : document.NamesOnOneLine)
    (accepted : (generate document).errors = []) :
    ∃ found, List.Forall₂ (ReportedFrom 1 (1 + (Text.lines (generate document).code).length))
      (((modelOf document).faults references).map fun fault =>
        (fault.1, fault.2.map Span.named)) found ∧
    Manifest.check references (generate document).code =
      if found.isEmpty then .ok (summary (modelOf document) document.path) else .error found := by
  have heard : Reading.takeAll references {} 1 (Text.lines (generate document).code) =
      Reading.hearAll references {} 1
        (declarations (modelOf document) (scanTemplate document).markup document.path) := by
    rw [takeAll_eq_hearAll, generate_read named accepted]
  have many : (Text.lines (generate document).code).length =
      (declarations (modelOf document) (scanTemplate document).markup document.path).length := by
    rw [← generate_read named accepted, List.length_map]
  obtain ⟨found, known, reported⟩ := hearAll_diagnostics references {} 1
    (declarations (modelOf document) (scanTemplate document).markup document.path)
  obtain ⟨name, base, declared, shown⟩ :=
    declared_declarations (modelOf document) (scanTemplate document).markup document.path
  rw [answers_declarations, ← many] at reported
  refine ⟨found, reported, ?_⟩
  rw [check_declared heard (by rw [hearAll_declared, declared]; rfl), known]
  cases found with
  | nil =>
    have sound : (modelOf document).faults references = [] :=
      List.map_eq_nil_iff.mp (List.forall₂_nil_right_iff.mp reported)
    obtain ⟨rfl, rfl⟩ := shown (PageModel.isTypeName_of_faults sound)
    have route : ((modelOf document).route.toList.map escape).getLast? =
        (modelOf document).route.map escape := by
      cases (modelOf document).route <;> rfl
    rw [hearAll_within, hearAll_route, hearAll_injections, hearAll_tagHelpers, Option.or_none,
      within_declarations, route_declarations, route, Option.or_none, tagHelpers_declarations,
      properties_declarations]
    rfl
  | cons diagnostic more => rfl

/-- What a check that fails reports are the faults of the merged values. -/
theorem check_reported {references : List Text} (named : document.NamesOnOneLine)
    (accepted : (generate document).errors = []) {diagnostics : List Diagnostic}
    (failed : Manifest.check references (generate document).code = .error diagnostics) :
    List.Forall₂ (ReportedFrom 1 (1 + (Text.lines (generate document).code).length))
      (((modelOf document).faults references).map fun fault =>
        (fault.1, fault.2.map Span.named)) diagnostics := by
  obtain ⟨found, reported, checked⟩ := check_found references named accepted
  rw [checked] at failed
  cases found with
  | nil => simp at failed
  | cons diagnostic more =>
    obtain rfl : diagnostic :: more = diagnostics := by simpa using failed
    exact reported

/-- What the check finds is in the class, in the template or in one of its imports. -/
theorem check_files {references : List Text} (named : document.NamesOnOneLine)
    (accepted : (generate document).errors = []) {diagnostics : List Diagnostic}
    (failed : Manifest.check references (generate document).code = .error diagnostics)
    {diagnostic : Diagnostic} (member : diagnostic ∈ diagnostics) {file : Text}
    (located : diagnostic.file = some file) :
    file = document.path ∨ ∃ source ∈ document.imports, source.file = some file := by
  have reported := check_reported named accepted failed
  obtain ⟨answer, among, row, -, -, rfl⟩ := exists_related reported member
  obtain ⟨fault, inFaults, rfl⟩ := List.mem_map.mp among
  rw [ClassFault.at_file] at located
  rcases PageModel.faults_supplied (modelOf_supplied document) inFaults with
    unplaced | ⟨_, _, supplies⟩
  · simp [unplaced] at located
  · obtain ⟨origin, directive, given, -, -, placed⟩ := supplies
    have same : origin = some file := by
      rw [← placed] at located
      cases origin with
      | none => simp [PageModel.spanOf] at located
      | some name => simpa [PageModel.spanOf, Span.named] using located
    rcases given with ⟨source, inImports, ofSource, -⟩ | ⟨ofTemplate, -⟩
    · exact .inr ⟨source, inImports, ofSource ▸ same⟩
    · exact .inl (Option.some.inj (same.symm.trans ofTemplate))

/-- The errors of a document are those that are found in the template and its imports. -/
theorem mem_errorsOf {error : TemplateError} :
    error ∈ errorsOf document ↔ ∃ file, document.Finds file error := by
  constructor
  · intro member
    rcases List.mem_append.mp member with inImports | inTemplate
    · obtain ⟨scan, among, inside⟩ := List.mem_flatMap.mp inImports
      obtain ⟨source, ofDocument, rfl⟩ := List.mem_map.mp among
      exact ⟨source.file, .inl ⟨source, ofDocument, rfl, inside⟩⟩
    · exact ⟨some document.path, .inr ⟨rfl, inTemplate⟩⟩
  · rintro ⟨file, ⟨source, among, -, inside⟩ | ⟨-, inTemplate⟩⟩
    · exact List.mem_append_left _ (List.mem_flatMap.mpr
        ⟨_, List.mem_map.mpr ⟨source, among, rfl⟩, inside⟩)
    · exact List.mem_append_right _ inTemplate

/-- An error of a template names no file, and an error of an import names its file. -/
theorem finds_located {file : Option Text} {error : TemplateError}
    (found : document.Finds file error) : error.location.file = file ∨
      error.location.file = none ∧ file = some document.path := by
  rcases found with ⟨source, -, rfl, inside⟩ | ⟨rfl, inside⟩
  · exact .inl (Scanned.ofDocument_error_file inside)
  · exact .inr ⟨Scanned.ofDocument_error_file inside, rfl⟩

/-- The file of an error is that of one of the imports. -/
theorem errorsOf_files {error : TemplateError} (member : error ∈ errorsOf document) {file : Text}
    (located : error.location.file = some file) :
    ∃ source ∈ document.imports, source.file = some file := by
  obtain ⟨origin, found⟩ := mem_errorsOf.mp member
  rcases finds_located found with same | ⟨unlocated, -⟩
  · rcases found with ⟨source, among, ofSource, -⟩ | ⟨-, inTemplate⟩
    · exact ⟨source, among, ofSource.symm.trans (same.symm.trans located)⟩
    · rw [Scanned.ofDocument_error_file inTemplate] at located
      cases located
  · rw [unlocated] at located
    cases located

end PageClass

end ViewCompiler

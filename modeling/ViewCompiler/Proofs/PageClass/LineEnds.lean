import ViewCompiler.Proofs.Directive.LineEnds
import ViewCompiler.Proofs.PageClass.Attributes

/-!
# How lines end makes no difference to a page class

A template and its imports may end their lines in a line feed alone, or some of them in a
carriage return and a line feed. The errors are the same ones in the same order, except that
those of a document with carriage returns are behind one more character for each line before
them. Without errors the class is the same line by line, but for the digest of the template on
its first line.
-/

namespace ViewCompiler

open Text

/-- The document, with carriage returns before its line feeds if it is chosen. -/
def SourceDocument.respelled (chosen : Bool) (document : SourceDocument) : SourceDocument :=
  if chosen then { document with content := returned document.content } else document

/-- The error, behind one more character for each line before it if its document is chosen. -/
def TemplateError.respelled (chosen : Bool) (error : TemplateError) : TemplateError :=
  if chosen then error.pushed else error

namespace CodeDocument

/-- The document with carriage returns in the chosen ones of its imports, which are told by
their numbers, and of its template, which has none. -/
def respelled (chosen : Option Nat → Bool) (document : CodeDocument) : CodeDocument :=
  { document with
    source := document.source.respelled (chosen none)
    imports := document.imports.zipIdx.map fun entry => entry.1.respelled (chosen (some entry.2)) }

/-- No line of the template or of an import has a carriage return. -/
def WithoutReturns (document : CodeDocument) : Prop :=
  '\r' ∉ document.source.content ∧ ∀ source ∈ document.imports, '\r' ∉ source.content

/-- The errors of the imports and of the template, each with the number of its import. -/
def numberedErrors (document : CodeDocument) : List (Option Nat × TemplateError) :=
  document.imports.zipIdx.flatMap (fun entry =>
    (Scanned.ofDocument entry.1 entry.1.file true).errors.map (some entry.2, ·)) ++
  (PageClass.scanTemplate document).errors.map (none, ·)

end CodeDocument

namespace Scanned

/-- The scan, with its errors behind one more character for each line before them if its
document is chosen. -/
def respelled (chosen : Bool) (scanned : Scanned) : Scanned :=
  { scanned with errors := scanned.errors.map (·.respelled chosen) }

/-- Carriage returns before the line feeds of a document move its errors, and make no other
difference to its scan. -/
theorem ofDocument_respelled {document : SourceDocument} (plain : '\r' ∉ document.content)
    (chosen : Bool) (file : Option Text) (inImport : Bool) :
    ofDocument (document.respelled chosen) file inImport =
      (ofDocument document file inImport).respelled chosen := by
  cases chosen with
  | true => exact ofDocument_returned plain file inImport
  | false => simp [SourceDocument.respelled, respelled, TemplateError.respelled]

end Scanned

namespace PageClass

/-- The first line of a class, which names the template and the digest of its text. -/
def checksumLine (path content : Text) : Text :=
  "#pragma checksum \"" ++ path ++ "\" \"\x7bblake3\x7d\" \"" ++
    (Digest.ofOctets (Utf8.encode content)).hex ++ "\""

/-- The text of the template enters a class on its first line only. -/
theorem render_checksum (page : PageModel) (markup : List (Nat × Text)) (path : Text) :
    ∃ later, ∀ content,
      render page markup content path = checksumLine path content ++ '\n' :: later := by
  obtain ⟨later, parts⟩ : ∃ later, ∀ content,
      lines page markup content path = checksumLine path content :: later :=
    ⟨_, fun _ => rfl⟩
  refine ⟨later.flatMap (· ++ ['\n']), fun content => ?_⟩
  rw [render, parts, List.flatMap_cons, List.append_assoc]
  rfl

variable {document : CodeDocument}

/-- Numbers that are not looked at make no difference. -/
theorem flatMap_zipIdx {α β : Type} (items : List α) (parts : α → List β) :
    items.zipIdx.flatMap (fun entry => parts entry.1) = items.flatMap parts := by
  rw [← List.flatMap_map, List.zipIdx_map_fst]

/-- The errors are those of the imports and of the template. -/
theorem map_numberedErrors (document : CodeDocument) :
    document.numberedErrors.map (·.2) = errorsOf document := by
  have imports := flatMap_zipIdx document.imports fun source =>
    (Scanned.ofDocument source source.file true).errors
  simp [CodeDocument.numberedErrors, errorsOf, scanImports, List.map_flatMap, List.flatMap_map,
    Function.comp_def, imports]

/-- The scan of a template with carriage returns is the one without them, but for where its errors
are. -/
theorem scanTemplate_respelled (plain : document.WithoutReturns) (chosen : Option Nat → Bool) :
    scanTemplate (document.respelled chosen) = (scanTemplate document).respelled (chosen none) :=
  Scanned.ofDocument_respelled plain.1 _ _ _

/-- The scans of the imports have their own files, and their errors where they belong. -/
theorem scanImports_respelled (plain : document.WithoutReturns) (chosen : Option Nat → Bool) :
    scanImports (document.respelled chosen) = document.imports.zipIdx.map fun entry =>
      (entry.1.file, (Scanned.ofDocument entry.1 entry.1.file true).respelled
        (chosen (some entry.2))) := by
  simp only [scanImports, CodeDocument.respelled, List.map_map]
  apply List.map_congr_left
  intro entry member
  have inside : '\r' ∉ entry.1.content := plain.2 _ (List.fst_mem_of_mem_zipIdx member)
  have file : (entry.1.respelled (chosen (some entry.2))).file = entry.1.file := by
    unfold SourceDocument.respelled
    split <;> rfl
  simp only [Function.comp_apply, file, Scanned.ofDocument_respelled inside]

/-- The errors are the same, behind one more character for each line before them in a chosen
document. -/
theorem errorsOf_respelled (plain : document.WithoutReturns) (chosen : Option Nat → Bool) :
    errorsOf (document.respelled chosen) =
      document.numberedErrors.map fun entry => entry.2.respelled (chosen entry.1) := by
  simp [errorsOf, scanImports_respelled plain, scanTemplate_respelled plain, List.flatMap_map,
    CodeDocument.numberedErrors, List.map_flatMap, Scanned.respelled, Function.comp_def]

/-- The directives are the same. -/
theorem attributed_respelled (plain : document.WithoutReturns) (chosen : Option Nat → Bool) :
    (document.respelled chosen).attributed = document.attributed := by
  have imports := flatMap_zipIdx document.imports fun source =>
    (Scanned.ofDocument source source.file true).directives.map (source.file, ·)
  rw [CodeDocument.attributed_eq_scanned, scanImports_respelled plain,
    scanTemplate_respelled plain, List.flatMap_map]
  exact congrArg (· ++ _) imports

/-- Whichever documents have carriage returns before their line feeds, the errors are the same
in the same order, behind one more character for each line before them in these documents; with
errors there is no class, and without errors the class is the same behind its first line, which
has the digest of the template. -/
theorem generate_respelled (document : CodeDocument) (plain : document.WithoutReturns)
    (chosen : Option Nat → Bool) :
    let other := document.respelled chosen
    (generate document).errors = document.numberedErrors.map (·.2) ∧
      (generate other).errors =
        document.numberedErrors.map (fun entry => entry.2.respelled (chosen entry.1)) ∧
      ((generate document).errors ≠ [] → (generate document).code = [] ∧ (generate other).code = []) ∧
      ((generate document).errors = [] → ∃ later,
        (generate document).code =
          checksumLine document.path document.source.content ++ '\n' :: later ∧
        (generate other).code = checksumLine document.path other.source.content ++ '\n' :: later) := by
  intro other
  have errors : errorsOf document = document.numberedErrors.map (·.2) :=
    (map_numberedErrors document).symm
  have otherErrors : errorsOf other = _ := errorsOf_respelled plain chosen
  have model : modelOf other = modelOf document := by
    rw [modelOf_eq_applyAll, modelOf_eq_applyAll, attributed_respelled plain]
  have markup : (scanTemplate other).markup = (scanTemplate document).markup := by
    rw [scanTemplate_respelled plain]
    rfl
  refine ⟨(generate_errors document).trans errors, (generate_errors other).trans otherErrors, ?_, ?_⟩
  · intro faulty
    have otherFaulty : (generate other).errors ≠ [] := by
      rw [generate_errors, errors] at faulty
      rw [generate_errors, otherErrors]
      simpa using faulty
    exact ⟨generate_refused faulty, generate_refused otherFaulty⟩
  · intro silent
    have otherSilent : (generate other).errors = [] := by
      rw [generate_errors, errors] at silent
      rw [generate_errors, otherErrors]
      simpa using silent
    obtain ⟨later, rendered⟩ := render_checksum (modelOf document) (scanTemplate document).markup
      document.path
    refine ⟨later, (generate_code silent).trans (rendered _), ?_⟩
    rw [generate_code otherSilent, model, markup]
    exact rendered _

/-- With carriage returns in the import only, its error is behind two more characters, and the
error of the template stays where it is. -/
theorem generate_respelled_import :
    let document : CodeDocument := ⟨⟨some "/a.cshtml", "<p>\n@model"⟩,
      [⟨some "/_ViewImports.cshtml", "@using App\n\n@page"⟩], "/a.cshtml"⟩
    let chosen : Option Nat → Bool := fun source => source.isSome
    let refused (absolute : Nat) : TemplateError :=
      ⟨DirectiveFault.pageInImport.message, ⟨some "/_ViewImports.cshtml", absolute, 2, 0⟩, 5⟩
    let valueless : TemplateError := ⟨(DirectiveFault.noValue .model).message, ⟨none, 4, 1, 0⟩, 6⟩
    document.WithoutReturns ∧
      (generate document).errors = [refused 12, valueless] ∧
      (generate (document.respelled chosen)).errors = [refused 14, valueless] ∧
      (generate document).code = [] ∧ (generate (document.respelled chosen)).code = [] := by
  intro document chosen refused valueless
  have plain : document.WithoutReturns := by
    refine ⟨by decide, fun source member => ?_⟩
    obtain rfl := List.mem_singleton.mp member
    decide
  have numbered : document.numberedErrors = [(some 0, refused 12), (none, valueless)] := by
    decide +kernel
  obtain ⟨before, after, without, -⟩ := generate_respelled document plain chosen
  rw [numbered] at before after
  have faulty : (generate document).errors ≠ [] := before ▸ List.cons_ne_nil _ _
  exact ⟨plain, before, after, without faulty⟩

end PageClass

end ViewCompiler

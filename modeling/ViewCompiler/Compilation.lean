import ViewCompiler.Failure
import ViewCompiler.Inquiry
import ViewCompiler.PageClass

/-!
# Compiling a template

A unit is a template with the candidates for its imports, whether they exist or not,
because any of them coming into existence changes what the template means. Compiling a
unit reads the template and the imports that exist, writes the page class and checks
it. The outcome is a compiled type or failures; whatever goes wrong is a failure.
-/

namespace ViewCompiler

/-- Which import files apply. -/
inductive ImportsKind
  | views
  | pages
deriving DecidableEq, Repr

/-- What a project is compiled with. -/
structure Options where
  viewImports : Text := "_ViewImports.cshtml"
  pageImports : Text := "_PageImports.cshtml"
  /-- The namespaces that may be opened, with those inside them; none means any. -/
  references : List Text := []
  /-- The lines of the imports that every template has. -/
  defaults : List Text := [
    "@using System",
    "@using System.Linq",
    "@using System.Collections.Generic",
    "@using Microsoft.AspNetCore.Mvc",
    "@using Microsoft.AspNetCore.Mvc.Rendering",
    "@using Microsoft.AspNetCore.Mvc.ViewFeatures",
    "@inject Microsoft.AspNetCore.Mvc.Rendering.IHtmlHelper<TModel> Html",
    "@inject Microsoft.AspNetCore.Mvc.Rendering.IJsonHelper Json",
    "@inject Microsoft.AspNetCore.Mvc.IViewComponentHelper Component",
    "@inject Microsoft.AspNetCore.Mvc.IUrlHelper Url",
    "@inject Microsoft.AspNetCore.Mvc.ViewFeatures.IModelExpressionProvider ModelExpressionProvider",
    "@addTagHelper Microsoft.AspNetCore.Mvc.Razor.TagHelpers.UrlResolutionTagHelper, Microsoft.AspNetCore.Mvc.Razor"]
deriving Repr

/-- The name of the import files of a kind. -/
def Options.importName (options : Options) : ImportsKind → Text
  | .views => options.viewImports
  | .pages => options.pageImports

/-- The document of the imports that every template has. -/
def Options.defaultDocument (options : Options) : SourceDocument :=
  ⟨none, options.defaults.flatMap (· ++ ['\n'])⟩

/-- A type that pages can be made of. -/
inductive CompiledType
  /-- Made from a template. -/
  | made (manifest : Manifest)
  /-- Known by its name alone. -/
  | named (name : Text)
deriving DecidableEq, Repr

/-- The name of a type. -/
def CompiledType.name : CompiledType → Text
  | .made manifest => manifest.typeName
  | .named name => name

/-- The outcome of compiling a template. -/
inductive CompilationResult
  | success (type : CompiledType) (precompiled : Bool)
  | failure (failures : List Failure)
deriving DecidableEq, Repr

/-- A template and the candidates for its imports. -/
structure TemplateUnit where
  item : Item
  imports : List Item
deriving DecidableEq, Repr

namespace TemplateUnit

/-- The unit of a path: the item, then the candidates from the root downwards. -/
def resolve (options : Options) (kind : ImportsKind) (path : Text) : Inquiry TemplateUnit :=
  (Inquiry.itemAt path).andThen fun item =>
    (Inquiry.each Inquiry.itemAt (hierarchicalCandidates item.path (options.importName kind))).andThen
      fun imports => .answer ⟨item, imports⟩

/-- The paths whose change makes the unit out of date. -/
def watched (unit : TemplateUnit) : List Text := unit.item.path :: unit.imports.map (·.path)

/-- Reads an item as a document. -/
def read (item : Item) : Inquiry (Except Unreadable SourceDocument) :=
  (Inquiry.textOf item).andThen fun
    | .ok content => .answer (.ok ⟨some item.path, content⟩)
    | .error fault => .answer (.error ⟨item.path, fault⟩)

/-- Reads items until one cannot be read. -/
def readAll : List Item → Inquiry (Except Unreadable (List SourceDocument))
  | [] => .answer (.ok [])
  | first :: rest =>
    (read first).andThen fun
      | .error unreadable => .answer (.error unreadable)
      | .ok document => (readAll rest).andThen fun
        | .error unreadable => .answer (.error unreadable)
        | .ok documents => .answer (.ok (document :: documents))

/-- The template and its existing imports, read in this order. -/
def document (options : Options) (unit : TemplateUnit) : Inquiry (Except Unreadable CodeDocument) :=
  (read unit.item).andThen fun
    | .error unreadable => .answer (.error unreadable)
    | .ok source => (readAll (unit.imports.filter (·.present))).andThen fun
      | .error unreadable => .answer (.error unreadable)
      | .ok imports => .answer (.ok ⟨source, options.defaultDocument :: imports, unit.item.path⟩)

end TemplateUnit

namespace Failure

/-- The content of a file to show with its faults, if it can be read. -/
def contentOf (path : Text) : Inquiry (Option Text) :=
  (Inquiry.itemAt path).andThen fun item =>
    if item.present then
      (Inquiry.textOf item).andThen fun
        | .ok content => .answer (some content)
        | .error _ => .answer none
    else .answer none

/-- The failures of template errors. -/
def ofErrors (template : Text) (errors : List TemplateError) : Inquiry (List Failure) :=
  Inquiry.each (fun group => (contentOf group.1).andThen fun content => .answer (ofErrorGroup content group))
    (grouped (fileOfError template) errors)

/-- The failures of diagnostics. -/
def ofDiagnostics (template code : Text) (diagnostics : List Diagnostic) : Inquiry (List Failure) :=
  Inquiry.each
    (fun group => (contentOf group.1).andThen fun content => .answer (ofDiagnosticGroup code content group))
    (grouped (fileOfDiagnostic template) diagnostics)

end Failure

namespace CompilationResult

/-- Compiles a document. -/
def ofDocument (options : Options) (document : CodeDocument) : Inquiry CompilationResult :=
  match PageClass.generate document with
  | ⟨code, []⟩ =>
    match Manifest.check options.references code with
    | .ok manifest => .answer (.success (.made manifest) false)
    | .error diagnostics =>
      (Failure.ofDiagnostics document.path code diagnostics).andThen fun failures => .answer (.failure failures)
  | ⟨_, errors⟩ => (Failure.ofErrors document.path errors).andThen fun failures => .answer (.failure failures)

/-- Compiles a unit, unless a source cannot be read. -/
def attempt (options : Options) (unit : TemplateUnit) : Inquiry (Except Unreadable CompilationResult) :=
  (unit.document options).andThen fun
    | .error unreadable => .answer (.error unreadable)
    | .ok document => (ofDocument options document).andThen fun result => .answer (.ok result)

/-- A source that cannot be read is a failure too. -/
def settle : Except Unreadable CompilationResult → CompilationResult
  | .ok result => result
  | .error unreadable => .failure [Failure.ofUnreadable unreadable]

/-- What there is to note about an attempt. -/
def notes : Except Unreadable CompilationResult → List Event
  | .ok _ => []
  | .error unreadable => [.unreadable unreadable.display]

/-- Compiles a unit. -/
def ofUnit (options : Options) (unit : TemplateUnit) : Inquiry CompilationResult :=
  (attempt options unit).andThen fun attempted => .answer (settle attempted)

end CompilationResult

end ViewCompiler

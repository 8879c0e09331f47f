import ViewCompiler.Digest
import ViewCompiler.PageModel
import ViewCompiler.Path.Logical
import ViewCompiler.Text.Utf8

/-!
# The page class of a template

The merged directives and the markup of a template are written as a class, line by
line. A line that a directive is answerable for stands between two pragmas: one that
names the directive's place, and one that ends the naming. The first line names the
template and the digest of its text.

A template with an error, its own or one of its imports, has no class.
-/

namespace ViewCompiler

open Text

/-- The class of a template, or the errors that prevent it. -/
structure Generated where
  code : Text := []
  errors : List TemplateError := []
deriving DecidableEq, Repr

namespace PageClass

/-- The name of the class of a template: its path without the last extension, with `_`
for everything but ASCII letters and digits, and a `_` before a leading digit. -/
def className (path : Text) : Text :=
  let stem := Logical.stem (path.dropWhile (· == '/'))
  let name := stem.map fun char => if char.isAlphanum then char else '_'
  match name with
  | [] => ['_']
  | first :: _ => if first.isDigit then '_' :: name else name

/-- A character inside a literal. -/
def escapeChar (char : Char) : Text :=
  if char = '\\' then ['\\', '\\'] else if char = '"' then ['\\', '"'] else [char]

/-- A text inside a literal: backslashes and quotes get a backslash in front. -/
def escape (text : Text) : Text := text.flatMap escapeChar

/-- A line that is indented so many levels. -/
def indented (level : Nat) (text : Text) : Text := List.replicate (4 * level) ' ' ++ text

/-- The pragma that names a place. -/
def linePragma (span : Span) : Text :=
  "#line (" ++ decimal span.line ++ "," ++ decimal span.column ++ ")-(" ++ decimal span.line ++ "," ++
    decimal span.endColumn ++ ") \"" ++ span.file ++ "\""

/-- A line with the pragmas that its place asks for. -/
def mapped (level : Nat) (span : Option Span) (text : Text) : List Text :=
  match span with
  | some span => [linePragma span, indented level text, "#line default"]
  | none => [indented level text]

/-- The line that fills in a property. -/
def injectionLine (model : Text) (injection : Injection) : Text :=
  "[RazorInject] public " ++ PageModel.substitute model injection.type ++ " " ++ injection.name ++
    " \x7b get; private set; \x7d"

/-- Whether a line of markup is written at all. -/
def isWritten (text : Text) : Bool := !(trim text).isEmpty

/-- The lines of the class. -/
def lines (page : PageModel) (markup : List (Nat × Text)) (source path : Text) : List Text :=
  ["#pragma checksum \"" ++ path ++ "\" \"\x7bblake3\x7d\" \"" ++ (Digest.ofOctets (Utf8.encode source)).hex ++ "\"",
    "namespace " ++ (match page.within with | some name => name.value | none => "AspNetCore"),
    "\x7b"] ++
  page.opened.flatMap (fun opened => mapped 1 opened.span ("using " ++ opened.value ++ ";")) ++
  page.route.toList.map (fun route => indented 1 ("[RazorPage(\"" ++ escape route ++ "\")]")) ++
  page.tagHelpers.map (fun helper => indented 1 ("[AddTagHelper(\"" ++ escape helper ++ "\")]")) ++
  mapped 1 page.baseType.span ("public class " ++ className path ++ " : " ++ page.baseType.value) ++
  [indented 1 "\x7b"] ++
  page.tagHelperPrefix.toList.map (fun lead =>
    indented 2 ("public const string TagHelperPrefix = \"" ++ escape lead ++ "\";")) ++
  page.injections.flatMap (fun injection =>
    mapped 2 injection.span (injectionLine page.modelType injection)) ++
  [indented 2 "public override async Task ExecuteAsync()", indented 2 "\x7b"] ++
  ((markup.map (·.2)).filter isWritten).map (fun text =>
    indented 3 ("WriteLiteral(\"" ++ escape text ++ "\");")) ++
  [indented 2 "\x7d", indented 1 "\x7d", "\x7d"]

/-- The class as text. -/
def render (page : PageModel) (markup : List (Nat × Text)) (source path : Text) : Text :=
  (lines page markup source path).flatMap (· ++ ['\n'])

/-- The scans of the imports, each with the file it is attributed to. -/
def scanImports (document : CodeDocument) : List (Option Text × Scanned) :=
  document.imports.map fun source => (source.file, Scanned.ofDocument source source.file true)

/-- The scan of the template. Its errors name no file: they are in the template. -/
def scanTemplate (document : CodeDocument) : Scanned := Scanned.ofDocument document.source none false

/-- The directives of a template and its imports, merged. -/
def modelOf (document : CodeDocument) : PageModel :=
  let page : PageModel :=
    (scanImports document).foldl (fun page (file, scanned) => PageModel.merge page file scanned.directives) {}
  page.merge (some document.path) (scanTemplate document).directives

/-- The errors of a template and its imports, imports first. -/
def errorsOf (document : CodeDocument) : List TemplateError :=
  (scanImports document).flatMap (·.2.errors) ++ (scanTemplate document).errors

/-- The class of a template, or its errors. -/
def generate (document : CodeDocument) : Generated :=
  match errorsOf document with
  | [] =>
    let template := scanTemplate document
    { code := render (modelOf document) template.markup document.source.content document.path }
  | errors => { errors }

end PageClass

end ViewCompiler

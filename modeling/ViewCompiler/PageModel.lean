import ViewCompiler.Directive.Scan

/-!
# What the directives of a template and its imports say together

Directives are applied document by document, imports first. A namespace is opened once,
where it was first opened. A property is filled in once, as the last directive for its
name says, but stands where its first one stood. Model, base type, namespace, route
and prefix are what was said last. A tag helper is added every time and removed with
all its earlier additions.

Every value keeps the place it came from, for values that came from a file.
-/

namespace ViewCompiler

open Text

/-- The columns of a directive on a line of a file, all counted from one. -/
structure Span where
  file : Text
  line : Nat
  column : Nat
  endColumn : Nat
deriving DecidableEq, Repr

/-- A value and where it came from. -/
structure Sourced where
  value : Text
  span : Option Span
deriving DecidableEq, Repr

/-- A property that is filled in when a page is made. -/
structure Injection where
  type : Text
  name : Text
  span : Option Span
deriving DecidableEq, Repr

/-- The directives of a template and its imports, merged. -/
structure PageModel where
  within : Option Sourced := none
  opened : List Sourced := []
  injections : List Injection := []
  model : Option Sourced := none
  base : Option Sourced := none
  route : Option Text := none
  tagHelpers : List Text := []
  tagHelperPrefix : Option Text := none
deriving DecidableEq, Repr

namespace PageModel

/-- Where a directive stands, if its document has a file. -/
def spanOf (file : Option Text) (directive : Directive) : Option Span :=
  file.map fun file => ⟨file, directive.line + 1, directive.column + 1, directive.endColumn + 1⟩

/-- An injection in the place of the earlier one of its name, or at the end. -/
def inject (injection : Injection) : List Injection → List Injection
  | [] => [injection]
  | first :: rest =>
    if first.name = injection.name then injection :: rest else first :: inject injection rest

/-- The type and the name that the value of an injection gives. -/
def injection? (value : Text) (span : Option Span) : Option Injection :=
  (cutLast? isBlank value).map fun (type, name) => ⟨trim type, name, span⟩

/-- The model after one more directive of a document. -/
def apply (file : Option Text) (page : PageModel) (directive : Directive) : PageModel :=
  let value := directive.value
  let span := spanOf file directive
  match directive.kind with
  | .opens =>
    if page.opened.any (·.value = value) then page
    else { page with opened := page.opened ++ [⟨value, span⟩] }
  | .inject =>
    match injection? value span with
    | none => page
    | some injection => { page with injections := inject injection page.injections }
  | .model => { page with model := some ⟨value, span⟩ }
  | .inherits => { page with base := some ⟨value, span⟩ }
  | .within => { page with within := some ⟨value, span⟩ }
  | .page => { page with route := some value }
  | .addTagHelper => { page with tagHelpers := page.tagHelpers ++ [value] }
  | .removeTagHelper => { page with tagHelpers := page.tagHelpers.filter (· ≠ value) }
  | .tagHelperPrefix => { page with tagHelperPrefix := some value }

/-- The model after all directives of a document. -/
def merge (page : PageModel) (file : Option Text) (directives : List Directive) : PageModel :=
  directives.foldl (apply file) page

/-- The type of the model; without a directive it is left open. -/
def modelType (page : PageModel) : Text :=
  match page.model with
  | some model => model.value
  | none => "dynamic"

/-- A type with the model's type in the place of its placeholder. -/
def substitute (model type : Text) : Text := exchange "<TModel>" ('<' :: model ++ ['>']) 0 type

/-- The base type of a view without a directive of its own. -/
def viewBase : Text := "Microsoft.AspNetCore.Mvc.Razor.RazorPage<TModel>"

/-- The base type of a page without a directive of its own. -/
def pageBase : Text := "Microsoft.AspNetCore.Mvc.RazorPages.Page"

/-- The base type with the model filled in, and the directive that is answerable for
it. The base of a page is nobody's. -/
def baseType (page : PageModel) : Sourced :=
  match page.base, page.route with
  | some base, _ => ⟨substitute page.modelType base.value, base.span⟩
  | none, some _ => ⟨pageBase, none⟩
  | none, none => ⟨substitute page.modelType viewBase, page.model.bind (·.span)⟩

end PageModel

end ViewCompiler

import ViewCompiler.PageModel
import ViewCompiler.PageClass
import ViewCompiler.Proofs.Text.Cutting

/-!
# Where the values of a page come from

Every value of a merged page was supplied by a directive of its kind, and the place it
carries is the place of that directive: its file, its line and its columns, or no place
if its document has no file. Merging may leave a value out, but it makes none up and
moves no place from one value to another.
-/

namespace ViewCompiler

open Text

/-- Which directives there are, each with the file that its document is attributed to. -/
abbrev DirectiveSource := Option Text → Directive → Prop

namespace PageModel

/-- One of the directives has this kind, this value and this place. -/
def Supplies (source : DirectiveSource) (kind : DirectiveKind) (value : Text) (span : Option Span) :
    Prop :=
  ∃ file directive, source file directive ∧ directive.kind = kind ∧ directive.value = value ∧
    spanOf file directive = span

/-- Every value of a page comes from a directive, with its place. -/
structure SuppliedBy (source : DirectiveSource) (page : PageModel) : Prop where
  within : ∀ name, page.within = some name → Supplies source .within name.value name.span
  opened : ∀ opened ∈ page.opened, Supplies source .opens opened.value opened.span
  injections : ∀ injection ∈ page.injections, ∃ value,
    Supplies source .inject value injection.span ∧ injection? value injection.span = some injection
  model : ∀ model, page.model = some model → Supplies source .model model.value model.span
  base : ∀ base, page.base = some base → Supplies source .inherits base.value base.span
  route : ∀ route, page.route = some route → ∃ span, Supplies source .page route span
  tagHelpers : ∀ helper ∈ page.tagHelpers, ∃ span, Supplies source .addTagHelper helper span
  tagHelperPrefix : ∀ lead, page.tagHelperPrefix = some lead →
    ∃ span, Supplies source .tagHelperPrefix lead span

variable {source : DirectiveSource} {page : PageModel}

/-- A page without directives has no values. -/
theorem empty_supplied (source : DirectiveSource) : SuppliedBy source {} := by
  constructor <;> simp

/-- A property has its type and its name from the two sides of the last blank of a value. -/
theorem injection?_parts {value : Text} {span : Option Span} {injection : Injection}
    (read : injection? value span = some injection) :
    injection.span = span ∧ (∀ char ∈ injection.name, isBlank char = false) ∧
      ∃ before mark, value = before ++ mark :: injection.name ∧ injection.type = trim before := by
  obtain ⟨⟨before, after⟩, cut, rfl⟩ := Option.map_eq_some_iff.mp read
  obtain ⟨⟨mark, sides⟩, solid⟩ := cutLast?_sides cut
  exact ⟨rfl, solid, before, mark, sides, rfl⟩

/-- An injection that is entered takes the place of another one or the end. -/
theorem mem_inject {injection other : Injection} {injections : List Injection}
    (member : other ∈ inject injection injections) : other = injection ∨ other ∈ injections := by
  induction injections with
  | nil => simpa [inject] using member
  | cons first rest inductionHypothesis =>
    simp only [inject] at member
    split at member
    · rcases List.mem_cons.mp member with same | later
      · exact .inl same
      · exact .inr (by simp [later])
    · rcases List.mem_cons.mp member with same | later
      · exact .inr (by simp [same])
      · exact (inductionHypothesis later).imp_right fun kept => by simp [kept]

/-- One more directive supplies at most its own value. -/
theorem apply_supplied {file : Option Text} {directive : Directive}
    (supplied : SuppliedBy source page) (given : source file directive) :
    SuppliedBy source (apply file page directive) := by
  have own : Supplies source directive.kind directive.value (spanOf file directive) :=
    ⟨file, directive, given, rfl, rfl, rfl⟩
  cases kind : directive.kind <;> rw [kind] at own <;> simp only [apply, kind]
  case opens =>
    split
    · exact supplied
    · refine { supplied with opened := ?_ }
      intro opened member
      rcases List.mem_append.mp member with earlier | last
      · exact supplied.opened opened earlier
      · obtain rfl := List.mem_singleton.mp last
        exact own
  case inject =>
    split
    · exact supplied
    · rename_i injection read
      refine { supplied with injections := ?_ }
      intro other member
      rcases mem_inject member with rfl | earlier
      · have placed : other.span = spanOf file directive := (injection?_parts read).1
        exact ⟨directive.value, placed ▸ own, placed ▸ read⟩
      · exact supplied.injections other earlier
  case model => exact { supplied with model := by rintro _ ⟨⟩; exact own }
  case inherits => exact { supplied with base := by rintro _ ⟨⟩; exact own }
  case within => exact { supplied with within := by rintro _ ⟨⟩; exact own }
  case page => exact { supplied with route := by rintro _ ⟨⟩; exact ⟨_, own⟩ }
  case addTagHelper =>
    refine { supplied with tagHelpers := ?_ }
    intro helper member
    rcases List.mem_append.mp member with earlier | last
    · exact supplied.tagHelpers helper earlier
    · obtain rfl := List.mem_singleton.mp last
      exact ⟨_, own⟩
  case removeTagHelper =>
    refine { supplied with tagHelpers := ?_ }
    intro helper member
    exact supplied.tagHelpers helper (List.mem_filter.mp member).1
  case tagHelperPrefix => exact { supplied with tagHelperPrefix := by rintro _ ⟨⟩; exact ⟨_, own⟩ }

/-- Merging the directives of a document supplies their values. -/
theorem merge_supplied {file : Option Text} {directives : List Directive}
    (supplied : SuppliedBy source page) (given : ∀ directive ∈ directives, source file directive) :
    SuppliedBy source (merge page file directives) := by
  induction directives generalizing page with
  | nil => exact supplied
  | cons directive rest inductionHypothesis =>
    exact inductionHypothesis (apply_supplied supplied (given directive (by simp)))
      fun other member => given other (by simp [member])

/-- The base type of a page comes from the directive for it, the one of a view without
such a directive from the directive of the model, and otherwise from nowhere. -/
def BaseSuppliedBy (source : DirectiveSource) (page : PageModel) : Prop :=
  match page.base, page.route, page.model with
  | some base, _, _ => Supplies source .inherits base.value page.baseType.span
  | none, none, some model => Supplies source .model model.value page.baseType.span
  | _, _, _ => page.baseType.span = none

/-- A page that has its values from directives has its base type from them as well. -/
theorem baseType_supplied (supplied : SuppliedBy source page) : BaseSuppliedBy source page := by
  unfold BaseSuppliedBy baseType
  cases ofBase : page.base with
  | some base => exact supplied.base base ofBase
  | none =>
    cases page.route with
    | some route => rfl
    | none =>
      cases ofModel : page.model with
      | some model => exact supplied.model model ofModel
      | none => rfl

end PageModel

/-- The directives of a template and its imports. The template's file is the path of
the document. -/
def CodeDocument.directives (document : CodeDocument) : DirectiveSource := fun file directive =>
  (∃ source ∈ document.imports, file = source.file ∧
    directive ∈ (Scanned.ofDocument source source.file true).directives) ∨
  (file = some document.path ∧ directive ∈ (PageClass.scanTemplate document).directives)

/-- The page of a document has its values from the directives of the template and its
imports. -/
theorem PageClass.modelOf_supplied (document : CodeDocument) :
    (PageClass.modelOf document).SuppliedBy document.directives := by
  have imports (sources : List SourceDocument) (page : PageModel)
      (supplied : page.SuppliedBy document.directives)
      (among : ∀ source ∈ sources, source ∈ document.imports) :
      ((sources.map fun source => (source.file, Scanned.ofDocument source source.file true)).foldl
        (fun page read => PageModel.merge page read.1 read.2.directives) page).SuppliedBy
        document.directives := by
    induction sources generalizing page with
    | nil => exact supplied
    | cons source rest inductionHypothesis =>
      refine inductionHypothesis _ (PageModel.merge_supplied supplied ?_) fun other member =>
        among other (by simp [member])
      intro directive member
      exact .inl ⟨source, among source (by simp), rfl, member⟩
  refine PageModel.merge_supplied ?_ fun directive member => .inr ⟨rfl, member⟩
  exact imports document.imports {} (PageModel.empty_supplied _) fun source member => member

end ViewCompiler

import ViewCompiler.Proofs.PageClass.Attributes
import ViewCompiler.Proofs.PageModel.Supplied
import ViewCompiler.Proofs.Text.Occurrence

/-!
# How directives are merged

The directives of the imports and of the template are applied one after the other, and each
kind has its rule. Of the namespace, the model, the base type and the prefix the last directive
counts. Namespaces are opened in the order in which they were first named, each where it was
first named. Properties stand in that order too, but each is what the last directive for its
name makes it, and no accepted directive for a property is left out: what is accepted has a
blank to be cut at, and taking off its quotes does not take that. Tag helpers are those that
were added and not removed later, and the route is that of the template.
-/

namespace ViewCompiler

open Text

/-! ## Accepted properties -/

/-- Nothing but quotes is taken off a value. -/
theorem mem_unquote {value : Text} {char : Char} (member : char ∈ value) (other : char ≠ '"') :
    char ∈ unquote value := by
  unfold unquote
  split
  · rename_i inner
    cases found : beforeTail? ['"'] inner with
    | none => exact member
    | some front =>
      have shape : inner = front ++ ['"'] := beforeTail?_eq_some_iff.mp found
      simpa [shape, other] using member
  · exact member

/-- What is accepted for a property has a blank to be cut at. -/
theorem Directive.fault?_injection {accepted : List DirectiveKind} {inImport : Bool} {value : Text}
    (sound : fault? accepted inImport .inject value = none) :
    ∃ char ∈ value, isBlank char = true := by
  by_contra! solid
  have uncut : cutLast? isBlank value = none :=
    cutLast?_eq_none_iff.mpr fun char member => eq_false_of_ne_true (solid char member)
  have refused : (fault? accepted inImport .inject value).isSome := by
    unfold fault?
    grind
  simp [sound] at refused

/-- An accepted directive for a property gives one. -/
theorem Scanned.directive_injection {source : Source} {line offset : Nat}
    {block : Option OpenBlock} {accepted : List DirectiveKind} {rows : List Text}
    {directive : Directive}
    (member : directive ∈ (scanRows source line offset block accepted rows).directives)
    (kind : directive.kind = .inject) (span : Option Span) :
    ∃ injection, PageModel.injection? directive.value span = some injection := by
  obtain ⟨index, row, written, known, -, -, -, sound, rfl⟩ := directive_origin member
  have injects : written.kind = .inject := kind
  rw [injects] at sound
  obtain ⟨blank, among, marked⟩ := Directive.fault?_injection sound
  have unquoted : blank ∈ unquote (trim written.rest) := by
    apply mem_unquote among
    rintro rfl
    exact absurd marked (by decide)
  have divided : cutLast? isBlank (unquote (trim written.rest)) ≠ none := by
    intro uncut
    simp [cutLast?_eq_none_iff.mp uncut blank unquoted] at marked
  obtain ⟨sides, cut⟩ := Option.ne_none_iff_exists'.mp divided
  exact ⟨_, Option.map_eq_some_iff.mpr ⟨sides, cut, rfl⟩⟩

/-! ## Directives that are given -/

/-- The value of a directive of a kind, with its place. -/
def PageModel.sourced? (kind : DirectiveKind) (entry : Option Text × Directive) : Option Sourced :=
  if entry.2.kind = kind then some ⟨entry.2.value, spanOf entry.1 entry.2⟩ else none

namespace CodeDocument

/-- The values of the directives of a kind, those of the imports before those of the template,
each with its place. -/
def values (document : CodeDocument) (kind : DirectiveKind) : List Sourced :=
  document.attributed.filterMap (PageModel.sourced? kind)

/-- The properties that the directives for one give, in the same order. -/
def properties (document : CodeDocument) : List Injection :=
  (document.values .inject).filterMap fun given => PageModel.injection? given.value given.span

/-- Every directive of a document was accepted by a scan of the imports or of the template. -/
theorem mem_attributed {document : CodeDocument} {entry : Option Text × Directive}
    (member : entry ∈ document.attributed) :
    ∃ source file inImport, entry.2 ∈ (Scanned.ofDocument source file inImport).directives := by
  rcases List.mem_append.mp member with imported | own
  · obtain ⟨source, -, inside⟩ := List.mem_flatMap.mp imported
    obtain ⟨directive, scanned, rfl⟩ := List.mem_map.mp inside
    exact ⟨_, _, _, scanned⟩
  · obtain ⟨directive, scanned, rfl⟩ := List.mem_map.mp own
    exact ⟨_, _, _, scanned⟩

/-- None of the values given for a property is left out of the properties. -/
theorem values_inject {document : CodeDocument} {given : Sourced}
    (member : given ∈ document.values .inject) :
    ∃ property, PageModel.injection? given.value given.span = some property ∧
      property ∈ document.properties := by
  obtain ⟨entry, among, gives⟩ := List.mem_filterMap.mp member
  unfold PageModel.sourced? at gives
  split at gives
  · rename_i kind
    obtain rfl := Option.some.inj gives
    obtain ⟨source, file, inImport, scanned⟩ := mem_attributed among
    obtain ⟨property, read⟩ := Scanned.directive_injection scanned kind
      (PageModel.spanOf entry.1 entry.2)
    exact ⟨property, read, List.mem_filterMap.mpr ⟨_, member, read⟩⟩
  · simp at gives

end CodeDocument

namespace PageModel

/-! ## Namespaces -/

/-- What is opened, with one more namespace unless it is among them. -/
def openAlso (opened : List Sourced) (new : Sourced) : List Sourced :=
  if opened.any (·.value = new.value) then opened else opened ++ [new]

/-- A directive that opens a namespace adds it unless it is open, and no other directive opens one.
-/
theorem apply_opened (page : PageModel) (entry : Option Text × Directive) :
    (apply entry.1 page entry.2).opened =
      (sourced? .opens entry).elim page.opened (openAlso page.opened) := by
  unfold apply sourced?
  cases entry.2.kind with
  | opens =>
    simp only [↓reduceIte, Option.elim_some, openAlso]
    split <;> rfl
  | inject =>
    dsimp only
    split <;> rfl
  | _ => rfl

/-- Namespaces are opened in the order in which they are first named, each where it is first
named. -/
theorem foldl_openAlso (given : List Sourced) :
    (given.foldl openAlso []).map (·.value) = (given.map (·.value)).eraseDups ∧
      ∀ opened ∈ given.foldl openAlso [], given.find? (·.value = opened.value) = some opened := by
  induction given using List.reverseRecOn with
  | nil => exact ⟨rfl, by simp⟩
  | append_singleton given new inductionHypothesis =>
    obtain ⟨names, first⟩ := inductionHypothesis
    have known : (given.foldl openAlso []).any (·.value = new.value) = true ↔
        new.value ∈ given.map (·.value) := by
      rw [← List.mem_eraseDups, ← names]
      simp
    have earlier {opened : Sourced} (member : opened ∈ given.foldl openAlso []) :
        (given ++ [new]).find? (·.value = opened.value) = some opened := by
      rw [List.find?_append, first opened member, Option.some_or]
    rw [List.foldl_concat, List.map_append, List.map_singleton, eraseDups_concat, openAlso]
    by_cases repeated : new.value ∈ given.map (·.value)
    · rw [if_pos (known.mpr repeated), if_pos repeated]
      exact ⟨names, fun opened member => earlier member⟩
    · rw [if_neg (mt known.mp repeated), if_neg repeated, List.map_append, names]
      refine ⟨rfl, ?_⟩
      intro opened member
      rcases List.mem_append.mp member with before | last
      · exact earlier before
      · obtain rfl := List.mem_singleton.mp last
        have absent : given.find? (·.value = opened.value) = none := by
          rw [List.find?_eq_none]
          intro other among same
          exact repeated (of_decide_eq_true same ▸ List.mem_map_of_mem among)
        rw [List.find?_append, absent, Option.none_or]
        simp

/-! ## Properties -/

/-- A directive for a property gives one if its value can be read as a type and a name, and no other
directive does. -/
theorem apply_injections (page : PageModel) (entry : Option Text × Directive) :
    (apply entry.1 page entry.2).injections =
      ((sourced? .inject entry).bind fun given => injection? given.value given.span).elim
        page.injections fun injection => inject injection page.injections := by
  unfold apply sourced?
  cases entry.2.kind with
  | inject =>
    simp only [↓reduceIte, Option.bind_some]
    cases injection? entry.2.value (spanOf entry.1 entry.2) <;> rfl
  | opens =>
    dsimp only
    split <;> rfl
  | _ => rfl

/-- A property that is entered takes the place of the one of its name, or the end. -/
theorem inject_names (injection : Injection) (injections : List Injection) :
    (inject injection injections).map (·.name) =
      if injection.name ∈ injections.map (·.name) then injections.map (·.name)
      else injections.map (·.name) ++ [injection.name] := by
  induction injections with
  | nil => rfl
  | cons first rest inductionHypothesis =>
    simp only [inject]
    by_cases same : first.name = injection.name
    · simp [same]
    · simp only [same, ↓reduceIte, List.map_cons, inductionHypothesis, List.mem_cons,
        Ne.symm same, false_or]
      split <;> rfl

/-- If no name stands twice, none of the others has its name. -/
theorem inject_apart {injection other : Injection} {injections : List Injection}
    (single : (injections.map (·.name)).Nodup) (member : other ∈ inject injection injections) :
    other = injection ∨ other ∈ injections ∧ other.name ≠ injection.name := by
  induction injections with
  | nil => exact .inl (by simpa [inject] using member)
  | cons first rest inductionHypothesis =>
    obtain ⟨alone, others⟩ := List.nodup_cons.mp single
    simp only [inject] at member
    split at member
    · rename_i same
      rcases List.mem_cons.mp member with new | among
      · exact .inl new
      · refine .inr ⟨List.mem_cons_of_mem first among, ?_⟩
        intro equal
        have again : other.name ∈ rest.map (·.name) := List.mem_map_of_mem among
        rw [equal, ← same] at again
        exact alone again
    · rename_i differs
      rcases List.mem_cons.mp member with rfl | among
      · exact .inr ⟨List.mem_cons_self, differs⟩
      · exact (inductionHypothesis others among).imp_right
          (And.imp_left (List.mem_cons_of_mem first))

/-- Properties stand in the order in which they are first named, and each is what is given
last for its name. -/
theorem foldl_inject (given : List Injection) :
    let injections := given.foldl (fun injections injection => inject injection injections) []
    injections.map (·.name) = (given.map (·.name)).eraseDups ∧
      ∀ injection ∈ injections, given.reverse.find? (·.name = injection.name) = some injection := by
  induction given using List.reverseRecOn with
  | nil => exact ⟨rfl, by simp⟩
  | append_singleton given new inductionHypothesis =>
    intro injections
    obtain ⟨names, last⟩ := inductionHypothesis
    have step : injections = inject new
        (given.foldl (fun injections injection => inject injection injections) []) :=
      List.foldl_concat ..
    constructor
    · rw [step, inject_names, names, List.map_append, List.map_singleton, eraseDups_concat]
      simp only [List.mem_eraseDups]
    · intro injection member
      have single := nodup_eraseDups (given.map (·.name))
      rw [← names] at single
      rw [step] at member
      rw [List.reverse_concat]
      rcases inject_apart single member with rfl | ⟨kept, differs⟩
      · simp
      · rw [List.find?_cons_of_neg (by simpa using Ne.symm differs)]
        exact last injection kept

end PageModel

/-! ## The whole model -/

/-- What the model of a page is, told by all directives of its document at once. -/
structure CodeDocument.MergedTo (document : CodeDocument) (page : PageModel) : Prop where
  within : page.within = (document.values .within).getLast?
  model : page.model = (document.values .model).getLast?
  base : page.base = (document.values .inherits).getLast?
  tagHelperPrefix :
    page.tagHelperPrefix = ((document.values .tagHelperPrefix).map (·.value)).getLast?
  /-- The namespaces in the order of their first occurrences. -/
  opened : page.opened.map (·.value) = ((document.values .opens).map (·.value)).eraseDups
  /-- Each of them where it occurs first. -/
  openedFirst : ∀ opened ∈ page.opened,
    (document.values .opens).find? (·.value = opened.value) = some opened
  /-- The properties in the order in which they are first named. -/
  injections : page.injections.map (·.name) = (document.properties.map (·.name)).eraseDups
  injectedOnce : (page.injections.map (·.name)).Nodup
  /-- Each of them as the last directive for it has it. -/
  injectedLast : ∀ injection ∈ page.injections,
    document.properties.reverse.find? (·.name = injection.name) = some injection
  /-- No accepted directive for a property is dropped. -/
  injectedAll : ∀ given ∈ document.values .inject, ∃ property,
    PageModel.injection? given.value given.span = some property ∧
      property.name ∈ page.injections.map (·.name)
  tagHelpers : page.tagHelpers = document.tagHelpers
  route : page.route.toList = document.routes

namespace PageModel

/-- A directive of some kinds takes the place of the one before. -/
theorem apply_replaces (page : PageModel) (entry : Option Text × Directive) :
    let after := apply entry.1 page entry.2
    after.within = (sourced? .within entry).or page.within ∧
      after.model = (sourced? .model entry).or page.model ∧
      after.base = (sourced? .inherits entry).or page.base ∧
      after.tagHelperPrefix =
        ((sourced? .tagHelperPrefix entry).map (·.value)).or page.tagHelperPrefix := by
  unfold apply sourced?
  cases entry.2.kind <;> grind

end PageModel

namespace PageClass

open PageModel

variable (document : CodeDocument)

/-- Of the kinds that replace each other the last directive counts. -/
theorem modelOf_last :
    (modelOf document).within = (document.values .within).getLast? ∧
      (modelOf document).model = (document.values .model).getLast? ∧
      (modelOf document).base = (document.values .inherits).getLast? ∧
      (modelOf document).tagHelperPrefix =
        ((document.values .tagHelperPrefix).map (·.value)).getLast? := by
  have last {β : Type} (part : PageModel → Option β) (gives : Option Text × Directive → Option β)
      (replaces : ∀ page entry, part (apply entry.1 page entry.2) = (gives entry).or (part page))
      (empty : part {} = none) :
      part (modelOf document) = (document.attributed.filterMap gives).getLast? := by
    rw [modelOf_eq_applyAll, applyAll_last part gives replaces, empty, Option.or_none]
  refine ⟨?_, ?_, ?_, ?_⟩
  · exact last (·.within) _ (fun page entry => (apply_replaces page entry).1) rfl
  · exact last (·.model) _ (fun page entry => (apply_replaces page entry).2.1) rfl
  · exact last (·.base) _ (fun page entry => (apply_replaces page entry).2.2.1) rfl
  · rw [CodeDocument.values, List.map_filterMap]
    exact last (·.tagHelperPrefix) _ (fun page entry => (apply_replaces page entry).2.2.2) rfl

/-- The namespaces of a page are opened one by one, in the order of their directives. -/
theorem modelOf_opened :
    (modelOf document).opened = (document.values .opens).foldl openAlso [] := by
  rw [modelOf_eq_applyAll]
  exact applyAll_fold (·.opened) _ openAlso apply_opened {} document.attributed

/-- Its properties are given one by one, in the same order. -/
theorem modelOf_injections : (modelOf document).injections =
    document.properties.foldl (fun injections injection => inject injection injections) [] := by
  rw [modelOf_eq_applyAll, CodeDocument.properties, CodeDocument.values, List.filterMap_filterMap]
  exact applyAll_fold (·.injections) _ _ apply_injections {} document.attributed

/-- The model of a page is that of all directives of its imports and its template, the kinds
merged by their rules. -/
theorem modelOf_merged : document.MergedTo (modelOf document) := by
  obtain ⟨within, model, base, tagHelperPrefix⟩ := modelOf_last document
  obtain ⟨opened, openedFirst⟩ := foldl_openAlso (document.values .opens)
  rw [← modelOf_opened] at opened openedFirst
  obtain ⟨injections, injectedLast⟩ := foldl_inject document.properties
  rw [← modelOf_injections] at injections injectedLast
  constructor
  case injectedOnce =>
    rw [injections]
    exact nodup_eraseDups _
  case injectedAll =>
    intro given member
    obtain ⟨property, read, among⟩ := CodeDocument.values_inject member
    refine ⟨property, read, ?_⟩
    rw [injections, List.mem_eraseDups]
    exact List.mem_map_of_mem among
  case tagHelpers => exact modelOf_tagHelpers document
  case route => exact modelOf_route document
  all_goals assumption

/-- A template overrides what two imports say, and the second import what the first one says,
each in the place where it was said first. -/
theorem modelOf_merged_overriding :
    let outer : Text := "@namespace App\n@model Ignored\n@using App\n" ++
      "@inject ISystemClock Clock\n@addTagHelper *, App"
    let inner : Text := "@namespace App.Views\n@using App.Models\n@inject IHost Host\n" ++
      "@addTagHelper *, Extra"
    let template : Text := "@model Home\n@using App\n@inject IClock Clock\n@removeTagHelper *, App"
    let document : CodeDocument := ⟨⟨none, template⟩, [⟨some "/_ViewImports.cshtml", outer⟩,
      ⟨some "/Views/_ViewImports.cshtml", inner⟩], "/Views/Home.cshtml"⟩
    document.MergedTo {
      within := some ⟨"App.Views", some ⟨"/Views/_ViewImports.cshtml", 1, 1, 21⟩⟩
      opened := [⟨"App", some ⟨"/_ViewImports.cshtml", 3, 1, 11⟩⟩,
        ⟨"App.Models", some ⟨"/Views/_ViewImports.cshtml", 2, 1, 18⟩⟩]
      injections := [⟨"IClock", "Clock", some ⟨"/Views/Home.cshtml", 3, 1, 21⟩⟩,
        ⟨"IHost", "Host", some ⟨"/Views/_ViewImports.cshtml", 3, 1, 19⟩⟩]
      model := some ⟨"Home", some ⟨"/Views/Home.cshtml", 1, 1, 12⟩⟩
      tagHelpers := ["*, Extra"] } := by
  intro outer inner template document
  refine Eq.subst (motive := document.MergedTo) ?_ (modelOf_merged document)
  decide +kernel

end PageClass

end ViewCompiler

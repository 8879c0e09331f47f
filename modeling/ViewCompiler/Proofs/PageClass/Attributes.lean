import Mathlib.Data.List.Induction
import ViewCompiler.Proofs.PageClass.SourceMap

/-!
# Attributes come back as they are escaped

The route of a page and its tag helpers are written as arguments of attributes, with a
backslash before every quote and every backslash of a value. Reading takes an argument as it
stands, so that the backslashes stay. The values that come back are the escaped ones, and
they are the values of the directives only as long as there is nothing to escape.
-/

namespace ViewCompiler

open Text

/-- The route that a directive gives. -/
def Directive.route? (directive : Directive) : Option Text :=
  if directive.kind = .page then some directive.value else none

/-- Only a page directive gives a route, its value. -/
theorem Directive.route?_eq_some {directive : Directive} {route : Text} :
    directive.route? = some route ↔ directive.kind = .page ∧ directive.value = route := by
  simp [route?]

/-- Whether one of the directives removes a tag helper. -/
def Directive.removes (directives : List Directive) (helper : Text) : Bool :=
  directives.any fun directive => directive.kind = .removeTagHelper ∧ directive.value = helper

/-- No directive removes nothing. -/
theorem Directive.removes_nil (helper : Text) : removes [] helper = false := rfl

/-- The first directive removes a tag helper, or a later one does. -/
theorem Directive.removes_cons (directive : Directive) (later : List Directive) (helper : Text) :
    removes (directive :: later) helper =
      (decide (directive.kind = .removeTagHelper ∧ directive.value = helper) ||
        removes later helper) := rfl

/-- The tag helpers that directives add and no later one removes. -/
def Directive.standing : List Directive → List Text
  | [] => []
  | directive :: later =>
    if directive.kind = .addTagHelper ∧ removes later directive.value = false then
      directive.value :: standing later
    else standing later

namespace CodeDocument

/-- The directives of the imports and of the template in the order in which they apply,
each with the file that it is attributed to. -/
def attributed (document : CodeDocument) : List (Option Text × Directive) :=
  document.imports.flatMap (fun source =>
    (Scanned.ofDocument source source.file true).directives.map (source.file, ·)) ++
  (Scanned.ofDocument document.source none false).directives.map (some document.path, ·)

/-- The values of the page directives of the template. There is one at most. -/
def routes (document : CodeDocument) : List Text :=
  (Scanned.ofDocument document.source none false).directives.filterMap Directive.route?

/-- The tag helpers that the imports and the template add and do not remove later. -/
def tagHelpers (document : CodeDocument) : List Text :=
  Directive.standing (document.attributed.map (·.2))

end CodeDocument

/-- They are the directives that the scans of the imports and of the template have. -/
theorem CodeDocument.attributed_eq_scanned (document : CodeDocument) :
    document.attributed = (PageClass.scanImports document).flatMap (fun scan =>
      scan.2.directives.map (scan.1, ·)) ++
        (PageClass.scanTemplate document).directives.map (some document.path, ·) := by
  rw [PageClass.scanImports, List.flatMap_map]
  rfl

/-- A template has one page directive at most. -/
theorem CodeDocument.routes_single (document : CodeDocument) :
    document.routes.Pairwise fun _ _ => False := by
  rw [routes, List.pairwise_filterMap]
  have single : (Scanned.ofDocument document.source none false).directives.Pairwise _ :=
    Scanned.directives_single
  apply single.imp
  intro earlier later apart first gives second again
  have page := (Directive.route?_eq_some.mp gives).1
  have pageAgain := (Directive.route?_eq_some.mp again).1
  exact apart (page ▸ rfl) (pageAgain.trans page.symm)

namespace PageModel

/-- The model after directives of several documents. -/
def applyAll (page : PageModel) (entries : List (Option Text × Directive)) : PageModel :=
  entries.foldl (fun page (file, directive) => page.apply file directive) page

variable {page : PageModel} {file : Option Text} {directive : Directive}

/-- A part of the page that takes up whatever is given for it takes up all that is given in
the course of directives, in their order. -/
theorem applyAll_fold {β γ : Type} (part : PageModel → γ)
    (gives : Option Text × Directive → Option β) (takes : γ → β → γ)
    (step : ∀ page entry,
      part (apply entry.1 page entry.2) = (gives entry).elim (part page) (takes (part page)))
    (page : PageModel) (entries : List (Option Text × Directive)) :
    part (page.applyAll entries) = (entries.filterMap gives).foldl takes (part page) := by
  induction entries generalizing page with
  | nil => rfl
  | cons entry entries inductionHypothesis =>
    have first : part (page.applyAll (entry :: entries)) =
        (entries.filterMap gives).foldl takes
          ((gives entry).elim (part page) (takes (part page))) := by
      rw [← step]
      exact inductionHypothesis _
    rw [first]
    cases given : gives entry with
    | none => simp [given]
    | some value => simp [given]

/-- If it is replaced by what is given, it is in the end what was given last. -/
theorem applyAll_last {β : Type} (part : PageModel → Option β)
    (gives : Option Text × Directive → Option β)
    (replaces : ∀ page entry, part (apply entry.1 page entry.2) = (gives entry).or (part page))
    (page : PageModel) (entries : List (Option Text × Directive)) :
    part (page.applyAll entries) = (entries.filterMap gives).getLast?.or (part page) := by
  have step (page : PageModel) (entry : Option Text × Directive) :
      part (apply entry.1 page entry.2) = (gives entry).elim (part page) some := by
    rw [replaces]
    cases gives entry <;> rfl
  rw [applyAll_fold part gives (fun _ => some) step]
  cases entries.filterMap gives using List.reverseRecOn with
  | nil => rfl
  | append_singleton front last => simp

/-- A directive that gives a route replaces the one before it. -/
theorem apply_route : (apply file page directive).route = directive.route?.or page.route := by
  unfold apply Directive.route?
  cases directive.kind <;> grind

/-- The route is the one that was given last. -/
theorem applyAll_route (entries : List (Option Text × Directive)) :
    (page.applyAll entries).route =
      ((entries.map (·.2)).filterMap Directive.route?).getLast?.or page.route := by
  rw [List.filterMap_map]
  exact applyAll_last (·.route) _ (fun _ _ => apply_route) page entries

/-- A directive adds its tag helper, removes it, or has nothing to do with tag helpers. -/
theorem apply_tagHelpers : (apply file page directive).tagHelpers =
    if directive.kind = .addTagHelper then page.tagHelpers ++ [directive.value]
    else page.tagHelpers.filter fun helper => !Directive.removes [directive] helper := by
  have kept (other : directive.kind ≠ .removeTagHelper) :
      page.tagHelpers.filter (fun helper => !Directive.removes [directive] helper) =
        page.tagHelpers := by
    simp [Directive.removes, other]
  cases kind : directive.kind <;> rw [kind] at kept <;> simp only [apply, kind]
  case opens =>
    rw [kept (by decide)]
    split <;> rfl
  case inject =>
    rw [kept (by decide)]
    split <;> rfl
  case addTagHelper => rfl
  case removeTagHelper => simp [Directive.removes, kind, eq_comm]
  all_goals exact (kept (by decide)).symm

/-- The tag helpers are those of before that are not removed and those that stand in the
end. -/
theorem applyAll_tagHelpers (entries : List (Option Text × Directive)) :
    (page.applyAll entries).tagHelpers =
      page.tagHelpers.filter (fun helper => !Directive.removes (entries.map (·.2)) helper) ++
        Directive.standing (entries.map (·.2)) := by
  induction entries generalizing page with
  | nil => simp [applyAll, Directive.removes, Directive.standing]
  | cons entry entries inductionHypothesis =>
    have step : (page.applyAll (entry :: entries)).tagHelpers =
        (apply entry.1 page entry.2).tagHelpers.filter
            (fun helper => !Directive.removes (entries.map (·.2)) helper) ++
          Directive.standing (entries.map (·.2)) := inductionHypothesis
    rw [step, apply_tagHelpers]
    by_cases added : entry.2.kind = .addTagHelper
    · have quiet (helper : Text) : Directive.removes (entry.2 :: entries.map (·.2)) helper =
          Directive.removes (entries.map (·.2)) helper := by
        simp [Directive.removes_cons, added]
      simp only [added, ↓reduceIte, List.map_cons, quiet, Directive.standing, List.filter_append,
        List.append_assoc, true_and]
      cases removed : Directive.removes (entries.map (·.2)) entry.2.value <;> simp [removed]
    · simp [Directive.removes_cons, Directive.removes_nil, Directive.standing, added,
        List.filter_filter, Bool.and_comm]

end PageModel

namespace PageClass

variable {document : CodeDocument}

/-- The page of a document is what its directives make of an empty one, one after the other. -/
theorem modelOf_eq_applyAll (document : CodeDocument) :
    modelOf document = PageModel.applyAll {} document.attributed := by
  simp only [modelOf, PageModel.applyAll, CodeDocument.attributed_eq_scanned, List.foldl_append,
    List.foldl_flatMap, List.foldl_map]
  rfl

/-- The page of a document has the route that the template gives. Imports give none. -/
theorem modelOf_route (document : CodeDocument) :
    (modelOf document).route.toList = document.routes := by
  have ofImports : (document.imports.flatMap fun source =>
      (Scanned.ofDocument source source.file true).directives.map (source.file, ·)).filterMap
        (fun entry => entry.2.route?) = [] := by
    rw [List.filterMap_eq_nil_iff]
    intro entry member
    obtain ⟨source, -, inside⟩ := List.mem_flatMap.mp member
    obtain ⟨directive, scanned, rfl⟩ := List.mem_map.mp inside
    exact if_neg ((Scanned.directive_kind scanned).2 rfl)
  have last : (modelOf document).route = document.routes.getLast? := by
    rw [modelOf_eq_applyAll, PageModel.applyAll_route, CodeDocument.attributed, List.filterMap_map]
    simp [ofImports, CodeDocument.routes]
  rw [last]
  cases given : document.routes with
  | nil => rfl
  | cons route more =>
    have single := document.routes_single
    rw [given] at single
    cases more with
    | nil => rfl
    | cons other more => exact ((List.pairwise_cons.mp single).1 other (by simp)).elim

/-- It has the tag helpers that stand in the end. -/
theorem modelOf_tagHelpers (document : CodeDocument) :
    (modelOf document).tagHelpers = document.tagHelpers := by
  rw [modelOf_eq_applyAll, PageModel.applyAll_tagHelpers]
  rfl

/-- Text that stands in a literal as it is. -/
def Plain (text : Text) : Prop := '"' ∉ text ∧ '\\' ∉ text

instance (text : Text) : Decidable (Plain text) := inferInstanceAs (Decidable (_ ∧ _))

/-- Escaping makes no text shorter. -/
theorem escape_length (text : Text) : text.length ≤ (escape text).length := by
  induction text with
  | nil => simp
  | cons char text inductionHypothesis =>
    have one : 1 ≤ (escapeChar char).length := by
      unfold escapeChar
      split
      · decide
      · split
        · decide
        · exact Nat.le_refl 1
    simp only [escape, List.flatMap_cons, List.length_append, List.length_cons] at *
    omega

/-- Escaping leaves exactly those texts as they are that have nothing to escape. -/
theorem escape_eq_iff (text : Text) : escape text = text ↔ Plain text := by
  induction text with
  | nil => simp [escape, Plain]
  | cons char text inductionHypothesis =>
    have cut : escape (char :: text) = escapeChar char ++ escape text := List.flatMap_cons
    have grown := escape_length text
    -- An escaped character makes the text longer than it was.
    have longer (marked : escapeChar char = ['\\', char]) :
        escape (char :: text) ≠ char :: text := by
      intro same
      have lengths := congrArg List.length same
      simp only [cut, marked, List.length_append, List.length_cons, List.length_nil] at lengths
      omega
    by_cases backslash : char = '\\'
    · exact iff_of_false (longer (by simp [escapeChar, backslash])) (by simp [Plain, backslash])
    · by_cases quote : char = '"'
      · exact iff_of_false (longer (by simp [escapeChar, quote])) (by simp [Plain, quote])
      · have kept : escapeChar char = [char] := by simp [escapeChar, backslash, quote]
        rw [cut, kept]
        simp [inductionHypothesis, Plain, Ne.symm backslash, Ne.symm quote]

/-- Escaping leaves texts as they are exactly if none of them has a quote or a backslash. -/
theorem map_escape_eq_iff (values : List Text) :
    values.map escape = values ↔ ∀ value ∈ values, Plain value := by
  simp only [← escape_eq_iff]
  simpa using @List.map_eq_map_iff _ _ escape values id

/-- A class without faults is accepted, and its manifest has the merged values. -/
theorem check_sound {references : List Text} (named : document.NamesOnOneLine)
    (accepted : (generate document).errors = [])
    (sound : (modelOf document).faults references = []) :
    Manifest.check references (generate document).code =
      .ok (summary (modelOf document) document.path) := by
  obtain ⟨found, reported, checked⟩ := check_found references named accepted
  rw [sound] at reported
  obtain rfl : found = [] := List.forall₂_nil_left_iff.mp reported
  exact checked

/-- The route of an accepted class is the escaped value of the page directive of the
template, and its tag helpers are the escaped ones that stand in the end. They are what
the directives say exactly if these values have neither quotes nor backslashes. -/
theorem check_attributes (references : List Text) (named : document.NamesOnOneLine)
    (accepted : (generate document).errors = []) {manifest : Manifest}
    (checked : Manifest.check references (generate document).code = .ok manifest) :
    manifest.route.toList = document.routes.map escape ∧
      manifest.tagHelpers = document.tagHelpers.map escape ∧
      (manifest.route.toList = document.routes ↔ ∀ route ∈ document.routes, Plain route) ∧
      (manifest.tagHelpers = document.tagHelpers ↔
        ∀ helper ∈ document.tagHelpers, Plain helper) := by
  obtain ⟨found, -, answered⟩ := check_found references named accepted
  have manifested : manifest = summary (modelOf document) document.path := by
    rw [answered] at checked
    cases found with
    | nil => simpa using checked.symm
    | cons => simp at checked
  have route : manifest.route.toList = document.routes.map escape := by
    rw [manifested, ← modelOf_route]
    exact Option.toList_map
  have tagHelpers : manifest.tagHelpers = document.tagHelpers.map escape := by
    rw [manifested, ← modelOf_tagHelpers]
    rfl
  refine ⟨route, tagHelpers, ?_, ?_⟩
  · rw [route, map_escape_eq_iff]
  · rw [tagHelpers, map_escape_eq_iff]

/-- A page whose template is one directive. -/
def pageOf (directive : Text) : CodeDocument := ⟨⟨none, directive⟩, [], "/a.cshtml"⟩

/-- A route without quotes and backslashes comes back as it was given. -/
theorem check_attributes_plain :
    ∃ manifest, Manifest.check [] (generate (pageOf "@page \"/about\"")).code = .ok manifest ∧
      manifest.route.toList = (pageOf "@page \"/about\"").routes := by
  have named : (pageOf "@page \"/about\"").NamesOnOneLine := ⟨by decide, by simp [pageOf]⟩
  have accepted : (generate (pageOf "@page \"/about\"")).errors = [] := by decide +kernel
  have sound : (modelOf (pageOf "@page \"/about\"")).faults [] = [] := by decide +kernel
  have checked := check_sound named accepted sound
  have settled := check_attributes [] named accepted checked
  exact ⟨_, checked, settled.2.2.1.mpr (by decide +kernel)⟩

/-- A backslash in a route comes back as two. -/
theorem check_attributes_backslash :
    ∃ manifest, Manifest.check [] (generate (pageOf "@page \"/a\\b\"")).code = .ok manifest ∧
      (pageOf "@page \"/a\\b\"").routes = [("/a\\b" : Text)] ∧
      manifest.route.toList = [("/a\\\\b" : Text)] := by
  have named : (pageOf "@page \"/a\\b\"").NamesOnOneLine := ⟨by decide, by simp [pageOf]⟩
  have accepted : (generate (pageOf "@page \"/a\\b\"")).errors = [] := by decide +kernel
  have sound : (modelOf (pageOf "@page \"/a\\b\"")).faults [] = [] := by decide +kernel
  exact ⟨_, check_sound named accepted sound, by decide +kernel, by decide +kernel⟩

end PageClass

end ViewCompiler

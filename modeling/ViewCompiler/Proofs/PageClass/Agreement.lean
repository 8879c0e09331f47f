import ViewCompiler.Proofs.Manifest.TypeNames
import ViewCompiler.Proofs.PageModel.Merging
import ViewCompiler.Proofs.Text.Filling

/-!
# A page class is checked as its directives were written

A page class is written from the merged directives of a template and its imports, and it is
checked as text. The main statement, `check_generated`, says that nothing gets lost on the way.
It is about the values that the class has to have, and these are told without the functions that
write or read it: every placeholder in the type of a property, or in the base type, is filled in
with the last model that is given, a namespace is covered by a reference that names it or one
that it lies in, and a type is a text of the grammar. The check reports exactly the faults of
these values, in order, each at the place of the directive that supplied the value, and when
there are none it returns a manifest with the values.
-/

namespace ViewCompiler

open Text

/-! ## The types of a page class -/

namespace PageModel

/-- What the placeholder of a type stands for: the model of the page between the brackets of a
list, which is `dynamic` unless there is a directive for it. -/
def argument (page : PageModel) : Text :=
  '<' :: (page.model.map (·.value)).getD "dynamic" ++ ['>']

/-- The second type is the first one with the model in the place of every placeholder. -/
def FillsIn (page : PageModel) (type filled : Text) : Prop :=
  FilledIn "<TModel>" page.argument type filled

/-- The base type of the class of a page, with the place of the directive that is answerable for
it. -/
inductive HasBase (page : PageModel) : Sourced → Prop
  /-- A directive gives the base type. -/
  | inherits {base : Sourced} {type : Text} (given : page.base = some base)
      (filled : page.FillsIn base.value type) : HasBase page ⟨type, base.span⟩
  /-- Without one a page, which has a route, has its own base type, and no directive answers for
  it. -/
  | page {route : Text} (absent : page.base = none) (routed : page.route = some route) :
      HasBase page ⟨"Microsoft.AspNetCore.Mvc.RazorPages.Page", none⟩
  /-- That of a view has the model as its argument, and the directive for the model answers
  for it. -/
  | view (absent : page.base = none) (unrouted : page.route = none) :
      HasBase page ⟨"Microsoft.AspNetCore.Mvc.Razor.RazorPage" ++ page.argument,
        page.model.bind (·.span)⟩

/-- A property of a class is one of the page with its type filled in. -/
structure HasProperty (page : PageModel) (given property : Injection) : Prop where
  type : page.FillsIn given.type property.type
  name : property.name = given.name
  span : property.span = given.span

end PageModel

/-- The types of a page class: the base type and the properties, each with the place of the
directive that is answerable for it. -/
structure ClassTypes where
  base : Sourced
  properties : List Injection
deriving DecidableEq, Repr

/-- A page class has these types if the page has this base type and these properties. -/
structure PageModel.HasTypes (page : PageModel) (types : ClassTypes) : Prop where
  base : page.HasBase types.base
  properties : List.Forall₂ page.HasProperty page.injections types.properties

/-- The types of a page class as they are written. -/
def PageModel.types (page : PageModel) : ClassTypes :=
  ⟨page.baseType, page.injections.map fun given =>
    { given with type := substitute page.modelType given.type }⟩

namespace PageModel

variable {page : PageModel}

/-- The placeholder does not overlap itself: it has one opening bracket. -/
theorem fillsIn_iff {type filled : Text} :
    page.FillsIn type filled ↔ filled = substitute page.modelType type := by
  have model : page.argument = '<' :: page.modelType ++ ['>'] := by
    unfold argument modelType
    cases page.model <;> rfl
  rw [FillsIn, model]
  exact filledIn_iff (by decide)

/-- The base type of a view has its placeholder at the end. -/
theorem fillsIn_viewBase (page : PageModel) :
    page.FillsIn viewBase ("Microsoft.AspNetCore.Mvc.Razor.RazorPage" ++ page.argument) := by
  let name : Text := "Microsoft.AspNetCore.Mvc.Razor.RazorPage"
  have free : '<' ∉ name := by decide
  have filled : FilledIn "<TModel>" page.argument (name ++ String.toList "<TModel>" ++ [])
      (name ++ page.argument ++ []) :=
    .marked (not_infix_of_not_mem free) (.part (not_infix_of_not_mem List.not_mem_nil))
  have cut : name ++ String.toList "<TModel>" ++ [] = viewBase := by decide
  rwa [cut, List.append_nil] at filled

/-- A page has one base type, the one that is written. -/
theorem hasBase_iff {base : Sourced} : page.HasBase base ↔ base = page.baseType := by
  have view := fillsIn_iff.mp (fillsIn_viewBase page)
  constructor
  · rintro (⟨given, filled⟩ | ⟨absent, routed⟩ | ⟨absent, unrouted⟩)
    · rw [fillsIn_iff.mp filled]
      unfold baseType
      rw [given]
    · unfold baseType
      rw [absent, routed]
      rfl
    · rw [view]
      unfold baseType
      rw [absent, unrouted]
  · rintro rfl
    unfold baseType
    cases given : page.base with
    | some base => exact .inherits given (fillsIn_iff.mpr rfl)
    | none =>
      cases routed : page.route with
      | some route => exact .page given routed
      | none => exact view ▸ .view given routed

/-- A property of the class is the one that is written. -/
theorem hasProperty_iff {given property : Injection} : page.HasProperty given property ↔
    property = { given with type := substitute page.modelType given.type } := by
  constructor
  · rintro ⟨type, name, span⟩
    cases property
    simp_all [fillsIn_iff]
  · rintro rfl
    exact ⟨fillsIn_iff.mpr rfl, rfl, rfl⟩

/-- A page class has the types that are written, and no others. -/
theorem hasTypes_iff {types : ClassTypes} : page.HasTypes types ↔ types = page.types := by
  have properties : List.Forall₂ page.HasProperty page.injections types.properties ↔
      page.types.properties = types.properties := by
    rw [← List.forall₂_eq_eq_eq, PageModel.types, List.forall₂_map_left_iff]
    exact ⟨.imp fun _ _ has => (hasProperty_iff.mp has).symm,
      .imp fun _ _ same => hasProperty_iff.mpr same.symm⟩
  constructor
  · rintro ⟨base, given⟩
    cases types
    exact congrArg₂ ClassTypes.mk (hasBase_iff.mp base) (properties.mp given).symm
  · rintro rfl
    exact ⟨hasBase_iff.mpr rfl, properties.mpr rfl⟩

end PageModel

/-! ## What is wrong with a page class -/

namespace PageClass

/-- References cover a namespace if one of them names it or one that it lies in, or if there are
no references. -/
def Covers (references : List Text) (name : Text) : Prop :=
  references = [] ∨ ∃ reference ∈ references, name = reference ∨ reference ++ ['.'] <+: name

/-- A type that a class can be checked with, blanks in lists aside. -/
def SoundType (type : Text) : Prop := TypeName.Lax false (TypeName.closeUp 0 type)

/-- A name that a property can have: a letter or `_`, and letters, digits and `_` behind it. -/
def SoundName (name : Text) : Prop :=
  ∃ first rest, name = first :: rest ∧ (isAlphabetic first = true ∨ first = '_') ∧
    ∀ char ∈ rest, isAlphanumeric char = true ∨ char = '_'

variable {references : List Text} {name type : Text} {page : PageModel}

/-- A namespace is covered if the check finds a reference for it. -/
theorem covers_iff : Covers references name ↔ isReferenced references name = true := by
  simp only [Covers, isReferenced, Bool.or_eq_true, List.isEmpty_iff, List.any_eq_true,
    beq_iff_eq]
  refine or_congr_right (exists_congr fun reference => and_congr_right fun _ => or_congr_right ?_)
  cases found : afterLead? reference name with
  | none =>
    refine iff_of_false (fun inside => ?_) Bool.false_ne_true
    obtain ⟨rest, rfl⟩ := (List.prefix_append reference ['.']).trans inside
    simp at found
  | some rest =>
    obtain rfl := afterLead?_eq_some_iff.mp found
    exact (List.prefix_append_right_inj reference).trans beginsWith_iff.symm

/-- A name is sound if the check takes it for an identifier. -/
theorem soundName_iff : SoundName name ↔ isIdentifier name = true := by
  cases name with
  | nil => simp [SoundName, isIdentifier]
  | cons first rest => simp [SoundName, isIdentifier]

instance : Decidable (Covers references name) := decidable_of_iff _ covers_iff.symm

instance : Decidable (SoundType type) := decidable_of_iff _ TypeName.isTypeName_iff

instance : Decidable (SoundName name) := decidable_of_iff _ soundName_iff.symm

variable (references page)

/-- What is wrong with a page class of these types, each fault with the place of its value:
namespaces that no reference covers, then the base type, then the type and the name of each
property. -/
def faults (types : ClassTypes) : List (ClassFault × Option Span) :=
  page.opened.flatMap (fun opened =>
    if Covers references opened.value then []
    else [(.unknownNamespace opened.value, opened.span)]) ++
  (if SoundType (trim types.base.value) then []
    else [(.badType (trim types.base.value), types.base.span)]) ++
  types.properties.flatMap fun property =>
    (if SoundType property.type then [] else [(.badType property.type, property.span)]) ++
    (if SoundName property.name then [] else [(.badIdentifier property.name, property.span)])

/-- The manifest of a page class of these types. -/
def manifest (types : ClassTypes) (path : Text) : Manifest where
  within := trim ((page.within.map (·.value)).getD "AspNetCore")
  typeName := className path
  baseType := trim types.base.value
  route := page.route.map escape
  injections := types.properties.map fun property => ⟨property.type, property.name⟩
  tagHelpers := page.tagHelpers.map escape

/-- The faults of the types that are written are the faults that the class has. -/
theorem faults_types : faults references page page.types = page.faults references := by
  simp only [faults, PageModel.faults, PageModel.types, List.flatMap_map, covers_iff, SoundType,
    ← TypeName.isTypeName_iff, soundName_iff]

/-- Their manifest is the one that the class gives. -/
theorem manifest_types (path : Text) : manifest page page.types path = summary page path := by
  have within : page.namespaceName = (page.within.map Sourced.value).getD "AspNetCore" := by
    unfold PageModel.namespaceName
    cases page.within <;> rfl
  simp only [manifest, summary, PageModel.types, within, List.map_map, Function.comp_def]

/-- A fault as it is reported: with its number and its message, at the place of the value or, if
the value has none, in no file at some line of the class. -/
def Reports (code : Text) (fault : ClassFault × Option Span) (diagnostic : Diagnostic) : Prop :=
  match fault.2 with
  | some span => diagnostic = ⟨fault.1.id, fault.1.message, span.file, span.line, span.column,
      span.line, span.endColumn⟩
  | none => ∃ row, 1 ≤ row ∧ row ≤ (Text.lines code).length ∧
      diagnostic = ⟨fault.1.id, fault.1.message, none, row, 1, row, 1⟩

/-- What is to be known of a page class that has these types: all its faults, or its manifest if
there are no faults. That there is no class is never known of it. -/
inductive Agrees (references : List Text) (document : CodeDocument) (types : ClassTypes) :
    Except (List Diagnostic) Manifest → Prop
  | error {diagnostics : List Diagnostic}
      (faulty : faults references (modelOf document) types ≠ [])
      (reports : List.Forall₂ (Reports (generate document).code)
        (faults references (modelOf document) types) diagnostics)
      (declared : ∀ diagnostic ∈ diagnostics, diagnostic.id ≠ some "RV0101") :
      Agrees references document types (.error diagnostics)
  | ok (sound : faults references (modelOf document) types = []) :
      Agrees references document types (.ok (manifest (modelOf document) types document.path))

variable {references page} {document : CodeDocument}

/-- A fault of a page class is reported under a number of its own, not that of a missing class. -/
theorem faults_id {types : ClassTypes} {fault : ClassFault × Option Span}
    (member : fault ∈ faults references page types) : fault.1.id ≠ ("RV0101" : Text) := by
  unfold faults at member
  simp only [List.mem_append, List.mem_flatMap, List.mem_ite_nil_left, List.mem_singleton] at member
  rcases member with (⟨_, -, -, rfl⟩ | ⟨-, rfl⟩) | ⟨_, -, ⟨-, rfl⟩ | ⟨-, rfl⟩⟩
  · exact (by decide : ("RV0246" : Text) ≠ "RV0101")
  · exact (by decide : ("RV1002" : Text) ≠ "RV0101")
  · exact (by decide : ("RV1002" : Text) ≠ "RV0101")
  · exact (by decide : ("RV1001" : Text) ≠ "RV0101")

/-- A class without faults is accepted with its manifest. -/
theorem Agrees.of_nil {types : ClassTypes} {result : Except (List Diagnostic) Manifest}
    (agrees : Agrees references document types result)
    (sound : faults references (modelOf document) types = []) :
    result = .ok (manifest (modelOf document) types document.path) := by
  cases agrees with
  | error faulty => exact absurd sound faulty
  | ok => rfl

/-- A class whose faults all have places is refused with these faults at these places. -/
theorem Agrees.of_placed {types : ClassTypes} {result : Except (List Diagnostic) Manifest}
    (agrees : Agrees references document types result) {placed : List (ClassFault × Span)}
    (nonempty : placed ≠ []) (found : faults references (modelOf document) types =
      placed.map fun (fault, span) => (fault, some span)) :
    result = .error (placed.map fun (fault, span) =>
      ⟨fault.id, fault.message, span.file, span.line, span.column, span.line, span.endColumn⟩) := by
  cases agrees with
  | ok sound => exact absurd (List.map_eq_nil_iff.mp (found.symm.trans sound)) nonempty
  | error faulty reports declared =>
    rw [found, List.forall₂_map_left_iff] at reports
    have same : List.Forall₂ (· = ·) (placed.map _) _ :=
      List.forall₂_map_left_iff.mpr (reports.imp fun _ _ shape => shape.symm)
    rw [List.forall₂_eq_eq_eq] at same
    rw [same]

/-- A page class is checked as its directives were written. The page has the values of all its
directives, each merged by the rule of its kind and each with the place of a directive that
supplied it, and the types of its class are determined by these values. What is wrong with the
class is reported in order, each fault at the place of its value; and if nothing is wrong, the
values are returned. -/
theorem check_generated (references : List Text) (named : document.NamesOnOneLine)
    (addressable : document.Addressable) (accepted : (generate document).errors = []) :
    document.MergedTo (modelOf document) ∧
      (modelOf document).SuppliedBy document.directives ∧
      ∃ types, (∀ other, (modelOf document).HasTypes other ↔ other = types) ∧
        Agrees references document types (Manifest.check references (generate document).code) := by
  refine ⟨modelOf_merged document, modelOf_supplied document, (modelOf document).types,
    fun other => PageModel.hasTypes_iff, ?_⟩
  obtain ⟨found, reported, checked⟩ := check_found references named accepted
  rw [faults_placed references addressable, List.forall₂_map_left_iff, ← faults_types] at reported
  have reports : List.Forall₂ (Reports (generate document).code)
      (faults references (modelOf document) (modelOf document).types) found := by
    apply reported.imp
    rintro ⟨fault, span⟩ diagnostic ⟨row, low, high, shape⟩
    cases span with
    | none => exact ⟨row, low, by omega, shape⟩
    | some span => exact shape
  rw [checked]
  cases found with
  | nil => exact manifest_types _ _ ▸ .ok (List.forall₂_nil_right_iff.mp reports)
  | cons diagnostic more =>
    refine .error ?_ reports ?_
    · intro sound
      rw [sound] at reports
      cases reports
    · intro other member
      obtain ⟨fault, among, row, -, -, rfl⟩ := exists_related reported member
      rw [ClassFault.at_id]
      exact fun same => faults_id among (Option.some.inj same)

/-- A view with a model and a property, under an import that opens a namespace and has another
property. -/
def orderView (model name : Text) : CodeDocument :=
  ⟨⟨none, "@model " ++ model ++ "\n@inject IHelper<TModel> " ++ name⟩,
    [⟨some "/_ViewImports.cshtml", "@using App\n@inject IClock Clock"⟩], "/Views/Order.cshtml"⟩

/-- The types that the class of this view has to have. -/
def orderTypes (model name : Text) : ClassTypes where
  base := ⟨"Microsoft.AspNetCore.Mvc.Razor.RazorPage<" ++ model ++ ['>'],
    some ⟨"/Views/Order.cshtml", 1, 1, model.length + 8⟩⟩
  properties := [⟨"IClock", "Clock", some ⟨"/_ViewImports.cshtml", 2, 1, 21⟩⟩,
    ⟨"IHelper<" ++ model ++ ['>'], name, some ⟨"/Views/Order.cshtml", 2, 1, name.length + 25⟩⟩]

/-- A model that is a type is filled in and accepted; one that is not makes the base type and the
property bad, each at its own directive. -/
theorem check_generated_order :
    Manifest.check ["App"] (generate (orderView "Order" "Html")).code =
      .ok ⟨"AspNetCore", "Views_Order", "Microsoft.AspNetCore.Mvc.Razor.RazorPage<Order>", none,
        [⟨"IClock", "Clock"⟩, ⟨"IHelper<Order>", "Html"⟩], []⟩ ∧
    Manifest.check ["Microsoft"] (generate (orderView "Order-Item" "9x")).code =
      .error [
        ⟨some "RV0246", ClassFault.message (.unknownNamespace "App"), some "/_ViewImports.cshtml",
          1, 1, 1, 11⟩,
        ⟨some "RV1002", "'Microsoft.AspNetCore.Mvc.Razor.RazorPage<Order-Item>' is not a valid type name.",
          some "/Views/Order.cshtml", 1, 1, 1, 18⟩,
        ⟨some "RV1002", "'IHelper<Order-Item>' is not a valid type name.",
          some "/Views/Order.cshtml", 2, 1, 2, 27⟩,
        ⟨some "RV1001", "Identifier expected; '9x' is not a valid identifier.",
          some "/Views/Order.cshtml", 2, 1, 2, 27⟩] := by
  have named (model name : Text) : (orderView model name).NamesOnOneLine := by
    refine ⟨(by decide : '\n' ∉ ("/Views/Order.cshtml" : Text)), ?_⟩
    intro source among file same
    obtain rfl := List.mem_singleton.mp among
    obtain rfl := Option.some.inj same
    decide
  constructor
  · obtain ⟨-, -, types, only, agrees⟩ := check_generated ["App"] (named "Order" "Html")
      (by unfold CodeDocument.Addressable; decide) (by decide +kernel)
    obtain rfl : orderTypes "Order" "Html" = types :=
      (only _).mp (PageModel.hasTypes_iff.mpr (by decide +kernel))
    rw [agrees.of_nil (by decide +kernel)]
    exact congrArg Except.ok (by decide +kernel)
  · obtain ⟨-, -, types, only, agrees⟩ := check_generated ["Microsoft"] (named "Order-Item" "9x")
      (by unfold CodeDocument.Addressable; decide) (by decide +kernel)
    obtain rfl : orderTypes "Order-Item" "9x" = types :=
      (only _).mp (PageModel.hasTypes_iff.mpr (by decide +kernel))
    let placed : List (ClassFault × Span) := [
      (.unknownNamespace "App", ⟨"/_ViewImports.cshtml", 1, 1, 11⟩),
      (.badType "Microsoft.AspNetCore.Mvc.Razor.RazorPage<Order-Item>",
        ⟨"/Views/Order.cshtml", 1, 1, 18⟩),
      (.badType "IHelper<Order-Item>", ⟨"/Views/Order.cshtml", 2, 1, 27⟩),
      (.badIdentifier "9x", ⟨"/Views/Order.cshtml", 2, 1, 27⟩)]
    have found : faults ["Microsoft"] (modelOf (orderView "Order-Item" "9x"))
        (orderTypes "Order-Item" "9x") = placed.map fun (fault, span) => (fault, some span) := by
      decide +kernel
    rw [agrees.of_placed (List.cons_ne_nil _ _) found]
    exact congrArg Except.error (by decide +kernel)

end PageClass

end ViewCompiler

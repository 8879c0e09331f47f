import ViewCompiler.Proofs.Manifest.Hearing
import ViewCompiler.Proofs.PageClass.Feeds

/-!
# The faults of a page class

The declarations of a page class are at fault exactly as the merged values are: a
namespace that no reference covers, a base type or the type of a property that is no type
name, a name of a property that is no identifier. Each fault has the place of its value,
because every value stands between the pragmas that name its place and end the naming.

The other things that a class declares are told by its declarations once each.
-/

namespace ViewCompiler

open Text

namespace PageModel

/-- What is wrong with the values of a page, each fault with the place of its value:
namespaces that no reference covers, then the base type, then the type and the name of
each property. -/
def faults (references : List Text) (page : PageModel) : List (ClassFault × Option Span) :=
  page.opened.flatMap (fun opened =>
    if isReferenced references opened.value then []
    else [(.unknownNamespace opened.value, opened.span)]) ++
  (if isTypeName (trim page.baseType.value) then []
    else [(.badType (trim page.baseType.value), page.baseType.span)]) ++
  page.injections.flatMap (fun injection =>
    let type := substitute page.modelType injection.type
    (if isTypeName type then [] else [(.badType type, injection.span)]) ++
    (if isIdentifier injection.name then [] else [(.badIdentifier injection.name, injection.span)]))

variable {references : List Text} {page : PageModel} {fault : ClassFault × Option Span}

/-- A fault without a place is one of the base type; every other has the place of a directive. -/
theorem faults_supplied {source : DirectiveSource} (supplied : page.SuppliedBy source)
    (member : fault ∈ page.faults references) :
    fault.2 = none ∨ ∃ kind value, Supplies source kind value fault.2 := by
  have base : page.baseType.span = none ∨
      ∃ kind value, Supplies source kind value page.baseType.span := by
    have origin := baseType_supplied supplied
    unfold BaseSuppliedBy at origin
    split at origin
    · exact .inr ⟨_, _, origin⟩
    · exact .inr ⟨_, _, origin⟩
    · exact .inl origin
  unfold faults at member
  simp only [List.mem_append, List.mem_flatMap, List.mem_ite_nil_left, List.mem_singleton] at member
  rcases member with (⟨opened, among, -, rfl⟩ | ⟨-, rfl⟩) | ⟨injection, among, ⟨-, rfl⟩ | ⟨-, rfl⟩⟩
  · exact .inr ⟨_, _, supplied.opened opened among⟩
  · exact base
  · exact .inr ⟨_, _, (supplied.injections injection among).choose_spec.1⟩
  · exact .inr ⟨_, _, (supplied.injections injection among).choose_spec.1⟩

/-- A page whose values are without fault has a base type that is a type name. -/
theorem isTypeName_of_faults (sound : page.faults references = []) :
    isTypeName (trim page.baseType.value) = true := by
  simp only [faults, List.append_eq_nil_iff, ite_eq_left_iff, Bool.not_eq_true] at sound
  simpa using sound.1.2

end PageModel

namespace PageClass

open Manifest

variable {references : List Text} {rest : List ClassLine}

/-- The faults of a line that stands between its pragmas have the place that they name. -/
theorem answers_framed {line : ClassLine} (span : Option Span)
    (plain : ∀ place, line.placeAfter place = place) :
    answers references none (framed span line ++ rest) =
      (faultsOf references line).map (·, span.map Span.named) ++ answers references none rest := by
  cases span with
  | none => simp [framed, answers, plain]
  | some span => simp [framed, answers, faultsOf, ClassLine.placeAfter]

/-- So have those of many such lines, one after the other. -/
theorem answers_framed_each {α : Type} (items : List α) (span : α → Option Span)
    (line : α → ClassLine) (plain : ∀ item place, (line item).placeAfter place = place) :
    answers references none (items.flatMap (fun item => framed (span item) (line item)) ++ rest) =
      items.flatMap (fun item =>
        (faultsOf references (line item)).map (·, (span item).map Span.named)) ++
        answers references none rest := by
  induction items with
  | nil => rfl
  | cons item items inductionHypothesis =>
    simp only [List.flatMap_cons, List.append_assoc]
    rw [answers_framed (span item) (plain item), inductionHypothesis]

/-- A namespace is declared without the blanks around it, and an empty one is not declared. -/
theorem namespaceLine_eq (name : Text) : namespaceLine name = .other ∧ trim name = [] ∨
    namespaceLine name = .within (trim name) := by
  unfold namespaceLine
  split
  · rename_i empty
    refine .inl ⟨rfl, ?_⟩
    rw [← trim_trimEnd, empty]
    rfl
  · exact .inr rfl

/-- A class is declared with its base type without the blanks around it; without a base
type its name does not matter. -/
theorem classLine_eq (name base : Text) :
    (∃ shown, classLine name base = .declares shown []) ∧ trim base = [] ∨
      classLine name base = .declares (trim name) (trim base) := by
  unfold classLine
  split
  · rename_i empty
    refine .inl ⟨⟨_, rfl⟩, ?_⟩
    rw [← trim_trimEnd, empty]
    rfl
  · exact .inr rfl

/-- The line of the class is at fault exactly if the trimmed base type is no type name. -/
theorem faultsOf_classLine (name base : Text) : faultsOf references (classLine name base) =
    unless_ (isTypeName (trim base)) (.badType (trim base)) := by
  rcases classLine_eq name base with ⟨⟨_, line⟩, empty⟩ | line
  · rw [line, empty]
    rfl
  · rw [line]
    rfl

/-- A line that declares nothing is silent. -/
theorem silent_other : Silent .other := ⟨fun _ => rfl, fun _ => rfl⟩

/-- The head of a class is silent. -/
theorem headerLines_silent (page : PageModel) : ∀ line ∈ headerLines page, Silent line := by
  have within : Silent (namespaceLine page.namespaceName) := by
    rcases namespaceLine_eq page.namespaceName with ⟨line, -⟩ | line <;> rw [line]
    · exact silent_other
    · exact ⟨fun _ => rfl, fun _ => rfl⟩
  simp [headerLines, silent_other, within]

/-- So are the lines of its route and its tag helpers. -/
theorem attributeLines_silent (page : PageModel) : ∀ line ∈ attributeLines page, Silent line := by
  intro line member
  rcases List.mem_append.mp member with inRoute | inHelpers
  · obtain ⟨route, _, rfl⟩ := List.mem_map.mp inRoute
    exact ⟨fun _ => rfl, fun _ => rfl⟩
  · obtain ⟨helper, _, rfl⟩ := List.mem_map.mp inHelpers
    exact ⟨fun _ => rfl, fun _ => rfl⟩

/-- So are those of its constants. -/
theorem constantLines_silent (page : PageModel) : ∀ line ∈ constantLines page, Silent line := by
  intro line member
  have same : line = .other := by
    rcases List.mem_cons.mp member with first | later
    · exact first
    · exact (List.mem_map.mp later).elim fun _ found => found.2.symm
  exact same ▸ silent_other

/-- So are those of its body. -/
theorem bodyLines_silent (markup : List (Nat × Text)) : ∀ line ∈ bodyLines markup, Silent line := by
  intro line member
  have same : line = .other := by
    rcases List.mem_append.mp member with opening | later
    · simpa using opening
    · rcases List.mem_append.mp later with literal | closing
      · exact (List.mem_map.mp literal).elim fun _ found => found.2.symm
      · simpa using closing
  exact same ▸ silent_other

/-- A fault takes the place of its value along. -/
theorem map_unless (holds : Bool) (fault : ClassFault) (span : Option Span) :
    (unless_ holds fault).map (·, span.map Span.named) =
      (if holds then [] else [(fault, span)]).map fun fault =>
        (fault.1, fault.2.map Span.named) := by
  cases holds <;> rfl

/-- The faults of the declarations of a page are the faults of its values. -/
theorem answers_declarations (page : PageModel) (markup : List (Nat × Text)) (path : Text) :
    answers references none (declarations page markup path) =
      (page.faults references).map fun fault => (fault.1, fault.2.map Span.named) := by
  have plain (place : Option Mapping) :
      (classLine (className path) page.baseType.value).placeAfter place = place := by
    rcases classLine_eq (className path) page.baseType.value with ⟨⟨_, line⟩, -⟩ | line
    · rw [line]
      rfl
    · rw [line]
      rfl
  have body : answers references none (bodyLines markup) = [] := by
    have silent : answers references none (bodyLines markup ++ []) = answers references none [] :=
      answers_silent (bodyLines_silent markup)
    simpa [answers] using silent
  unfold declarations
  rw [answers_silent (headerLines_silent page), answers_framed_each _ _ _ (fun _ _ => rfl),
    answers_silent (attributeLines_silent page), answers_framed _ plain,
    answers_silent (constantLines_silent page), answers_framed_each _ _ _ (fun _ _ => rfl), body,
    faultsOf_classLine]
  unfold PageModel.faults
  have opened (name : Text) : faultsOf references (.opens name) =
      unless_ (isReferenced references name) (.unknownNamespace name) := rfl
  have property (injection : Injection) :
      faultsOf references (propertyLine page.modelType injection) =
      unless_ (isTypeName (PageModel.substitute page.modelType injection.type))
          (.badType (PageModel.substitute page.modelType injection.type)) ++
        unless_ (isIdentifier injection.name) (.badIdentifier injection.name) := rfl
  simp only [opened, property, List.map_append, List.map_flatMap, map_unless, List.append_nil,
    List.append_assoc]

/-! ## What the declarations of a page declare -/

/-- Pragmas declare nothing. -/
theorem filterMap_framed {α : Type} (declared? : ClassLine → Option α) (span : Option Span)
    (line : ClassLine) (pragma : ∀ place, declared? (.mapping place) = none) :
    (framed span line).filterMap declared? = (declared? line).toList := by
  cases span <;> cases declared : declared? line <;> simp [framed, pragma, declared]

/-- What the declarations of a page declare of one kind, apart from the namespaces that
are opened. -/
theorem filterMap_declarations {α : Type} (declared? : ClassLine → Option α) (page : PageModel)
    (markup : List (Nat × Text)) (path : Text) (pragma : ∀ place, declared? (.mapping place) = none)
    (opens : ∀ name, declared? (.opens name) = none) (other : declared? .other = none) :
    (declarations page markup path).filterMap declared? =
      (declared? (namespaceLine page.namespaceName)).toList ++
        ((attributeLines page).filterMap declared? ++
          ((declared? (classLine (className path) page.baseType.value)).toList ++
            page.injections.filterMap fun injection =>
              declared? (propertyLine page.modelType injection))) := by
  have header : (headerLines page).filterMap declared? =
      (declared? (namespaceLine page.namespaceName)).toList := by
    cases within : declared? (namespaceLine page.namespaceName) <;>
      simp [headerLines, other, within]
  have opened : (page.opened.flatMap fun opened =>
      framed opened.span (.opens opened.value)).filterMap declared? = [] := by
    simp [List.filterMap_flatMap, filterMap_framed _ _ _ pragma, opens]
  have constant : (constantLines page).filterMap declared? = [] := by
    simp [constantLines, other]
  have body : (bodyLines markup).filterMap declared? = [] := by
    simp [bodyLines, other]
  have properties : (page.injections.flatMap fun injection =>
      framed injection.span (propertyLine page.modelType injection)).filterMap declared? =
      page.injections.filterMap fun injection =>
        declared? (propertyLine page.modelType injection) := by
    rw [List.filterMap_flatMap]
    simp only [filterMap_framed _ _ _ pragma, List.filterMap_eq_flatMap_toList]
  simp [declarations, List.filterMap_append, opened, header, constant, body, properties,
    filterMap_framed _ _ _ pragma]

variable (page : PageModel) (markup : List (Nat × Text)) (path : Text)

/-- The last namespace that is declared, if any, is that of the page. -/
theorem within_declarations :
    ((declarations page markup path).filterMap ClassLine.within?).getLast?.getD [] =
      trim page.namespaceName := by
  rw [filterMap_declarations _ _ _ _ (fun _ => rfl) (fun _ => rfl) rfl]
  have attributes : (attributeLines page).filterMap ClassLine.within? = [] := by
    simp [attributeLines, ClassLine.within?]
  have class_ : (classLine (className path) page.baseType.value).within? = none := by
    rcases classLine_eq (className path) page.baseType.value with ⟨⟨_, line⟩, -⟩ | line
    · rw [line]
      rfl
    · rw [line]
      rfl
  have properties : (page.injections.filterMap fun injection =>
      (propertyLine page.modelType injection).within?) = [] := by
    simp [propertyLine, ClassLine.within?]
  rw [attributes, class_, properties]
  rcases namespaceLine_eq page.namespaceName with ⟨line, empty⟩ | line
  · rw [line, empty]
    rfl
  · rw [line]
    rfl

/-- Exactly one class is declared. -/
theorem declared_declarations :
    ∃ name base, (declarations page markup path).filterMap ClassLine.declared? = [(name, base)] ∧
      (isTypeName (trim page.baseType.value) = true →
        name = className path ∧ base = trim page.baseType.value) := by
  rw [filterMap_declarations _ _ _ _ (fun _ => rfl) (fun _ => rfl) rfl]
  have attributes : (attributeLines page).filterMap ClassLine.declared? = [] := by
    simp [attributeLines, ClassLine.declared?]
  have within : (namespaceLine page.namespaceName).declared? = none := by
    rcases namespaceLine_eq page.namespaceName with ⟨line, -⟩ | line <;> rw [line] <;> rfl
  have properties : (page.injections.filterMap fun injection =>
      (propertyLine page.modelType injection).declared?) = [] := by
    simp [propertyLine, ClassLine.declared?]
  rw [attributes, within, properties]
  rcases classLine_eq (className path) page.baseType.value with ⟨⟨shown, line⟩, empty⟩ | line
  · refine ⟨shown, [], by rw [line]; rfl, ?_⟩
    rw [empty]
    intro sound
    exact absurd sound (by decide)
  · exact ⟨_, _, by rw [line]; rfl, fun _ => ⟨trim_of_solid (className_solid path), rfl⟩⟩

/-- What is declared by a line of its own form, other than namespace and class, comes from
the attributes or from the properties. -/
theorem filterMap_values {α : Type} (declared? : ClassLine → Option α)
    (pragma : ∀ place, declared? (.mapping place) = none)
    (opens : ∀ name, declared? (.opens name) = none) (other : declared? .other = none)
    (within : ∀ name, declared? (.within name) = none)
    (declares : ∀ name base, declared? (.declares name base) = none) :
    (declarations page markup path).filterMap declared? =
      (attributeLines page).filterMap declared? ++
        page.injections.filterMap fun injection =>
          declared? (propertyLine page.modelType injection) := by
  rw [filterMap_declarations _ _ _ _ pragma opens other]
  have header : declared? (namespaceLine page.namespaceName) = none := by
    rcases namespaceLine_eq page.namespaceName with ⟨line, -⟩ | line <;> rw [line]
    · exact other
    · exact within _
  have class_ : declared? (classLine (className path) page.baseType.value) = none := by
    rcases classLine_eq (className path) page.baseType.value with ⟨⟨_, line⟩, -⟩ | line
    · rw [line]
      exact declares _ _
    · rw [line]
      exact declares _ _
  simp [header, class_]

/-- A class declares the route of its page, escaped. -/
theorem route_declarations :
    (declarations page markup path).filterMap ClassLine.route? = page.route.toList.map escape := by
  rw [filterMap_values _ _ _ _ (fun _ => rfl) (fun _ => rfl) rfl (fun _ => rfl) (fun _ _ => rfl)]
  simp [attributeLines, ClassLine.route?, propertyLine, Function.comp_def]

/-- It declares the tag helpers of its page, escaped and in their order. -/
theorem tagHelpers_declarations :
    (declarations page markup path).filterMap ClassLine.tagHelper? =
      page.tagHelpers.map escape := by
  rw [filterMap_values _ _ _ _ (fun _ => rfl) (fun _ => rfl) rfl (fun _ => rfl) (fun _ _ => rfl)]
  simp [attributeLines, ClassLine.tagHelper?, propertyLine, Function.comp_def]

/-- It declares the properties of its page in their order, their types told of the model. -/
theorem properties_declarations : (declarations page markup path).filterMap ClassLine.property? =
    page.injections.map fun injection =>
      ⟨PageModel.substitute page.modelType injection.type, injection.name⟩ := by
  rw [filterMap_values _ _ _ _ (fun _ => rfl) (fun _ => rfl) rfl (fun _ => rfl) (fun _ _ => rfl)]
  simp [attributeLines, ClassLine.property?, propertyLine, Function.comp_def]

end PageClass

end ViewCompiler

import ViewCompiler.Proofs.PageClass.ReadBack

/-!
# The declarations of a page class

A page class is read as a sequence of declarations that is known from the merged
directives alone: the namespace, the namespaces that are opened, the route and the tag
helpers, the class with its base type, and the properties. Each value that came from a
place stands between the two pragmas that name it and end the naming. No markup and no
frame of the class comes into it.

The lines themselves hold no line feed, so they are found again in the text of the class.
-/

namespace ViewCompiler

open Text

/-- The name of the namespace of a page. -/
def PageModel.namespaceName (page : PageModel) : Text :=
  match page.within with
  | some name => name.value
  | none => "AspNetCore"

namespace PageClass

/-- A declaration between the pragmas that its place asks for. -/
def framed (span : Option Span) (line : ClassLine) : List ClassLine :=
  match span with
  | some span => [.mapping (some span.named), line, .mapping none]
  | none => [line]

/-- What the line of the namespace declares. -/
def namespaceLine (name : Text) : ClassLine :=
  if trimEnd name = [] then .other else .within (trim name)

/-- What the line of the class declares. -/
def classLine (name base : Text) : ClassLine :=
  if trimEnd base = [] then .declares (trim (name ++ " :")) []
  else .declares (trim name) (trim base)

/-- What the line of a property declares. -/
def propertyLine (model : Text) (injection : Injection) : ClassLine :=
  .injects (PageModel.substitute model injection.type) injection.name

/-- What the first lines of a class declare. -/
def headerLines (page : PageModel) : List ClassLine :=
  [.other, namespaceLine page.namespaceName, .other]

/-- What the attributes of a class declare. -/
def attributeLines (page : PageModel) : List ClassLine :=
  page.route.toList.map (fun route => .route (escape route)) ++
    page.tagHelpers.map (fun helper => .tagHelper (escape helper))

/-- What stands between the class and its properties declares nothing. -/
def constantLines (page : PageModel) : List ClassLine :=
  .other :: page.tagHelperPrefix.toList.map (fun _ => .other)

/-- What stands behind the properties declares nothing. -/
def bodyLines (markup : List (Nat × Text)) : List ClassLine :=
  [.other, .other] ++
    (((markup.map (·.2)).filter isWritten).map (fun _ => .other) ++ [.other, .other, .other])

/-- What a page class declares, line by line. -/
def declarations (page : PageModel) (markup : List (Nat × Text)) (path : Text) : List ClassLine :=
  headerLines page ++
  (page.opened.flatMap (fun opened => framed opened.span (.opens opened.value)) ++
  (attributeLines page ++
  (framed page.baseType.span (classLine (className path) page.baseType.value) ++
  (constantLines page ++
  (page.injections.flatMap (fun injection =>
    framed injection.span (propertyLine page.modelType injection)) ++
  bodyLines markup)))))

/-- A line is read with the pragmas around it. -/
theorem mapped_read (level : Nat) (span : Option Span) (text : Text) :
    (mapped level span text).map ClassLine.read = framed span (ClassLine.read text) := by
  cases span with
  | none => simp [mapped, framed, ClassLine.read_indented]
  | some span =>
    simp only [mapped, framed, List.map_cons, List.map_nil, ClassLine.read_linePragma,
      ClassLine.read_indented, ClassLine.read_default]

/-- The line of a property is read as the property. -/
theorem read_injectionLine (model : Text) (injection : Injection)
    (solid : ∀ char ∈ injection.name, isBlank char = false) :
    ClassLine.read (injectionLine model injection) = propertyLine model injection :=
  ClassLine.read_injection _ _ solid

/-- The lines of a page class are read as what the page declares, if no name of a
property holds a blank. -/
theorem lines_read (page : PageModel) (markup : List (Nat × Text)) (source path : Text)
    (solid : ∀ injection ∈ page.injections, ∀ char ∈ injection.name, isBlank char = false) :
    (lines page markup source path).map ClassLine.read = declarations page markup path := by
  have checksum (digest : Text) : ClassLine.read
      ("#pragma checksum \"" ++ path ++ "\" \"\x7bblake3\x7d\" \"" ++ digest ++ "\"") = .other := by
    have read := ClassLine.read_checksum (path ++ "\" \"\x7bblake3\x7d\" \"" ++ digest)
    simpa only [List.append_assoc] using read
  have properties : page.injections.flatMap (fun injection =>
      framed injection.span (ClassLine.read (injectionLine page.modelType injection))) =
      page.injections.flatMap (fun injection =>
        framed injection.span (propertyLine page.modelType injection)) := by
    simp only [List.flatMap_def]
    refine congrArg List.flatten (List.map_congr_left fun injection member => ?_)
    rw [read_injectionLine _ _ (solid injection member)]
  have within : ClassLine.read ("namespace " ++ page.namespaceName) =
      namespaceLine page.namespaceName :=
    ClassLine.read_namespace page.namespaceName
  have declared :
      ClassLine.read ("public class " ++ className path ++ " : " ++ page.baseType.value) =
        classLine (className path) page.baseType.value :=
    ClassLine.read_class (className path) page.baseType.value (className_solid path)
  have opening : ClassLine.read "\x7b" = .other := by decide
  have closing : ClassLine.read "\x7d" = .other := by decide
  have method : ClassLine.read "public override async Task ExecuteAsync()" = .other := by decide
  unfold lines declarations headerLines attributeLines constantLines bodyLines
  simp only [List.map_append, List.map_flatMap, mapped_read, List.map_map, List.map_cons,
    List.map_nil, Function.comp_def, properties, checksum, declared, opening, closing, method,
    ClassLine.read_indented, ClassLine.read_using, ClassLine.read_route, ClassLine.read_tagHelper,
    ClassLine.read_constant, ClassLine.read_markup]
  rw [← within]
  simp only [List.append_assoc, List.cons_append, List.nil_append]
  rfl

end PageClass

end ViewCompiler

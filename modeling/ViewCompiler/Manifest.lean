import ViewCompiler.Manifest.Line

/-!
# Checking a page class

A page class is accepted if every namespace it opens is covered by a reference, its
base type and the types of its properties are type names, and the names of its
properties are identifiers. What is accepted is summed up in a manifest. Everything
that is wrong is reported, each fault at the place that the last pragma before it
named, or at its own line of the class.
-/

namespace ViewCompiler

open Text

/-- A fault at a place, counted from one. Without a file the place is in the text that
was checked. -/
structure Diagnostic where
  id : Option Text
  message : Text
  file : Option Text
  line : Nat
  column : Nat
  endLine : Nat
  endColumn : Nat
deriving DecidableEq, Repr

/-- What can be wrong with a page class. -/
inductive ClassFault
  /-- No reference covers the namespace. -/
  | unknownNamespace (name : Text)
  | badType (name : Text)
  | badIdentifier (name : Text)
  /-- There is no class. -/
  | noClass
deriving DecidableEq, Repr

namespace ClassFault

/-- The number of a fault. -/
def id : ClassFault → Text
  | .unknownNamespace _ => "RV0246"
  | .badType _ => "RV1002"
  | .badIdentifier _ => "RV1001"
  | .noClass => "RV0101"

/-- The wording of a fault. -/
def message : ClassFault → Text
  | .unknownNamespace name =>
    "The type or namespace name '" ++ name ++ "' could not be found (are you missing a reference?)"
  | .badType name => "'" ++ name ++ "' is not a valid type name."
  | .badIdentifier name => "Identifier expected; '" ++ name ++ "' is not a valid identifier."
  | .noClass => "Generated code does not declare a page class."

/-- The fault at the place that is named, or at a line of the class. -/
def at_ (fault : ClassFault) (row : Nat) (place : Option Mapping) : Diagnostic :=
  match place with
  | some place =>
    ⟨fault.id, fault.message, place.file, place.line, place.column, place.endLine, place.endColumn⟩
  | none => ⟨fault.id, fault.message, none, row, 1, row, 1⟩

end ClassFault

/-- A letter or an underscore, then letters, numerals and underscores. -/
def isIdentifier : Text → Bool
  | [] => false
  | first :: rest =>
    (isAlphabetic first || first == '_') && rest.all fun char => isAlphanumeric char || char == '_'

/-- Whether the rest of a type name is in order, `depth` lists of type arguments being
open, and a segment of a name being expected if `expecting`. -/
def isTypeRest (depth : Nat) (expecting : Bool) : Text → Bool
  | [] => depth == 0 && !expecting
  | char :: rest =>
    if isAlphabetic char || char == '_' then isTypeRest depth false rest
    else if char.isDigit then !expecting && isTypeRest depth expecting rest
    else if char == '.' then !expecting && isTypeRest depth true rest
    else if char == ',' then !expecting && depth != 0 && isTypeRest depth true rest
    else if char == '<' then !expecting && isTypeRest (depth + 1) true rest
    else if char == '>' then !expecting && depth != 0 && isTypeRest (depth - 1) expecting rest
    else if char == ' ' && depth != 0 then isTypeRest depth expecting rest
    else (char == '[' || char == ']' || char == '?') && !expecting && isTypeRest depth expecting rest

/-- Dotted segments with balanced lists of type arguments, and marks of arrays and
optional values after a segment. -/
def isTypeName (text : Text) : Bool := isTypeRest 0 true text

/-- Whether a reference names a namespace or one that it lies in. Without references
everything is covered. -/
def isReferenced (references : List Text) (name : Text) : Bool :=
  references.isEmpty || references.any fun reference =>
    name == reference ||
      match afterLead? reference name with
      | some rest => beginsWith ['.'] rest
      | none => false

/-- A property as a manifest lists it. -/
structure InjectedProperty where
  type : Text
  name : Text
deriving DecidableEq, Repr

/-- What an accepted page class declares. -/
structure Manifest where
  within : Text
  typeName : Text
  baseType : Text
  /-- The route of a page; a view has none. -/
  route : Option Text
  injections : List InjectedProperty
  tagHelpers : List Text
deriving DecidableEq, Repr

namespace Manifest

/-- What was read of a page class so far. -/
structure Reading where
  place : Option Mapping := none
  within : Option Text := none
  declared : Option (Text × Text) := none
  route : Option Text := none
  injections : List InjectedProperty := []
  tagHelpers : List Text := []
  diagnostics : List Diagnostic := []

/-- A fault if the condition does not hold. -/
def unless_ (holds : Bool) (fault : ClassFault) : List ClassFault := if holds then [] else [fault]

/-- What is wrong with a line by itself. -/
def faultsOf (references : List Text) : ClassLine → List ClassFault
  | .opens name => unless_ (isReferenced references name) (.unknownNamespace name)
  | .declares _ base => unless_ (isTypeName base) (.badType base)
  | .injects type name =>
    unless_ (isTypeName type) (.badType type) ++ unless_ (isIdentifier name) (.badIdentifier name)
  | _ => []

/-- What is known after a line that has this number. -/
def Reading.take (references : List Text) (reading : Reading) (row : Nat) (line : ClassLine) : Reading :=
  let reported := { reading with
    diagnostics := reading.diagnostics ++ (faultsOf references line).map (·.at_ row reading.place) }
  match line with
  | .mapping place => { reported with place }
  | .within name => { reported with within := some name }
  | .route value => { reported with route := some value }
  | .tagHelper value => { reported with tagHelpers := reading.tagHelpers ++ [value] }
  | .declares name base => { reported with declared := some (name, base) }
  | .injects type name => { reported with injections := reading.injections ++ [⟨type, name⟩] }
  | .opens _ | .other => reported

/-- Reads lines, the first of them having number `row`, and tells the number of the
last one read. -/
def Reading.takeAll (references : List Text) (reading : Reading) (row : Nat) : List Text → Reading
  | [] => reading
  | raw :: rest => (reading.take references row (ClassLine.read raw)).takeAll references (row + 1) rest

/-- The manifest of a page class, or everything that is wrong with it. -/
def check (references : List Text) (code : Text) : Except (List Diagnostic) Manifest :=
  let rows := lines code
  let reading := Reading.takeAll references {} 1 rows
  match reading.declared with
  | none => .error (reading.diagnostics ++ [ClassFault.noClass.at_ rows.length none])
  | some (typeName, baseType) =>
    if reading.diagnostics.isEmpty then
      .ok ⟨reading.within.getD [], typeName, baseType, reading.route, reading.injections, reading.tagHelpers⟩
    else .error reading.diagnostics

end Manifest

end ViewCompiler

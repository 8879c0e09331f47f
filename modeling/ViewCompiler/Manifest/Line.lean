import ViewCompiler.Text.Blank
import ViewCompiler.Text.Letters

/-!
# The lines of a page class, as read

A page class is checked line by line. Blanks around a line count for nothing. A line is
a pragma, a declaration of one of five forms, or of no interest.
-/

namespace ViewCompiler

open Text

/-- The place that a pragma names for the lines after it, counted from one. -/
structure Mapping where
  file : Text
  line : Nat
  column : Nat
  endLine : Nat
  endColumn : Nat
deriving DecidableEq, Repr

/-- What a line of a page class says. -/
inductive ClassLine
  /-- The lines after it come from this place, or from none. -/
  | mapping (place : Option Mapping)
  /-- The namespace of the class. -/
  | within (name : Text)
  /-- A namespace whose names may be used. -/
  | opens (name : Text)
  /-- The route of a page. -/
  | route (value : Text)
  | tagHelper (value : Text)
  /-- The class with its base type. -/
  | declares (name base : Text)
  /-- A property that is filled in. -/
  | injects (type name : Text)
  | other
deriving DecidableEq, Repr

namespace ClassLine

/-- The digits at the beginning of a text, which has at least one, and what follows
them after `mark`. -/
def digitsThen? (mark text : Text) : Option (Text × Text) := do
  let digits := text.takeWhile isDecimalDigit
  if digits.isEmpty then none
  let rest ← afterLead? mark (text.dropWhile isDecimalDigit)
  return (digits, rest)

/-- The number that digits denote. Digits beyond ASCII, and numbers of more than 64
bits, denote zero. -/
def numberOf (digits : Text) : Nat :=
  match number? digits with
  | some number => if number < 0x10000000000000000 then number else 0
  | none => 0

/-- The place that a pragma names. -/
def span? (line : Text) : Option Mapping := do
  let rest ← afterLead? "#line (" line
  let (first, rest) ← digitsThen? "," rest
  let (second, rest) ← digitsThen? ")-(" rest
  let (third, rest) ← digitsThen? "," rest
  let (fourth, rest) ← digitsThen? ") \"" rest
  let file ← beforeTail? "\"" rest
  return ⟨file, numberOf first, numberOf second, numberOf third, numberOf fourth⟩

/-- What stands in the quotes of an attribute of one argument. -/
def attribute? (name line : Text) : Option Text := do
  let rest ← afterLead? ("[" ++ name ++ "(\"") line
  beforeTail? "\")]" rest

/-- What stands between a beginning and an end of a line. -/
def between? (lead tail line : Text) : Option Text := do
  beforeTail? tail (← afterLead? lead line)

/-- Reads a trimmed line that is no pragma as a declaration. -/
def declaration (line : Text) : ClassLine :=
  match afterLead? "namespace " line with
  | some name => .within (trim name)
  | none =>
  match between? "using " ";" line with
  | some name => .opens name
  | none =>
  match attribute? "RazorPage" line with
  | some value => .route value
  | none =>
  match attribute? "AddTagHelper" line with
  | some value => .tagHelper value
  | none =>
  match afterLead? "public class " line with
  | some rest =>
    match cutFirst? " : " rest with
    | some (name, base) => .declares (trim name) (trim base)
    | none => .declares (trim rest) []
  | none =>
  match between? "[RazorInject] public " " \x7b get; private set; \x7d" line with
  | some property =>
    match cutLast? (· == ' ') property with
    | some (type, name) => .injects type name
    | none => .injects [] property
  | none => .other

/-- Reads a line. -/
def read (raw : Text) : ClassLine :=
  let line := trim raw
  match afterLead? "#line " line with
  | some pragma =>
    if trim pragma = ("default" : Text) ∨ trim pragma = ("hidden" : Text) then .mapping none
    else .mapping (span? line)
  | none => if beginsWith "#pragma" line then .other else declaration line

end ClassLine

end ViewCompiler
